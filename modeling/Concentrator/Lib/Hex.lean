import Mathlib.Tactic.Common

/-!
# Hexadecimal

A byte is rendered as two digits, the high one first, in lower case. A text denotes bytes when it is
their rendering up to letter case. The texts that denote `n` bytes are those of `2 * n` hexadecimal
digits (`exists_denotes_iff`), and each denotes one sequence (`Denotes.unique`).
-/

namespace Concentrator.Hex

/-! ## Digits -/

theorem toNat_digitChar {d : Nat} (h : d < 16) :
    (Nat.digitChar d).toNat = if d < 10 then 48 + d else 87 + d := by
  have hdigits : ∀ d < 16, (Nat.digitChar d).toNat = if d < 10 then 48 + d else 87 + d := by decide
  exact hdigits d h

theorem toNat_toLower (c : Char) :
    c.toLower.toNat = if 65 ≤ c.toNat ∧ c.toNat ≤ 90 then c.toNat + 32 else c.toNat := by
  have hcase : (c.val ≥ 'A'.val ∧ c.val ≤ 'Z'.val) ↔ 65 ≤ c.toNat ∧ c.toNat ≤ 90 := by
    rw [ge_iff_le, UInt32.le_iff_toNat_le, UInt32.le_iff_toNat_le]
    rfl
  unfold Char.toLower
  split
  · next hupper =>
    have hupper := hcase.1 hupper
    rw [if_pos hupper, Char.toNat_mk, UInt32.toNat_add]
    show (c.toNat + 32) % 2 ^ 32 = _
    omega
  · next hupper => rw [if_neg (hcase.not.1 hupper)]

theorem isHexDigit_iff (c : Char) :
    c.isHexDigit = true ↔ 48 ≤ c.toNat ∧ c.toNat ≤ 57 ∨ 97 ≤ c.toNat ∧ c.toNat ≤ 102 ∨
      65 ≤ c.toNat ∧ c.toNat ≤ 70 := by
  simp only [Char.isHexDigit, Char.isDigit, Bool.or_eq_true, Bool.and_eq_true, decide_eq_true_eq,
    ge_iff_le, UInt32.le_iff_toNat_le, or_assoc]
  rfl

/-- A character is the digit `d` in one of the two cases. -/
theorem toLower_eq_digitChar_iff {c : Char} {d : Nat} (h : d < 16) :
    c.toLower = Nat.digitChar d ↔
      d < 10 ∧ c.toNat = 48 + d ∨ 10 ≤ d ∧ (c.toNat = 87 + d ∨ c.toNat = 55 + d) := by
  rw [← Char.toNat_inj, toNat_digitChar h, toNat_toLower]
  split <;> split <;> omega

/-- The hexadecimal digits are the sixteen digits, in either case. -/
theorem isHexDigit_iff_exists {c : Char} :
    c.isHexDigit = true ↔ ∃ d < 16, c.toLower = Nat.digitChar d := by
  rw [isHexDigit_iff]
  constructor
  · rintro (⟨hlo, hhi⟩ | ⟨hlo, hhi⟩ | ⟨hlo, hhi⟩)
    · exact ⟨c.toNat - 48, by omega, (toLower_eq_digitChar_iff (by omega)).2 (by omega)⟩
    · exact ⟨c.toNat - 87, by omega, (toLower_eq_digitChar_iff (by omega)).2 (by omega)⟩
    · exact ⟨c.toNat - 55, by omega, (toLower_eq_digitChar_iff (by omega)).2 (by omega)⟩
  · rintro ⟨d, hd, hc⟩
    have hc := (toLower_eq_digitChar_iff hd).1 hc
    omega

theorem digitChar_inj {d e : Nat} (hd : d < 16) (he : e < 16)
    (h : Nat.digitChar d = Nat.digitChar e) : d = e := by
  have h := congrArg Char.toNat h
  rw [toNat_digitChar hd, toNat_digitChar he] at h
  split at h <;> split at h <;> omega

/-! ## Bytes -/

/-- The rendering of one byte. -/
def renderByte (b : UInt8) : List Char :=
  [Nat.digitChar (b.toNat / 16), Nat.digitChar (b.toNat % 16)]

/-- The rendering. -/
def render (bytes : List UInt8) : List Char := bytes.flatMap renderByte

/-- A text is the rendering up to letter case. -/
def Denotes (text : List Char) (bytes : List UInt8) : Prop := text.map Char.toLower = render bytes

@[simp] theorem render_cons (b : UInt8) (bytes : List UInt8) :
    render (b :: bytes) =
      Nat.digitChar (b.toNat / 16) :: Nat.digitChar (b.toNat % 16) :: render bytes := rfl

theorem length_render (bytes : List UInt8) : (render bytes).length = 2 * bytes.length := by
  induction bytes with
  | nil => rfl
  | cons b bytes ih =>
    rw [render_cons, List.length_cons, List.length_cons, List.length_cons, ih]
    rfl

theorem div_lt (b : UInt8) : b.toNat / 16 < 16 := by
  have hlt := b.toNat_lt
  omega

theorem mod_lt (b : UInt8) : b.toNat % 16 < 16 := Nat.mod_lt _ (by decide)

theorem render_injective : Function.Injective render := by
  intro bytes
  induction bytes with
  | nil =>
    intro bytes' h
    cases bytes' with
    | nil => rfl
    | cons b' bytes' => cases h
  | cons b bytes ih =>
    intro bytes' h
    cases bytes' with
    | nil => cases h
    | cons b' bytes' =>
      rw [render_cons, render_cons] at h
      obtain ⟨hhi, hlo, hrest⟩ : _ ∧ _ ∧ _ := by
        simpa only [List.cons.injEq] using h
      have hhi := digitChar_inj (div_lt b) (div_lt b') hhi
      have hlo := digitChar_inj (mod_lt b) (mod_lt b') hlo
      have heq : b = b' := UInt8.toNat_inj.1 (by omega)
      rw [heq, ih hrest]

namespace Denotes

variable {text : List Char} {bytes bytes' : List UInt8}

theorem length_eq (h : Denotes text bytes) : text.length = 2 * bytes.length := by
  rw [← length_render, ← h, List.length_map]

/-- A text denotes one sequence of bytes at most. -/
theorem unique (h : Denotes text bytes) (h' : Denotes text bytes') : bytes = bytes' :=
  render_injective (h.symm.trans h')

/-- Two characters denote a byte. -/
theorem cons_iff {c₁ c₂ : Char} {b : UInt8} :
    Denotes (c₁ :: c₂ :: text) (b :: bytes) ↔
      (c₁.toLower = Nat.digitChar (b.toNat / 16) ∧ c₂.toLower = Nat.digitChar (b.toNat % 16)) ∧
        Denotes text bytes := by
  unfold Denotes
  rw [List.map_cons, List.map_cons, render_cons, List.cons.injEq, List.cons.injEq, and_assoc]

end Denotes

/-- The byte of two digits. -/
theorem exists_byte {d e : Nat} (hd : d < 16) (he : e < 16) :
    ∃ b : UInt8, b.toNat / 16 = d ∧ b.toNat % 16 = e := by
  refine ⟨UInt8.ofNat (16 * d + e), ?_⟩
  rw [UInt8.toNat_ofNat_of_lt' (by show _ < 256; omega)]
  omega

theorem mem_render {c : Char} {bytes : List UInt8} (h : c ∈ render bytes) :
    ∃ d < 16, c = Nat.digitChar d := by
  obtain ⟨b, -, hc⟩ := List.mem_flatMap.1 h
  rcases List.mem_cons.1 hc with hc | hc
  · exact ⟨_, div_lt b, hc⟩
  · exact ⟨_, mod_lt b, List.mem_singleton.1 hc⟩

/-- Every text of an even number of digits denotes bytes. The induction is on their number. -/
theorem exists_denotes {n : Nat} {text : List Char} (hlen : text.length = 2 * n)
    (hdigit : ∀ c ∈ text, c.isHexDigit = true) :
    ∃ bytes, bytes.length = n ∧ Denotes text bytes := by
  induction n generalizing text with
  | zero =>
    rw [List.length_eq_zero_iff] at hlen
    exact ⟨[], rfl, hlen ▸ rfl⟩
  | succ n ih =>
    match text, hlen with
    | c₁ :: c₂ :: text, hlen =>
      obtain ⟨h₁, h₂, hdigit⟩ : _ ∧ _ ∧ _ := by simpa only [List.forall_mem_cons] using hdigit
      obtain ⟨d, hd, h₁⟩ := isHexDigit_iff_exists.1 h₁
      obtain ⟨e, he, h₂⟩ := isHexDigit_iff_exists.1 h₂
      obtain ⟨b, rfl, rfl⟩ := exists_byte hd he
      obtain ⟨bytes, hbytes, h⟩ := ih (by simp only [List.length_cons] at hlen; omega) hdigit
      exact ⟨b :: bytes, congrArg (· + 1) hbytes, Denotes.cons_iff.2 ⟨⟨h₁, h₂⟩, h⟩⟩

theorem Denotes.isHexDigit {text : List Char} {bytes : List UInt8} (h : Denotes text bytes)
    {c : Char} (hc : c ∈ text) : c.isHexDigit = true := by
  have hlower : c.toLower ∈ render bytes := h ▸ List.mem_map_of_mem hc
  exact isHexDigit_iff_exists.2 (mem_render hlower)

/-- **What is hexadecimal.** The texts that denote `n` bytes are those of `2 * n` digits. -/
theorem exists_denotes_iff {n : Nat} {text : List Char} :
    (∃ bytes, bytes.length = n ∧ Denotes text bytes) ↔
      text.length = 2 * n ∧ ∀ c ∈ text, c.isHexDigit = true := by
  constructor
  · rintro ⟨bytes, rfl, h⟩
    exact ⟨h.length_eq, fun c => h.isHexDigit⟩
  · rintro ⟨hlen, hdigit⟩
    exact exists_denotes hlen hdigit

end Concentrator.Hex
