import Concentrator.Hal.LoraLink
import Concentrator.Lib.Hex
import Mathlib.Algebra.GroupWithZero.Nat
import Mathlib.Logic.Function.Basic

/-!
# The hexadecimal identifiers

`parse_hex` reads the EUIs and the key that are configured as text. It accepts the texts of the
expected number of digits and no others, what it writes is what the text denotes, and every
rendering of the bytes is accepted (`parseHex_inverts_render`).

`size_t` has `w` bits here, so the doubled length may overflow: the loop then meets the terminator,
which is no digit. A read past the terminator is undefined, and none takes place. A `char` is a
byte; whether it has a sign makes no difference to the ranges.
-/

namespace Concentrator.LoraLink

/-- A string: the characters before its terminator, as many as `size_t` can tell. -/
structure CString (w : Nat) where
  chars : List UInt8
  noNul : 0 ∉ chars
  fits : chars.length < 2 ^ w

namespace CString

variable {w : Nat}

def strlen (s : CString w) : BitVec w := BitVec.ofNat w s.chars.length

/-- What is read at an index, up to the terminator. -/
def read (s : CString w) (index : BitVec w) : Option UInt8 :=
  if index.toNat = s.chars.length then some 0 else s.chars[index.toNat]?

/-- The characters, of one byte each. -/
def text (s : CString w) : List Char := s.chars.map Char.ofUInt8

end CString

/-! ## The function

An inner `none` is a character that is no digit.
-/

/-- The three ranges. Reference: `hal/link/lora/link_lora.cpp:84-99`. -/
def hexDigit (c : UInt8) : Option UInt8 :=
  if c ≥ '0'.toUInt8 ∧ c ≤ '9'.toUInt8 then some (c - '0'.toUInt8)
  else if c ≥ 'a'.toUInt8 ∧ c ≤ 'f'.toUInt8 then some ((c - 'a'.toUInt8) + 10)
  else if c ≥ 'A'.toUInt8 ∧ c ≤ 'F'.toUInt8 then some ((c - 'A'.toUInt8) + 10)
  else none

variable {w : Nat}

/-- The inner loop, over the nibbles of the `i`-th byte that are left. Reference:
`hal/link/lora/link_lora.cpp:79`. -/
def parseByte (s : CString w) (i : BitVec w) :
    Nat → BitVec w → UInt8 → Option (Option UInt8)
  | 0, _, value => some (some value)
  | rest + 1, nibble, value =>
    match s.read (i * 2 + nibble) with
    | none => none
    | some c =>
      match hexDigit c with
      | none => some none
      | some digit => parseByte s i rest (nibble + 1) ((value <<< 4) ||| digit)

/-- The outer loop, over the bytes that are left. Reference: `hal/link/lora/link_lora.cpp:75`. -/
def parseBytes (s : CString w) :
    Nat → BitVec w → (Nat → UInt8) → Option (Bool × (Nat → UInt8))
  | 0, _, out => some (true, out)
  | rest + 1, i, out =>
    match parseByte s i 2 0 0 with
    | none => none
    | some none => some (false, out)
    | some (some value) => parseBytes s rest (i + 1) (Function.update out i.toNat value)

/-- Parse a text into bytes; `out` is the memory from `p_out` on. Reference:
`hal/link/lora/link_lora.cpp:68 parse_hex`. -/
def parseHex (hex : Option (CString w)) (out : Nat → UInt8) (length : BitVec w) :
    Option (Bool × (Nat → UInt8)) :=
  match hex with
  | none => some (false, out)
  | some s => if s.strlen ≠ length * 2 then some (false, out) else parseBytes s length.toNat 0 out

/-! ## Two characters -/

/-- The value of a letter. -/
theorem toNat_letter {c lo : UInt8} (hlo : 10 ≤ lo.toNat) (h : lo ≤ c) :
    (c - lo + 10).toNat = c.toNat - lo.toNat + 10 := by
  have hlt := c.toNat_lt
  have hten : (10 : UInt8).toNat = 10 := rfl
  rw [UInt8.toNat_add, UInt8.toNat_sub_of_le _ _ h, hten]
  exact Nat.mod_eq_of_lt (by omega)

/-- Each of the three ranges holds the digits of its case. -/
theorem hexDigit_eq_some {c d : UInt8} (h : hexDigit c = some d) :
    d.toNat < 16 ∧ (Char.ofUInt8 c).toLower = Nat.digitChar d.toNat := by
  have hval : (Char.ofUInt8 c).toNat = c.toNat := rfl
  unfold hexDigit at h
  split_ifs at h with hnum hlower hupper <;> cases h
  · have hd := UInt8.toNat_sub_of_le _ _ hnum.1
    obtain ⟨hlo, hhi⟩ : 48 ≤ c.toNat ∧ c.toNat ≤ 57 := hnum
    change _ = c.toNat - 48 at hd
    exact ⟨by omega, (Hex.toLower_eq_digitChar_iff (by omega)).2 (by omega)⟩
  · have hd := toNat_letter (by decide) hlower.1
    obtain ⟨hlo, hhi⟩ : 97 ≤ c.toNat ∧ c.toNat ≤ 102 := hlower
    change _ = c.toNat - 97 + 10 at hd
    exact ⟨by omega, (Hex.toLower_eq_digitChar_iff (by omega)).2 (by omega)⟩
  · have hd := toNat_letter (by decide) hupper.1
    obtain ⟨hlo, hhi⟩ : 65 ≤ c.toNat ∧ c.toNat ≤ 70 := hupper
    change _ = c.toNat - 65 + 10 at hd
    exact ⟨by omega, (Hex.toLower_eq_digitChar_iff (by omega)).2 (by omega)⟩

/-- And there are no other digits. -/
theorem exists_hexDigit {c : UInt8} (h : (Char.ofUInt8 c).isHexDigit = true) :
    ∃ d, hexDigit c = some d := by
  have hval : (Char.ofUInt8 c).toNat = c.toNat := rfl
  rw [Hex.isHexDigit_iff, hval] at h
  unfold hexDigit
  split_ifs with hnum hlower hupper
  · exact ⟨_, rfl⟩
  · exact ⟨_, rfl⟩
  · exact ⟨_, rfl⟩
  · have hnum : ¬(48 ≤ c.toNat ∧ c.toNat ≤ 57) := hnum
    have hlower : ¬(97 ≤ c.toNat ∧ c.toNat ≤ 102) := hlower
    have hupper : ¬(65 ≤ c.toNat ∧ c.toNat ≤ 70) := hupper
    omega

theorem exists_hexDigit_eq {c : UInt8} {n : Nat} (hn : n < 16)
    (h : (Char.ofUInt8 c).toLower = Nat.digitChar n) : ∃ d, hexDigit c = some d ∧ d.toNat = n := by
  obtain ⟨d, hd⟩ := exists_hexDigit (Hex.isHexDigit_iff_exists.2 ⟨n, hn, h⟩)
  obtain ⟨hlt, hlower⟩ := hexDigit_eq_some hd
  exact ⟨d, hd, Hex.digitChar_inj hlt hn (hlower.symm.trans h)⟩

/-- The byte of the first two characters. -/
def firstByte : List UInt8 → Option UInt8
  | c₁ :: c₂ :: _ =>
    (hexDigit c₁).bind fun d =>
      (hexDigit c₂).map fun e => (((0 : UInt8) <<< 4 ||| d) <<< 4) ||| e
  | _ => none

/-- The accumulator after two digits. -/
theorem toNat_accumulated {d e : UInt8} (hd : d.toNat < 16) (he : e.toNat < 16) :
    ((((0 : UInt8) <<< 4 ||| d) <<< 4) ||| e).toNat = 16 * d.toNat + e.toNat := by
  have hzero : (0 : UInt8) <<< 4 ||| d = d := UInt8.zero_or
  have hshift : (d <<< 4).toNat = d.toNat <<< 4 := by
    rw [UInt8.toNat_shiftLeft]
    show d.toNat <<< 4 % 2 ^ 8 = _
    rw [Nat.shiftLeft_eq]
    omega
  rw [hzero, UInt8.toNat_or, hshift, ← Nat.shiftLeft_add_eq_or_of_lt he, Nat.shiftLeft_eq]
  omega

theorem firstByte_eq_some_iff {c₁ c₂ b : UInt8} {cs : List UInt8} :
    firstByte (c₁ :: c₂ :: cs) = some b ↔
      (Char.ofUInt8 c₁).toLower = Nat.digitChar (b.toNat / 16) ∧
        (Char.ofUInt8 c₂).toLower = Nat.digitChar (b.toNat % 16) := by
  simp only [firstByte, Option.bind_eq_some_iff, Option.map_eq_some_iff]
  constructor
  · rintro ⟨d, hc₁, e, hc₂, rfl⟩
    obtain ⟨hd, hlower₁⟩ := hexDigit_eq_some hc₁
    obtain ⟨he, hlower₂⟩ := hexDigit_eq_some hc₂
    have hvalue := toNat_accumulated hd he
    rw [hlower₁, hlower₂]
    exact ⟨congrArg _ (by omega), congrArg _ (by omega)⟩
  · rintro ⟨hlower₁, hlower₂⟩
    obtain ⟨d, hc₁, hd⟩ := exists_hexDigit_eq (Hex.div_lt b) hlower₁
    obtain ⟨e, hc₂, he⟩ := exists_hexDigit_eq (Hex.mod_lt b) hlower₂
    have hvalue := toNat_accumulated (hd ▸ Hex.div_lt b) (he ▸ Hex.mod_lt b)
    exact ⟨d, hc₁, e, hc₂, UInt8.toNat_inj.1 (by omega)⟩

/-- What denotes bytes is a first byte and what denotes the others. -/
theorem denotes_cons_iff {cs : List UInt8} {b : UInt8} {bytes : List UInt8} :
    Hex.Denotes (cs.map Char.ofUInt8) (b :: bytes) ↔
      firstByte cs = some b ∧ Hex.Denotes ((cs.drop 2).map Char.ofUInt8) bytes := by
  match cs with
  | [] => exact ⟨fun h => (nomatch h.length_eq), fun h => nomatch h.1⟩
  | [_] =>
    refine ⟨fun h => ?_, fun h => nomatch h.1⟩
    have hlen := h.length_eq
    rw [List.length_map, List.length_singleton, List.length_cons] at hlen
    omega
  | c₁ :: c₂ :: cs =>
    rw [firstByte_eq_some_iff]
    exact Hex.Denotes.cons_iff

theorem two_le_length {cs : List UInt8} {b : UInt8} (h : firstByte cs = some b) :
    2 ≤ cs.length := by
  match cs, h with
  | _ :: _ :: _, _ => exact Nat.le_add_left 2 _

/-! ## The loops -/

theorem toNat_index {i : BitVec w} {k : Nat} (h : 2 * i.toNat + k < 2 ^ w) :
    (i * 2 + BitVec.ofNat w k).toNat = 2 * i.toNat + k := by
  have hmul : (i * BitVec.ofNat w 2).toNat = 2 * i.toNat := by
    rw [BitVec.toNat_mul, BitVec.toNat_ofNat, Nat.mul_mod_mod, Nat.mod_eq_of_lt (by omega),
      Nat.mul_comm]
  show (i * BitVec.ofNat w 2 + _).toNat = _
  rw [BitVec.toNat_add, BitVec.toNat_ofNat, Nat.add_mod_mod, hmul, Nat.mod_eq_of_lt h]

/-- No read up to the terminator is undefined. -/
theorem CString.read_eq (s : CString w) {index : BitVec w} {n : Nat} (hindex : index.toNat = n)
    (h : n ≤ s.chars.length) : s.read index = some ((s.chars.drop n).headD 0) := by
  subst hindex
  unfold read
  split
  · next heq =>
    rw [List.drop_of_length_le (Nat.le_of_eq heq.symm)]
    rfl
  · next hne =>
    have hlt : index.toNat < s.chars.length := Nat.lt_of_le_of_ne h hne
    rw [List.drop_eq_getElem_cons hlt, List.getElem?_eq_getElem hlt]
    rfl

/-- The inner loop reads the first byte of what is left; the terminator is no digit. -/
theorem parseByte_eq (s : CString w) {i : BitVec w} (hi : 2 * i.toNat ≤ s.chars.length) :
    parseByte s i 2 0 0 = some (firstByte (s.chars.drop (2 * i.toNat))) := by
  have hfits := s.fits
  have hnul : hexDigit 0 = none := rfl
  have hread₁ : s.read (i * 2 + 0) = some ((s.chars.drop (2 * i.toNat)).headD 0) :=
    s.read_eq (toNat_index (k := 0) (by omega)) hi
  cases hdrop : s.chars.drop (2 * i.toNat) with
  | nil =>
    rw [hdrop] at hread₁
    simp only [parseByte, hread₁, List.headD_nil, hnul, firstByte]
  | cons c₁ cs =>
    have hlt : 2 * i.toNat < s.chars.length := by
      have hlen := congrArg List.length hdrop
      rw [List.length_drop, List.length_cons] at hlen
      omega
    have hread₂ : s.read (i * 2 + (0 + 1)) = some (cs.headD 0) := by
      have hcs : s.chars.drop (2 * i.toNat + 1) = cs := by
        rw [← List.tail_drop, hdrop, List.tail_cons]
      show s.read (i * 2 + (0#w + 1#w)) = _
      rw [← hcs, BitVec.zero_add]
      exact s.read_eq (toNat_index (k := 1) (by omega)) hlt
    rw [hdrop] at hread₁
    cases hc₁ : hexDigit c₁ with
    | none =>
      have hnone : firstByte (c₁ :: cs) = none := by
        cases cs with
        | nil => rfl
        | cons c₂ cs => simp only [firstByte, hc₁, Option.bind_none]
      simp only [parseByte, hread₁, List.headD_cons, hc₁, hnone]
    | some d =>
      cases cs with
      | nil =>
        simp only [parseByte, hread₁, List.headD_cons, hc₁, hread₂, List.headD_nil, hnul, firstByte]
      | cons c₂ cs =>
        cases hc₂ : hexDigit c₂ with
        | none =>
          simp only [parseByte, hread₁, List.headD_cons, hc₁, hread₂, hc₂, firstByte,
            Option.bind_some, Option.map_none]
        | some e =>
          simp only [parseByte, hread₁, List.headD_cons, hc₁, hread₂, hc₂, firstByte,
            Option.bind_some, Option.map_some]

/-- What the outer loop does to the memory, `text` being left to read for the bytes from `i` on. -/
structure Parsed (text : List Char) (i rest : Nat) (out out' : Nat → UInt8) (accepted : Bool) :
    Prop where
  reads : accepted = true → Hex.Denotes text ((List.range' i rest).map out')
  accepts : ∀ bytes, bytes.length = rest → Hex.Denotes text bytes → accepted = true
  frame : ∀ k, k < i ∨ i + rest ≤ k → out' k = out k

/-- The induction is on the bytes that are left. -/
theorem parseBytes_spec (s : CString w) {rest : Nat} {i : BitVec w} (out : Nat → UInt8)
    (hi : 2 * i.toNat ≤ s.chars.length) (hrest : s.chars.length ≤ 2 * (i.toNat + rest)) :
    ∃ accepted out', parseBytes s rest i out = some (accepted, out') ∧
      Parsed ((s.chars.drop (2 * i.toNat)).map Char.ofUInt8) i.toNat rest out out' accepted := by
  have hfits := s.fits
  induction rest generalizing i out with
  | zero =>
    have hle : s.chars.length ≤ 2 * i.toNat := hrest
    refine ⟨true, out, rfl, fun _ => ?_, fun _ _ _ => rfl, fun _ _ => rfl⟩
    rw [List.drop_of_length_le hle]
    rfl
  | succ rest ih =>
    unfold parseBytes
    rw [parseByte_eq s hi]
    cases hfirst : firstByte (s.chars.drop (2 * i.toNat)) with
    | none =>
      refine ⟨false, out, rfl, nofun, fun bytes hlen h => ?_, fun _ _ => rfl⟩
      cases bytes with
      | nil => cases hlen
      | cons b bytes =>
        rw [denotes_cons_iff, hfirst] at h
        cases h.1
    | some b =>
      have hlen := two_le_length hfirst
      rw [List.length_drop] at hlen
      have hnext : (i + 1).toNat = i.toNat + 1 := by
        show (i + BitVec.ofNat w 1).toNat = _
        rw [BitVec.toNat_add, BitVec.toNat_ofNat, Nat.add_mod_mod, Nat.mod_eq_of_lt (by omega)]
      obtain ⟨accepted, out', hrun, hreads, haccepts, hframe⟩ :=
        ih (Function.update out i.toNat b) (i := i + 1) (by omega) (by omega)
      rw [hnext, Nat.mul_add_one, ← List.drop_drop] at hreads haccepts
      rw [hnext] at hframe
      refine ⟨accepted, out', hrun, fun h => ?_, fun bytes hbytes h => ?_, fun k hk => ?_⟩
      · have hout : out' i.toNat = b := by
          rw [hframe _ (.inl (Nat.lt_succ_self _)), Function.update_self]
        rw [List.range'_succ, List.map_cons, hout, denotes_cons_iff]
        exact ⟨hfirst, hreads h⟩
      · cases bytes with
        | nil => cases hbytes
        | cons b' bytes =>
          rw [denotes_cons_iff] at h
          exact haccepts bytes (Nat.succ.inj hbytes) h.2
      · rw [hframe k (by omega), Function.update_of_ne (by omega)]

theorem Parsed.accepted_iff {text : List Char} {n : Nat} {out out' : Nat → UInt8} {accepted : Bool}
    (h : Parsed text 0 n out out' accepted) :
    accepted = true ↔ text.length = 2 * n ∧ ∀ c ∈ text, c.isHexDigit = true := by
  rw [← Hex.exists_denotes_iff]
  constructor
  · intro haccepted
    exact ⟨_, by rw [List.length_map, List.length_range'], h.reads haccepted⟩
  · rintro ⟨bytes, hlen, hbytes⟩
    exact h.accepts bytes hlen hbytes

/-! ## The function -/

theorem strlen_eq {s : CString w} {length : BitVec w} (h : s.chars.length = 2 * length.toNat) :
    s.strlen = length * 2 := by
  refine BitVec.eq_of_toNat_eq ?_
  show (BitVec.ofNat w s.chars.length).toNat = (length * BitVec.ofNat w 2).toNat
  rw [BitVec.toNat_mul, BitVec.toNat_ofNat, BitVec.toNat_ofNat, Nat.mul_mod_mod, h, Nat.mul_comm]

/-- The doubled length may have overflowed, but not to more. -/
theorem length_le_of_strlen_eq {s : CString w} {length : BitVec w} (h : s.strlen = length * 2) :
    s.chars.length ≤ 2 * length.toNat := by
  have h : (BitVec.ofNat w s.chars.length).toNat = (length * BitVec.ofNat w 2).toNat :=
    congrArg BitVec.toNat h
  rw [BitVec.toNat_mul, BitVec.toNat_ofNat, BitVec.toNat_ofNat, Nat.mul_mod_mod,
    Nat.mod_eq_of_lt s.fits] at h
  rw [h, Nat.mul_comm 2]
  exact Nat.mod_le _ _

theorem parseHex_spec (s : CString w) (out : Nat → UInt8) (length : BitVec w) :
    ∃ accepted out', parseHex (some s) out length = some (accepted, out') ∧
      Parsed s.text 0 length.toNat out out' accepted := by
  unfold parseHex
  dsimp only
  split
  · next hne =>
    refine ⟨false, out, rfl, nofun, fun bytes hbytes h => ?_, fun _ _ => rfl⟩
    have hlen := h.length_eq
    rw [CString.text, List.length_map, hbytes] at hlen
    exact absurd (strlen_eq hlen) hne
  · next heq =>
    have hzero : (0 : BitVec w).toNat = 0 := Nat.zero_mod _
    have hrest := length_le_of_strlen_eq (not_not.1 heq)
    have hspec := parseBytes_spec s out (i := 0) (by omega) (by omega : _ ≤ 2 * (_ + length.toNat))
    rwa [hzero] at hspec

/-- **Parsing inverts rendering.** A text is accepted if and only if it has two hexadecimal digits
for each byte; what is written is then what it denotes, and it denotes nothing else; every text that
denotes bytes of the expected number is accepted, and they are what is written; and nothing is
written behind them. -/
theorem parseHex_inverts_render (s : CString w) (out : Nat → UInt8) (length : BitVec w) :
    ∃ accepted out', parseHex (some s) out length = some (accepted, out') ∧
      (accepted = true ↔
        s.chars.length = 2 * length.toNat ∧ ∀ c ∈ s.text, c.isHexDigit = true) ∧
      (accepted = true → ∀ bytes, s.text.map Char.toLower = Hex.render bytes ↔
        bytes = (List.range length.toNat).map out') ∧
      (∀ bytes, bytes.length = length.toNat → s.text.map Char.toLower = Hex.render bytes →
        accepted = true ∧ (List.range length.toNat).map out' = bytes) ∧
      ∀ k, length.toNat ≤ k → out' k = out k := by
  obtain ⟨accepted, out', hrun, h⟩ := parseHex_spec s out length
  have haccepted := h.accepted_iff
  obtain ⟨hreads, haccepts, hframe⟩ := h
  rw [← List.range_eq_range'] at hreads
  rw [CString.text, List.length_map] at haccepted
  refine ⟨accepted, out', hrun, haccepted, fun h bytes => ⟨fun hb => ?_, fun hb => ?_⟩,
    fun bytes hlen hb => ?_, fun k hk => hframe k (.inr (by omega))⟩
  · exact Hex.Denotes.unique hb (hreads h)
  · rw [hb]
    exact hreads h
  · have h := haccepts bytes hlen hb
    exact ⟨h, Hex.Denotes.unique (hreads h) hb⟩

/-- Either case, and the high digit first. -/
example :
    let hex : CString 8 := ⟨[48, 97, 70, 49], by decide, by decide⟩
    (parseHex (some hex) (fun _ => 0) 2).map (fun done => (done.1, done.2 0, done.2 1)) =
      some (true, 0x0a, 0xf1) := by rfl

/-! ## The identifiers of a join -/

/-- Reference: `hal/link/lora/link_lora.cpp:53 EUI_SIZE`. -/
def EUI_SIZE : BitVec 32 := 8

/-- Reference: `hal/link/lora/link_lora.cpp:56 KEY_SIZE`. -/
def KEY_SIZE : BitVec 32 := 16

/-- Whether a configured text is accepted. -/
def parses (hex : CString 32) (length : BitVec 32) : Bool :=
  (parseHex (some hex) (fun _ => 0) length).any Prod.fst

end Concentrator.LoraLink
