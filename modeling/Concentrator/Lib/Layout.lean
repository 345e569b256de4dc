import Mathlib.Algebra.GroupWithZero.Nat
import Mathlib.Data.Nat.Basic
import Mathlib.Tactic.Common

/-!
# Byte layouts of packed little-endian structures

A `Layout` says how a value of a type is laid out in a fixed number of bytes and read back: the two
maps are inverse to each other. The layouts of the fixed-width integers are the basic ones, and a
packed structure is the sequence (`Layout.seq`) of the layouts of its fields, read through the
structure's constructor (`Layout.iso`), so its round trips need no proof of their own.
-/

namespace Concentrator

/-! ## Little-endian naturals -/

/-- The `w` little-endian bytes of `n`; what does not fit is dropped. -/
def toBytesLE : Nat → Nat → List UInt8
  | 0, _ => []
  | w + 1, n => UInt8.ofNat n :: toBytesLE w (n / 256)

/-- The natural number with the given little-endian bytes. -/
def ofBytesLE : List UInt8 → Nat
  | [] => 0
  | b :: bs => b.toNat + 256 * ofBytesLE bs

@[simp] theorem toBytesLE_length (w n : Nat) : (toBytesLE w n).length = w := by
  induction w generalizing n with
  | zero => rfl
  | succ w ih => simp [toBytesLE, ih]

theorem ofBytesLE_toBytesLE {w n : Nat} (h : n < 256 ^ w) : ofBytesLE (toBytesLE w n) = n := by
  induction w generalizing n with
  | zero => simp only [Nat.pow_zero, Nat.lt_one_iff] at h; simp [toBytesLE, ofBytesLE, h]
  | succ w ih =>
    have hd : n / 256 < 256 ^ w := by
      rw [Nat.pow_succ] at h
      omega
    simp only [toBytesLE, ofBytesLE, ih hd, UInt8.toNat_ofNat']
    omega

theorem ofBytesLE_lt (l : List UInt8) : ofBytesLE l < 256 ^ l.length := by
  induction l with
  | nil => simp [ofBytesLE]
  | cons b bs ih =>
    have hb := b.toNat_lt
    simp only [ofBytesLE, List.length_cons, Nat.pow_succ]
    omega

theorem toBytesLE_ofBytesLE (l : List UInt8) : toBytesLE l.length (ofBytesLE l) = l := by
  induction l with
  | nil => rfl
  | cons b bs ih =>
    have hb := b.toNat_lt
    have hlo : (b.toNat + 256 * ofBytesLE bs) % 256 = b.toNat := by omega
    have hhi : (b.toNat + 256 * ofBytesLE bs) / 256 = ofBytesLE bs := by omega
    have hbyte : UInt8.ofNat (b.toNat + 256 * ofBytesLE bs) = b := by
      rw [← UInt8.toNat_inj, UInt8.toNat_ofNat']
      exact hlo
    simp only [ofBytesLE, List.length_cons, toBytesLE, hhi, ih, hbyte]

/-! ## Layouts -/

/-- How a value of `α` lies in `size` bytes, and how it is read back. -/
structure Layout (α : Type) where
  size : Nat
  pack : α → List UInt8
  unpack : List UInt8 → α
  length_pack : ∀ a, (pack a).length = size
  unpack_pack : ∀ a, unpack (pack a) = a
  pack_unpack : ∀ l, l.length = size → pack (unpack l) = l

namespace Layout

variable {α β : Type}

/-- Two layouts one after the other, with nothing between them. -/
def seq (A : Layout α) (B : Layout β) : Layout (α × β) where
  size := A.size + B.size
  pack p := A.pack p.1 ++ B.pack p.2
  unpack l := (A.unpack (l.take A.size), B.unpack (l.drop A.size))
  length_pack p := by rw [List.length_append, A.length_pack, B.length_pack]
  unpack_pack p := by
    rw [List.take_left' (A.length_pack p.1), List.drop_left' (A.length_pack p.1), A.unpack_pack,
      B.unpack_pack]
  pack_unpack l h := by
    rw [A.pack_unpack _ (by rw [List.length_take]; omega),
      B.pack_unpack _ (by rw [List.length_drop]; omega), List.take_append_drop]

/-- A layout read through a bijection, such as a structure's constructor and its fields. -/
def iso (A : Layout α) (mk : α → β) (fields : β → α) (mk_fields : ∀ b, mk (fields b) = b)
    (fields_mk : ∀ a, fields (mk a) = a) : Layout β where
  size := A.size
  pack b := A.pack (fields b)
  unpack l := mk (A.unpack l)
  length_pack b := A.length_pack _
  unpack_pack b := by rw [A.unpack_pack, mk_fields]
  pack_unpack l h := by rw [fields_mk, A.pack_unpack l h]

/-- An unsigned integer of `w` bytes, low byte first, for a type of exactly the numbers below
`256 ^ w`. -/
def uint (w : Nat) (toNat : α → Nat) (ofNat : Nat → α) (lt : ∀ a, toNat a < 256 ^ w)
    (ofNat_toNat : ∀ a, ofNat (toNat a) = a) (toNat_ofNat : ∀ n < 256 ^ w, toNat (ofNat n) = n) :
    Layout α where
  size := w
  pack a := toBytesLE w (toNat a)
  unpack l := ofNat (ofBytesLE l)
  length_pack a := toBytesLE_length w _
  unpack_pack a := by rw [ofBytesLE_toBytesLE (lt a), ofNat_toNat]
  pack_unpack l h := by
    subst h
    rw [toNat_ofNat _ (ofBytesLE_lt l), toBytesLE_ofBytesLE]

/-- `uint8_t`. -/
def u8 : Layout UInt8 :=
  uint 1 UInt8.toNat UInt8.ofNat UInt8.toNat_lt (fun _ => UInt8.ofNat_toNat) fun _ h =>
    UInt8.toNat_ofNat_of_lt h

/-- `uint16_t`, little-endian. -/
def u16 : Layout UInt16 :=
  uint 2 UInt16.toNat UInt16.ofNat UInt16.toNat_lt (fun _ => UInt16.ofNat_toNat) fun _ h =>
    UInt16.toNat_ofNat_of_lt h

/-- `uint32_t`, little-endian. -/
def u32 : Layout UInt32 :=
  uint 4 UInt32.toNat UInt32.ofNat UInt32.toNat_lt (fun _ => UInt32.ofNat_toNat) fun _ h =>
    UInt32.toNat_ofNat_of_lt h

/-- `int8_t`, two's complement. -/
def i8 : Layout Int8 :=
  u8.iso UInt8.toInt8 Int8.toUInt8 (fun _ => rfl) fun _ => rfl

/-- A byte is laid out as itself. -/
theorem u8_pack (b : UInt8) : u8.pack b = [b] := by
  show [UInt8.ofNat b.toNat] = [b]
  rw [UInt8.ofNat_toNat]

theorem i8_pack (x : Int8) : i8.pack x = [x.toUInt8] := u8_pack _

/-- `int16_t`, two's complement, little-endian. -/
def i16 : Layout Int16 :=
  u16.iso UInt16.toInt16 Int16.toUInt16 (fun _ => rfl) fun _ => rfl

/-- `uint8_t[n]`. -/
def bytes (n : Nat) : Layout { l : List UInt8 // l.length = n } where
  size := n
  pack l := l.1
  unpack l := ⟨(l ++ List.replicate n 0).take n, by simp⟩
  length_pack l := l.2
  unpack_pack l := Subtype.ext (List.take_left' l.2)
  pack_unpack _ h := List.take_left' h

end Layout

end Concentrator
