import Concentrator.Lib.Layout
import Mathlib.Data.Int.Init

/-!
# Packed formats read as tuples of integers

A `Format` is what the `struct` library of Python calls a format with the `<` prefix: a list of
codes, each of a fixed width, little-endian, with no alignment between them. `unpack` refuses
anything but exactly `calcsize` bytes and reads a tuple of unbounded integers and byte strings;
`pack` refuses an integer that is out of its code's range. On the tuples in range the two are
inverse to each other (`Format.pack_inRange`, `Format.pack_read`).

Such a format is the other description of a `Layout`. `Mirrors` says that the two agree: reading
what the layout packs gives the value's fields as integers. It is shown code by code
(`Mirrors.cons`), from the basic layouts.
-/

namespace Concentrator

/-- One code of a format. -/
inductive FormatCode where
  /-- Unsigned, four bytes. -/
  | I
  /-- Unsigned, two bytes. -/
  | H
  /-- Signed, two bytes. -/
  | h
  /-- Unsigned, one byte. -/
  | B
  /-- Signed, one byte. -/
  | b
  /-- A byte string of the given length. -/
  | s (length : Nat)
  deriving DecidableEq

namespace FormatCode

/-- How many bytes a code takes. -/
def size : FormatCode → Nat
  | I => 4
  | H | h => 2
  | B | b => 1
  | s length => length

/-- What a code reads. -/
@[reducible] def Val : FormatCode → Type
  | s _ => List UInt8
  | _ => Int

/-- Read the bytes of one code. -/
def read : (code : FormatCode) → List UInt8 → code.Val
  | I, l | H, l | B, l => (ofBytesLE l : Int)
  | h, l | b, l => (ofBytesLE l : Int).bmod (256 ^ l.length)
  | s _, l => l

end FormatCode

/-! ## Writing -/

/-- The integers of `w` bytes without a sign. -/
def Unsigned (w : Nat) (x : Int) : Prop := 0 ≤ x ∧ x < (256 ^ w : Nat)

/-- The integers of `w` bytes with a sign. -/
def Signed (w : Nat) (x : Int) : Prop :=
  -((256 ^ w : Nat) / 2 : Int) ≤ x ∧ x < ((256 ^ w : Nat) + 1 : Int) / 2

instance (w : Nat) (x : Int) : Decidable (Unsigned w x) := inferInstanceAs (Decidable (_ ∧ _))

instance (w : Nat) (x : Int) : Decidable (Signed w x) := inferInstanceAs (Decidable (_ ∧ _))

/-- The bytes of an unsigned integer in range are read back. -/
theorem Unsigned.read {w : Nat} {x : Int} (h : Unsigned w x) :
    (ofBytesLE (toBytesLE w x.toNat) : Int) = x := by
  obtain ⟨hnonneg, hlt⟩ := h
  have hfits : x.toNat < 256 ^ w := by omega
  rw [ofBytesLE_toBytesLE hfits, Int.toNat_of_nonneg hnonneg]

/-- So are those of a signed one: its bytes are those of its residue. -/
theorem Signed.read {w : Nat} {x : Int} (h : Signed w x) :
    (ofBytesLE (toBytesLE w (x % (256 ^ w : Nat)).toNat) : Int).bmod
      (256 ^ (toBytesLE w (x % (256 ^ w : Nat)).toNat).length) = x := by
  have hpos : 0 < 256 ^ w := Nat.pow_pos (by decide)
  have hresidue : Unsigned w (x % (256 ^ w : Nat)) :=
    ⟨Int.emod_nonneg _ (by omega), Int.emod_lt_of_pos x (by omega)⟩
  rw [toBytesLE_length, hresidue.read, Int.emod_bmod, Int.bmod_eq_of_le h.1 h.2]

/-- What is read from `w` bytes without a sign is in range, and has these bytes. -/
theorem unsigned_read {w : Nat} {l : List UInt8} (hl : l.length = w) :
    Unsigned w (ofBytesLE l) ∧ toBytesLE w (ofBytesLE l : Int).toNat = l := by
  subst hl
  have hlt := ofBytesLE_lt l
  exact ⟨⟨Int.natCast_nonneg _, by omega⟩, by rw [Int.toNat_natCast, toBytesLE_ofBytesLE]⟩

/-- So is what is read with a sign. -/
theorem signed_read {w : Nat} {l : List UInt8} (hl : l.length = w) :
    Signed w ((ofBytesLE l : Int).bmod (256 ^ l.length)) ∧
      toBytesLE w ((ofBytesLE l : Int).bmod (256 ^ l.length) % (256 ^ w : Nat)).toNat = l := by
  subst hl
  have hpos : 0 < 256 ^ l.length := Nat.pow_pos (by decide)
  have hlt := ofBytesLE_lt l
  have hresidue : (ofBytesLE l : Int) % (256 ^ l.length : Nat) = ofBytesLE l :=
    Int.emod_eq_of_lt (by omega) (by omega)
  refine ⟨⟨Int.le_bmod hpos, Int.bmod_lt hpos⟩, ?_⟩
  rw [Int.bmod_emod, hresidue, (unsigned_read rfl).2]

namespace FormatCode

/-- The values that a code writes as they are: the integers of its width and sign, and the byte
strings of its length. -/
def InRange : (code : FormatCode) → code.Val → Prop
  | I, x => Unsigned 4 x
  | H, x => Unsigned 2 x
  | B, x => Unsigned 1 x
  | h, x => Signed 2 x
  | b, x => Signed 1 x
  | s length, l => l.length = length

/-- Write a value as the bytes of one code: an integer out of range is an error, and a byte string
is cut or padded with zeros to the length. -/
def write : (code : FormatCode) → code.Val → Option (List UInt8)
  | I, x => if Unsigned 4 x then some (toBytesLE 4 x.toNat) else none
  | H, x => if Unsigned 2 x then some (toBytesLE 2 x.toNat) else none
  | B, x => if Unsigned 1 x then some (toBytesLE 1 x.toNat) else none
  | h, x => if Signed 2 x then some (toBytesLE 2 (x % (256 ^ 2 : Nat)).toNat) else none
  | b, x => if Signed 1 x then some (toBytesLE 1 (x % (256 ^ 1 : Nat)).toNat) else none
  | s length, l => some ((l ++ List.replicate length 0).take length)

/-- A value in range is written in the code's width, and read back. -/
theorem write_inRange {code : FormatCode} {v : code.Val} (hv : code.InRange v) :
    ∃ l, code.write v = some l ∧ l.length = code.size ∧ code.read l = v := by
  cases code with
  | I => exact ⟨_, if_pos hv, toBytesLE_length 4 _, Unsigned.read hv⟩
  | H => exact ⟨_, if_pos hv, toBytesLE_length 2 _, Unsigned.read hv⟩
  | B => exact ⟨_, if_pos hv, toBytesLE_length 1 _, Unsigned.read hv⟩
  | h => exact ⟨_, if_pos hv, toBytesLE_length 2 _, Signed.read hv⟩
  | b => exact ⟨_, if_pos hv, toBytesLE_length 1 _, Signed.read hv⟩
  | s length =>
    have hlen : List.length v = length := hv
    exact ⟨v, congrArg some (List.take_left' hlen), hlen, rfl⟩

/-- What a code reads from bytes of its width is in range, and written as these bytes. -/
theorem write_read {code : FormatCode} {l : List UInt8} (hl : l.length = code.size) :
    code.InRange (code.read l) ∧ code.write (code.read l) = some l := by
  cases code with
  | I =>
    obtain ⟨hrange, hbytes⟩ := unsigned_read (w := 4) hl
    refine ⟨hrange, ?_⟩
    simp only [write, read, if_pos hrange, hbytes]
  | H =>
    obtain ⟨hrange, hbytes⟩ := unsigned_read (w := 2) hl
    refine ⟨hrange, ?_⟩
    simp only [write, read, if_pos hrange, hbytes]
  | B =>
    obtain ⟨hrange, hbytes⟩ := unsigned_read (w := 1) hl
    refine ⟨hrange, ?_⟩
    simp only [write, read, if_pos hrange, hbytes]
  | h =>
    obtain ⟨hrange, hbytes⟩ := signed_read (w := 2) hl
    refine ⟨hrange, ?_⟩
    simp only [write, read, if_pos hrange, hbytes]
  | b =>
    obtain ⟨hrange, hbytes⟩ := signed_read (w := 1) hl
    refine ⟨hrange, ?_⟩
    simp only [write, read, if_pos hrange, hbytes]
  | s length => exact ⟨hl, congrArg some (List.take_left' hl)⟩

end FormatCode

/-- A format: its codes in order. -/
abbrev Format : Type := List FormatCode

namespace Format

/-- The number of bytes of a format. -/
def calcsize (fmt : Format) : Nat := (fmt.map FormatCode.size).sum

/-- The tuple a format reads. -/
@[reducible] def Vals : Format → Type
  | [] => Unit
  | code :: fmt => code.Val × Vals fmt

/-- Read the codes one after the other. -/
def read : (fmt : Format) → List UInt8 → fmt.Vals
  | [], _ => ()
  | code :: fmt, l => (code.read (l.take code.size), read fmt (l.drop code.size))

/-- Read a buffer of exactly the format's size; any other is an error. -/
def unpack (fmt : Format) (l : List UInt8) : Option fmt.Vals :=
  if l.length = fmt.calcsize then some (fmt.read l) else none

/-- The tuples whose values are all in range. -/
def InRange : (fmt : Format) → fmt.Vals → Prop
  | [], _ => True
  | code :: fmt, (v, vals) => code.InRange v ∧ InRange fmt vals

/-- Write the values one after the other; any that cannot be written is an error. -/
def pack : (fmt : Format) → fmt.Vals → Option (List UInt8)
  | [], _ => some []
  | code :: fmt, (v, vals) => do
    let first ← code.write v
    let rest ← pack fmt vals
    some (first ++ rest)

/-- A buffer of the format's size is read. -/
theorem unpack_of_length {fmt : Format} {l : List UInt8} (h : l.length = fmt.calcsize) :
    fmt.unpack l = some (fmt.read l) := if_pos h

/-- A tuple in range is packed into the format's size, and read back. The induction is on the
format. -/
theorem pack_inRange {fmt : Format} {vals : fmt.Vals} (h : fmt.InRange vals) :
    ∃ l, fmt.pack vals = some l ∧ l.length = fmt.calcsize ∧ fmt.read l = vals := by
  induction fmt with
  | nil => exact ⟨[], rfl, rfl, rfl⟩
  | cons code fmt ih =>
    obtain ⟨v, vals⟩ := vals
    obtain ⟨first, hwrite, hsize, hread⟩ := FormatCode.write_inRange h.1
    obtain ⟨rest, hpack, hrest, hvals⟩ := ih h.2
    refine ⟨first ++ rest, ?_, ?_, ?_⟩
    · unfold pack
      rw [hwrite, hpack]
      rfl
    · rw [List.length_append, hsize, hrest]
      rfl
    · unfold read
      rw [← hsize, List.take_left, List.drop_left, hread, hvals]

/-- What a format reads from a buffer of its size is in range, and packed into that buffer. -/
theorem pack_read {fmt : Format} {l : List UInt8} (h : l.length = fmt.calcsize) :
    fmt.InRange (fmt.read l) ∧ fmt.pack (fmt.read l) = some l := by
  induction fmt generalizing l with
  | nil =>
    obtain rfl : l = [] := List.length_eq_zero_iff.1 h
    exact ⟨trivial, rfl⟩
  | cons code fmt ih =>
    have hsize : l.length = code.size + Format.calcsize fmt := h
    have hfirst : (l.take code.size).length = code.size := by
      rw [List.length_take]
      omega
    have hrest : (l.drop code.size).length = Format.calcsize fmt := by
      rw [List.length_drop]
      omega
    obtain ⟨hv, hwrite⟩ := FormatCode.write_read hfirst
    obtain ⟨hvals, hpack⟩ := ih hrest
    refine ⟨⟨hv, hvals⟩, ?_⟩
    unfold read pack
    rw [hwrite, hpack]
    exact congrArg some (List.take_append_drop _ _)

/-- Write tuples of one format one after the other. -/
def packAll (fmt : Format) : List fmt.Vals → Option (List UInt8)
  | [] => some []
  | vals :: rest => do
    let first ← fmt.pack vals
    let rest ← packAll fmt rest
    some (first ++ rest)

/-- Read `n` tuples of one format, the `i`-th from the `i`-th slice of the format's size. -/
def readAll (fmt : Format) (n : Nat) (l : List UInt8) : List fmt.Vals :=
  (List.range n).map fun i => fmt.read ((l.drop (i * fmt.calcsize)).take fmt.calcsize)

section
variable {fmt : Format}

theorem readAll_succ (n : Nat) (l : List UInt8) :
    fmt.readAll (n + 1) l =
      fmt.read (l.take fmt.calcsize) :: fmt.readAll n (l.drop fmt.calcsize) := by
  unfold readAll
  rw [List.range_succ_eq_map, List.map_cons, List.map_map]
  congr 1
  · rw [Nat.zero_mul, List.drop_zero]
  · refine List.map_congr_left fun i _ => ?_
    rw [Function.comp_apply, List.drop_drop, Nat.succ_mul, Nat.add_comm]

/-- What is read from a buffer of `n` tuples is packed into that buffer. The induction is on `n`. -/
theorem packAll_readAll {n : Nat} {l : List UInt8} (h : l.length = n * fmt.calcsize) :
    fmt.packAll (fmt.readAll n l) = some l := by
  induction n generalizing l with
  | zero =>
    rw [Nat.zero_mul] at h
    rw [List.length_eq_zero_iff.1 h]
    rfl
  | succ n ih =>
    rw [Nat.succ_mul] at h
    have hfirst : (l.take fmt.calcsize).length = fmt.calcsize := by
      rw [List.length_take]
      omega
    have hrest : (l.drop fmt.calcsize).length = n * fmt.calcsize := by
      rw [List.length_drop]
      omega
    rw [readAll_succ]
    unfold packAll
    rw [(pack_read hfirst).2, ih hrest]
    exact congrArg some (List.take_append_drop _ _)

/-- Tuples in range are packed, and read back. The induction is on the tuples. -/
theorem packAll_inRange {rows : List fmt.Vals} (h : ∀ vals ∈ rows, fmt.InRange vals) :
    ∃ l, fmt.packAll rows = some l ∧ l.length = rows.length * fmt.calcsize ∧
      fmt.readAll rows.length l = rows := by
  induction rows with
  | nil => exact ⟨[], rfl, (Nat.zero_mul _).symm, rfl⟩
  | cons vals rows ih =>
    obtain ⟨first, hpack, hsize, hread⟩ := pack_inRange (h vals (.head _))
    obtain ⟨rest, hpackAll, hrest, hreadAll⟩ := ih fun vals' h' => h vals' (.tail _ h')
    refine ⟨first ++ rest, ?_, ?_, ?_⟩
    · unfold packAll
      rw [hpack, hpackAll]
      rfl
    · rw [List.length_append, hsize, hrest, List.length_cons, Nat.succ_mul, Nat.add_comm]
    · rw [List.length_cons, readAll_succ, List.take_left' hsize, List.drop_left' hsize, hread,
        hreadAll]

end

end Format

/-! ## Formats and layouts -/

section
variable {α β : Type}

/-- A code reads what a layout packs, as the value `view` gives. -/
structure FormatCode.Mirrors (code : FormatCode) (A : Layout α) (view : α → code.Val) : Prop where
  size_eq : A.size = code.size
  read_pack : ∀ a, code.read (A.pack a) = view a

/-- A format reads what a layout packs, as the tuple `view` gives. -/
structure Format.Mirrors (fmt : Format) (A : Layout α) (view : α → fmt.Vals) : Prop where
  size_eq : A.size = fmt.calcsize
  read_pack : ∀ a, fmt.read (A.pack a) = view a

theorem FormatCode.mirrors_u8 : FormatCode.B.Mirrors .u8 fun x => (x.toNat : Int) where
  size_eq := rfl
  read_pack x := congrArg Int.ofNat (ofBytesLE_toBytesLE x.toNat_lt)

theorem FormatCode.mirrors_u16 : FormatCode.H.Mirrors .u16 fun x => (x.toNat : Int) where
  size_eq := rfl
  read_pack x := congrArg Int.ofNat (ofBytesLE_toBytesLE x.toNat_lt)

theorem FormatCode.mirrors_u32 : FormatCode.I.Mirrors .u32 fun x => (x.toNat : Int) where
  size_eq := rfl
  read_pack x := congrArg Int.ofNat (ofBytesLE_toBytesLE x.toNat_lt)

theorem FormatCode.mirrors_i8 : FormatCode.b.Mirrors .i8 fun x => x.toInt where
  size_eq := rfl
  read_pack x := by
    show (ofBytesLE (toBytesLE 1 x.toUInt8.toNat) : Int).bmod
      (256 ^ (toBytesLE 1 x.toUInt8.toNat).length) = _
    rw [ofBytesLE_toBytesLE x.toUInt8.toNat_lt, toBytesLE_length]
    exact x.toBitVec.toInt_eq_toNat_bmod.symm

theorem FormatCode.mirrors_i16 : FormatCode.h.Mirrors .i16 fun x => x.toInt where
  size_eq := rfl
  read_pack x := by
    show (ofBytesLE (toBytesLE 2 x.toUInt16.toNat) : Int).bmod
      (256 ^ (toBytesLE 2 x.toUInt16.toNat).length) = _
    rw [ofBytesLE_toBytesLE x.toUInt16.toNat_lt, toBytesLE_length]
    exact x.toBitVec.toInt_eq_toNat_bmod.symm

theorem FormatCode.mirrors_bytes (n : Nat) : (FormatCode.s n).Mirrors (.bytes n) Subtype.val where
  size_eq := rfl
  read_pack _ := rfl

/-- A code that reads a layout reads it through a bijection as well. -/
theorem FormatCode.Mirrors.iso {code : FormatCode} {A : Layout α} {view : α → code.Val}
    (h : code.Mirrors A view) {mk : α → β} {fields : β → α} (h1 : ∀ b, mk (fields b) = b)
    (h2 : ∀ a, fields (mk a) = a) :
    code.Mirrors (A.iso mk fields h1 h2) fun b => view (fields b) where
  size_eq := h.size_eq
  read_pack b := h.read_pack (fields b)

/-- The last code of a format reads the last layout of a sequence. -/
theorem Format.Mirrors.last {code : FormatCode} {A : Layout α} {view : α → code.Val}
    (h : code.Mirrors A view) : Format.Mirrors [code] A fun a => (view a, ()) where
  size_eq := by simp [h.size_eq, Format.calcsize]
  read_pack a := by
    have hlen : (A.pack a).length = code.size := by rw [A.length_pack, h.size_eq]
    simp only [Format.read]
    rw [← hlen, List.take_length, h.read_pack]

/-- A code in front of a format reads a layout in front of another. -/
theorem Format.Mirrors.cons {code : FormatCode} {fmt : Format} {A : Layout α} {B : Layout β}
    {viewA : α → code.Val} {viewB : β → fmt.Vals} (hA : code.Mirrors A viewA)
    (hB : fmt.Mirrors B viewB) :
    Format.Mirrors (code :: fmt) (A.seq B) fun p => (viewA p.1, viewB p.2) where
  size_eq := by
    show A.size + B.size = _
    rw [hA.size_eq, hB.size_eq]
    simp [Format.calcsize]
  read_pack p := by
    have hlen : (A.pack p.1).length = code.size := by rw [A.length_pack, hA.size_eq]
    show (code.read ((A.pack p.1 ++ B.pack p.2).take code.size),
      fmt.read ((A.pack p.1 ++ B.pack p.2).drop code.size)) = _
    rw [List.take_left' hlen, List.drop_left' hlen, hA.read_pack, hB.read_pack]

/-- A format that reads a layout reads it through a bijection as well. -/
theorem Format.Mirrors.iso {fmt : Format} {A : Layout α} {view : α → fmt.Vals}
    (h : fmt.Mirrors A view) {mk : α → β} {fields : β → α} (h1 : ∀ b, mk (fields b) = b)
    (h2 : ∀ a, fields (mk a) = a) :
    fmt.Mirrors (A.iso mk fields h1 h2) fun b => view (fields b) where
  size_eq := h.size_eq
  read_pack b := h.read_pack (fields b)

end

end Concentrator
