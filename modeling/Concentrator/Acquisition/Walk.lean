import Concentrator.Acquisition.Grammar
import Concentrator.Lib.Monitor

/-!
# The reads of the parser

`parse_custom_frame()` once more, as a program that reads `report.data` byte by byte. It reads no
byte at or after `data_length` (`obeys_walk`), and it computes what the parser computes on the valid
bytes (`eval_walk`). So what the grammar says of the parser it says of the code on the whole buffer,
whatever the bytes after `data_length` are (`parseCustomFrame_grammar`).
-/

namespace Concentrator.Acquisition

/-- The reads of `report.data[i]`. -/
abbrev ByteSig : Sig := ⟨Nat, fun _ => UInt8⟩

/-- Read one byte. -/
abbrev readByte (i : Nat) : Prog ByteSig UInt8 := Prog.op (S := ByteSig) i

/-- `memcpy()` of `n` bytes from `data[start]` on. -/
def readBytes : (n start : Nat) → Prog ByteSig (List UInt8)
  | 0, _ => pure []
  | n + 1, start => do
    let byte ← readByte start
    let bytes ← readBytes n (start + 1)
    pure (byte :: bytes)

/-- The walk over the AD structures from `offset` on, read by read. Reference:
`svc/acquisition/subsystem.cpp:100-143`. -/
def walk (cfg : Config) (dataLength offset : Nat) : Prog ByteSig (Option ManufacturerFrame) :=
  if h : offset + 1 < dataLength then do
    let elementLength ← readByte offset
    if elementLength = 0 then pure none
    else if offset + 1 + elementLength.toNat > dataLength then pure none
    else
      let elementType ← readByte (offset + 1)
      if elementType = AD_TYPE_MANUFACTURER_SPECIFIC then
        let valueLength := elementLength - 1
        if valueLength.toNat ≠ ManufacturerFrame.layout.size then pure none
        else
          let bytes ← readBytes ManufacturerFrame.layout.size (offset + 2)
          let frame := ManufacturerFrame.layout.unpack bytes
          if frame.companyId = cfg.expectedCompanyId then pure (some frame) else pure none
      else walk cfg dataLength (offset + (1 + elementLength.toNat))
  else pure none
termination_by dataLength - offset

/-- The monitor that allows the reads below `n`. -/
def readsBelow (n : Nat) : Monitor ByteSig Unit where
  allows _ i := i < n
  next _ _ _ := ()

section
variable {cfg : Config} {n : Nat} {α : Type}

/-- A read of a valid byte. -/
theorem obeys_readByte {i : Nat} {k : UInt8 → Prog ByteSig α} (hi : i < n)
    (hk : ∀ byte, (k byte).Obeys (readsBelow n) ()) :
    (readByte i >>= k).Obeys (readsBelow n) () :=
  ⟨hi, hk⟩

/-- The induction is on the number of bytes. -/
theorem obeys_readBytes {count start : Nat} (h : start + count ≤ n) :
    (readBytes count start).Obeys (readsBelow n) () := by
  induction count generalizing start with
  | zero => trivial
  | succ count ih =>
    refine obeys_readByte (by omega) fun byte => ?_
    exact Prog.Obeys.bind (ih (by omega)) fun _ _ => trivial

/-- An element whose value has the size of a frame has the length of one. -/
theorem elementLength_toNat {elementLength : UInt8} (hnonzero : elementLength ≠ 0)
    (hsize : (elementLength - 1).toNat = ManufacturerFrame.layout.size) :
    elementLength.toNat = ManufacturerFrame.layout.size + 1 := by
  have hpos : elementLength.toNat ≠ 0 := fun hz => hnonzero (UInt8.toNat_inj.1 hz)
  have hone : (1 : UInt8) ≤ elementLength := by
    rw [UInt8.le_iff_toNat_le]
    exact Nat.pos_of_ne_zero hpos
  have hsub := UInt8.toNat_sub_of_le _ _ hone
  rw [hsize] at hsub
  change _ = elementLength.toNat - 1 at hsub
  omega

/-- The walk reads valid bytes only. The induction is on the bytes left: an element that claims more
of them than there are ends the walk before its type is read. -/
theorem obeys_walk (offset : Nat) : (walk cfg n offset).Obeys (readsBelow n) () := by
  induction hn : n - offset using Nat.strongRecOn generalizing offset with
  | ind m ih =>
  subst hn
  unfold walk
  split
  · next hlt =>
    refine obeys_readByte (by omega) fun elementLength => ?_
    split
    · trivial
    split
    · trivial
    next hnonzero hfits =>
    refine obeys_readByte hlt fun elementType => ?_
    split
    · dsimp only
      split
      · trivial
      next hsize =>
      have hvalue := elementLength_toNat hnonzero (not_not.1 hsize)
      refine Prog.Obeys.bind (obeys_readBytes (by omega)) fun bytes _ => ?_
      split <;> trivial
    · exact ih _ (by omega) _ rfl
  · trivial

variable {data : List UInt8} {memory : Nat → UInt8}

theorem eval_readByte (i : Nat) (k : UInt8 → Prog ByteSig α) :
    (readByte i >>= k).eval memory = (k (memory i)).eval memory := rfl

/-- Reading from a memory that begins with the data gives a slice of the data. -/
theorem eval_readBytes (hmemory : ∀ i (h : i < data.length), memory i = data[i])
    {count start : Nat} (h : start + count ≤ data.length) :
    (readBytes count start).eval memory = (data.drop start).take count := by
  induction count generalizing start with
  | zero => rfl
  | succ count ih =>
    have hlt : start < data.length := by omega
    unfold readBytes
    rw [eval_readByte, hmemory start hlt, List.drop_eq_getElem_cons hlt, List.take_succ_cons,
      ← ih (by omega)]
    exact Prog.eval_bind ..

/-- The walk computes what the parser computes on the valid bytes. -/
theorem eval_walk (hmemory : ∀ i (h : i < data.length), memory i = data[i]) (offset : Nat) :
    (walk cfg data.length offset).eval memory = parseFrom cfg data offset := by
  induction hn : data.length - offset using Nat.strongRecOn generalizing offset with
  | ind m ih =>
  subst hn
  unfold walk parseFrom
  split
  · next hlt =>
    rw [eval_readByte, hmemory offset (by omega)]
    dsimp only
    by_cases hzero : data[offset] = 0
    · rw [if_pos hzero, if_pos hzero]
      rfl
    rw [if_neg hzero, if_neg hzero]
    by_cases hlong : offset + 1 + data[offset].toNat > data.length
    · rw [if_pos hlong, if_pos hlong]
      rfl
    rw [if_neg hlong, if_neg hlong, eval_readByte, hmemory (offset + 1) hlt]
    by_cases htype : data[offset + 1] = AD_TYPE_MANUFACTURER_SPECIFIC
    · rw [if_pos htype, if_pos htype]
      by_cases hsize : (data[offset] - 1).toNat ≠ ManufacturerFrame.layout.size
      · rw [if_pos hsize, if_pos hsize]
        rfl
      have hvalue := elementLength_toNat hzero (not_not.1 hsize)
      rw [if_neg hsize, if_neg hsize]
      refine (Prog.eval_bind ..).trans ?_
      rw [eval_readBytes hmemory (by omega)]
      split <;> rfl
    · rw [if_neg htype, if_neg htype]
      exact ih _ (by omega) _ rfl
  · rfl

end

/-! ## What the code accepts -/

section
variable {cfg : Config}

/-- A complete AD structure that is a frame of ours: manufacturer specific, with a value of 19 bytes
that begins with the expected company identifier, low byte first. -/
structure IsFrame (cfg : Config) (element : AdStructure) : Prop where
  type : element.type = AD_TYPE_MANUFACTURER_SPECIFIC
  size : element.value.length = 19
  companyId : element.value.take 2 = Layout.u16.pack cfg.expectedCompanyId

/-- What the parser makes of a value: the frame whose bytes it is, if it is of the size of one and
begins with the company identifier. -/
theorem frameOfValue_some {value : List UInt8} {frame : ManufacturerFrame} :
    frameOfValue cfg value = some frame ↔
      value.length = 19 ∧ value.take 2 = Layout.u16.pack cfg.expectedCompanyId ∧
        ManufacturerFrame.layout.pack frame = value := by
  have hcompany (hsize : value.length = 19) :
      (ManufacturerFrame.layout.unpack value).companyId = cfg.expectedCompanyId ↔
        value.take 2 = Layout.u16.pack cfg.expectedCompanyId := by
    show Layout.u16.unpack (value.take 2) = _ ↔ _
    have htake : (value.take 2).length = 2 := List.length_take_of_le (by omega)
    constructor
    · intro h
      rw [← h, Layout.u16.pack_unpack _ htake]
    · intro h
      rw [h, Layout.u16.unpack_pack]
  unfold frameOfValue
  constructor
  · intro h
    split at h
    · next hvalue =>
      cases h
      exact ⟨hvalue.1, (hcompany hvalue.1).1 hvalue.2,
        ManufacturerFrame.layout.pack_unpack _ hvalue.1⟩
    · cases h
  · rintro ⟨hsize, htake, rfl⟩
    rw [if_pos ⟨hsize, (hcompany hsize).2 htake⟩, ManufacturerFrame.layout.unpack_pack]

/-- The manufacturer specific structure in which an endpoint sends a payload. Reference:
`svc/acquisition/manufacturer_data_protocol.hpp:89 ManufacturerFrame`. -/
def endpointElement (cfg : Config) (payload : SensorPayload) : AdStructure where
  type := AD_TYPE_MANUFACTURER_SPECIFIC
  value := ManufacturerFrame.layout.pack ⟨cfg.expectedCompanyId, payload⟩
  fits := by
    rw [ManufacturerFrame.layout.length_pack, layout_sizes.2]
    decide

/-- **The parser accepts exactly its grammar.** It reads no byte at or after `data_length`, and none
of those bytes plays a part. It accepts a report exactly if complete structures of other types, or
none, come first and a frame of ours follows, and then the frame has the 19 bytes of that
structure's value. So a payload is parsed from its encoding, whatever structures of other types come
before it and whatever follows. -/
theorem parseCustomFrame_grammar (cfg : Config) :
    (∀ report : AdvReport,
      (walk cfg report.data.length 0).Obeys (readsBelow report.data.length) () ∧
      ∀ memory : Nat → UInt8, (∀ i (h : i < report.data.length), memory i = report.data[i]) →
        (walk cfg report.data.length 0).eval memory = parseCustomFrame cfg report) ∧
    (∀ (report : AdvReport) (frame : ManufacturerFrame), parseCustomFrame cfg report = some frame ↔
      ∃ (pre : List AdStructure) (element : AdStructure) (tail : List UInt8),
        (∀ s ∈ pre, s.type ≠ AD_TYPE_MANUFACTURER_SPECIFIC) ∧ IsFrame cfg element ∧
        report.data = adBytes pre ++ (element.bytes ++ tail) ∧
        ManufacturerFrame.layout.pack frame = element.value) ∧
    ∀ (payload : SensorPayload) (pre : List AdStructure) (tail : List UInt8) (report : AdvReport),
      (∀ s ∈ pre, s.type ≠ AD_TYPE_MANUFACTURER_SPECIFIC) →
      report.data = adBytes pre ++ ((endpointElement cfg payload).bytes ++ tail) →
      parseCustomFrame cfg report = some ⟨cfg.expectedCompanyId, payload⟩ := by
  refine ⟨fun report => ⟨obeys_walk 0, fun memory hmemory => eval_walk hmemory 0⟩,
    fun report frame => ?_, fun payload pre tail report hpre hdata => ?_⟩
  · rw [parseCustomFrame_some]
    constructor
    · rintro ⟨value, ⟨pre, element, tail, hpre, htype, rfl, hdata⟩, hframe⟩
      obtain ⟨hsize, hcompany, hpack⟩ := frameOfValue_some.1 hframe
      exact ⟨pre, element, tail, hpre, ⟨htype, hsize, hcompany⟩, hdata, hpack⟩
    · rintro ⟨pre, element, tail, hpre, helement, hdata, hpack⟩
      exact ⟨element.value, ⟨pre, element, tail, hpre, helement.type, rfl, hdata⟩,
        frameOfValue_some.2 ⟨helement.size, helement.companyId, hpack⟩⟩
  · refine parseCustomFrame_some.2
      ⟨_, ⟨pre, endpointElement cfg payload, tail, hpre, rfl, rfl, hdata⟩, ?_⟩
    refine frameOfValue_some.2 ⟨ManufacturerFrame.layout.length_pack _, ?_, rfl⟩
    exact List.take_left' (Layout.u16.length_pack _)

end

end Concentrator.Acquisition
