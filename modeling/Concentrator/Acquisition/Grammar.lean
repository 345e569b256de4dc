import Concentrator.Acquisition.Frame

/-!
# The grammar the parser accepts

Advertising data as AD structures: a length byte that counts what follows it, a type byte, and the
value. The walk of `parse_custom_frame()` steps from structure to structure (`parseFrom_skip`) and
decides at the first one of the manufacturer specific type (`parseFrom_element`); it accepts nothing
else (`parseFrom_some`).
-/

namespace Concentrator.Acquisition

/-- A complete AD structure. -/
structure AdStructure where
  type : UInt8
  value : List UInt8
  fits : value.length + 1 < 256

/-- An AD structure as the bytes of an advertisement. -/
def AdStructure.bytes (s : AdStructure) : List UInt8 :=
  UInt8.ofNat (s.value.length + 1) :: s.type :: s.value

/-- The bytes of AD structures one after the other. -/
def adBytes (ss : List AdStructure) : List UInt8 := ss.flatMap AdStructure.bytes

/-- The first manufacturer specific element of the data is complete and has the given value. -/
def ManufacturerValue (data value : List UInt8) : Prop :=
  ∃ (pre : List AdStructure) (element : AdStructure) (tail : List UInt8),
    (∀ s ∈ pre, s.type ≠ AD_TYPE_MANUFACTURER_SPECIFIC) ∧
    element.type = AD_TYPE_MANUFACTURER_SPECIFIC ∧ element.value = value ∧
    data = adBytes pre ++ (element.bytes ++ tail)

/-- What the parser makes of the value of the manufacturer specific element. -/
def frameOfValue (cfg : Config) (value : List UInt8) : Option ManufacturerFrame :=
  if value.length = ManufacturerFrame.layout.size ∧
      (ManufacturerFrame.layout.unpack value).companyId = cfg.expectedCompanyId then
    some (ManufacturerFrame.layout.unpack value)
  else none

section
variable {cfg : Config}

/-- The length byte of a structure counts the type and the value, and is not zero. -/
theorem AdStructure.length_toNat (s : AdStructure) :
    (UInt8.ofNat (s.value.length + 1)).toNat = s.value.length + 1 :=
  UInt8.toNat_ofNat_of_lt s.fits

theorem AdStructure.length_ne_zero (s : AdStructure) : UInt8.ofNat (s.value.length + 1) ≠ 0 := by
  intro h
  have hzero := congrArg UInt8.toNat h
  rw [s.length_toNat] at hzero
  cases hzero

theorem AdStructure.length_bytes (s : AdStructure) : s.bytes.length = 1 + (s.value.length + 1) := by
  simp only [bytes, List.length_cons]
  omega

/-- One step of the walk: it decides at a manufacturer specific structure and passes any other. -/
theorem parseFrom_structure (done tail : List UInt8) (s : AdStructure) :
    parseFrom cfg (done ++ (s.bytes ++ tail)) done.length =
      if s.type = AD_TYPE_MANUFACTURER_SPECIFIC then frameOfValue cfg s.value
      else parseFrom cfg (done ++ (s.bytes ++ tail)) (done.length + s.bytes.length) := by
  have hlen := s.length_toNat
  have htotal : (done ++ (s.bytes ++ tail)).length =
      done.length + (1 + (s.value.length + 1) + tail.length) := by
    rw [List.length_append, List.length_append, s.length_bytes]
  have hfirst : ∀ h : done.length < (done ++ (s.bytes ++ tail)).length,
      (done ++ (s.bytes ++ tail))[done.length] = UInt8.ofNat (s.value.length + 1) := by
    intro h
    simp [AdStructure.bytes]
  have htype : ∀ h : done.length + 1 < (done ++ (s.bytes ++ tail)).length,
      (done ++ (s.bytes ++ tail))[done.length + 1] = s.type := by
    intro h
    simp [AdStructure.bytes, List.getElem_append_right]
  have hvalue : (UInt8.ofNat (s.value.length + 1) - 1).toNat = s.value.length := by
    have hone : (1 : UInt8) ≤ UInt8.ofNat (s.value.length + 1) := by
      rw [UInt8.le_iff_toNat_le, hlen]
      exact Nat.le_add_left 1 _
    rw [UInt8.toNat_sub_of_le _ _ hone, hlen]
    rfl
  have hdrop : (done ++ (s.bytes ++ tail)).drop (done.length + 2) = s.value ++ tail := by
    rw [← List.drop_drop, List.drop_left]
    rfl
  rw [parseFrom, dif_pos (by omega)]
  simp only [hfirst, hlen, htype, hvalue, hdrop]
  rw [if_neg s.length_ne_zero, if_neg (by omega), s.length_bytes, frameOfValue]
  by_cases hsize : s.value.length = ManufacturerFrame.layout.size
  · have htake : (s.value ++ tail).take ManufacturerFrame.layout.size = s.value := by
      rw [← hsize, List.take_left]
    simp only [hsize, htake, ne_eq, not_true_eq_false, if_false, true_and]
  · simp only [hsize, ne_eq, not_false_eq_true, if_true, false_and, if_false]

/-- The parser decides by the value of the first manufacturer specific element. -/
theorem parseFrom_value (done : List UInt8) {data value : List UInt8}
    (h : ManufacturerValue data value) :
    parseFrom cfg (done ++ data) done.length = frameOfValue cfg value := by
  obtain ⟨pre, element, tail, hpre, htype, rfl, rfl⟩ := h
  induction pre generalizing done with
  | nil =>
    show parseFrom cfg (done ++ (element.bytes ++ tail)) done.length = _
    rw [parseFrom_structure, if_pos htype]
  | cons s pre ih =>
    have hsplit : adBytes (s :: pre) ++ (element.bytes ++ tail) =
        s.bytes ++ (adBytes pre ++ (element.bytes ++ tail)) := by
      rw [adBytes, List.flatMap_cons, List.append_assoc]
      rfl
    rw [hsplit, parseFrom_structure, if_neg (hpre s (.head _)), ← List.append_assoc,
      ← List.length_append]
    exact ih _ fun s' hs' => hpre s' (.tail _ hs')

/-- The walk accepts only where a complete structure stands at its offset. -/
theorem parseFrom_reads {data : List UInt8} {offset : Nat} {frame : ManufacturerFrame}
    (h : parseFrom cfg data offset = some frame) :
    ∃ (s : AdStructure) (tail : List UInt8), data.drop offset = s.bytes ++ tail := by
  unfold parseFrom at h
  split at h
  · next hlt =>
    simp only at h
    split at h
    · cases h
    · next hne =>
      split at h
      · cases h
      · next hfits =>
        have hpos : data[offset].toNat ≠ 0 := fun hz => hne (UInt8.toNat_inj.1 hz)
        have hbyte := data[offset].toNat_lt
        have hvalue : ((data.drop (offset + 2)).take (data[offset].toNat - 1)).length + 1 =
            data[offset].toNat := by
          rw [List.length_take, List.length_drop]
          omega
        refine ⟨⟨data[offset + 1], (data.drop (offset + 2)).take (data[offset].toNat - 1),
          by omega⟩, (data.drop (offset + 2)).drop (data[offset].toNat - 1), ?_⟩
        simp only [AdStructure.bytes, hvalue, UInt8.ofNat_toNat, List.cons_append,
          List.take_append_drop]
        rw [List.drop_eq_getElem_cons (by omega), List.drop_eq_getElem_cons hlt]
  · cases h

/-- What the parser accepts has a first manufacturer specific element that it takes: the induction
is on the data left to walk, of which each step passes one structure. -/
theorem parseFrom_some (done : List UInt8) {data : List UInt8} {frame : ManufacturerFrame}
    (h : parseFrom cfg (done ++ data) done.length = some frame) :
    ∃ value, ManufacturerValue data value ∧ frameOfValue cfg value = some frame := by
  induction hn : data.length using Nat.strongRecOn generalizing done data with
  | ind n ih =>
  obtain ⟨s, tail, hdrop⟩ := parseFrom_reads h
  rw [List.drop_left] at hdrop
  subst hdrop hn
  rw [parseFrom_structure] at h
  split at h
  · next htype =>
    exact ⟨s.value, ⟨[], s, tail, fun _ hs' => (List.not_mem_nil hs').elim, htype, rfl, rfl⟩, h⟩
  · next htype =>
    rw [← List.append_assoc, ← List.length_append] at h
    have hless : tail.length < (s.bytes ++ tail).length := by
      rw [List.length_append, s.length_bytes]
      omega
    obtain ⟨value, ⟨pre, element, tail', hpre, helem, hvalue, rfl⟩, hframe⟩ :=
      ih _ hless (done ++ s.bytes) h rfl
    refine ⟨value, ⟨s :: pre, element, tail', fun s' hs' => ?_, helem, hvalue, ?_⟩, hframe⟩
    · cases hs' with
      | head => exact htype
      | tail _ hs' => exact hpre s' hs'
    · rw [adBytes, adBytes, List.flatMap_cons, List.append_assoc]

/-- **What the parser accepts.** A report is a frame of ours exactly when its first manufacturer
specific element is complete and its value is a frame with the expected company identifier. -/
theorem parseCustomFrame_some {report : AdvReport} {frame : ManufacturerFrame} :
    parseCustomFrame cfg report = some frame ↔
      ∃ value, ManufacturerValue report.data value ∧ frameOfValue cfg value = some frame := by
  constructor
  · intro h
    exact parseFrom_some [] h
  · rintro ⟨value, hvalue, hframe⟩
    rw [← hframe]
    exact parseFrom_value [] hvalue

end

end Concentrator.Acquisition
