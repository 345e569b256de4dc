import Concentrator.DeviceTable.Steps

/-!
# The table without what was reported

Which slot an upsert writes, and what it writes there, depends on everything in the table but the
`reported_seq` of its entries. So the table with these wiped (`Table.unreported`) goes through the
same upserts (`unreported_upsert`), and `mark_reported()` leaves it alone
(`unreported_markReported`).
-/

namespace Concentrator

variable {ρ : Type}

/-- An entry without the sequence that was reported. -/
def Entry.unreported (e : Entry ρ) : Entry ρ := { e with reportedSeq := 0 }

/-- A table without the sequences that were reported. -/
def Table.unreported (t : Table ρ) : Table ρ :=
  { t with entries := t.entries.map Entry.unreported }

/-- Two slots agree on everything but `reported_seq`. -/
structure Entry.AgreesWith (e e' : Entry ρ) : Prop where
  inUse : e.inUse = e'.inUse
  address : e.address = e'.address
  rssi : e.rssi = e'.rssi
  reading : e.reading = e'.reading
  lastSeenUptimeS : e.lastSeenUptimeS = e'.lastSeenUptimeS
  updateSeq : e.updateSeq = e'.updateSeq

/-- Two tables agree, slot by slot, on everything but `reported_seq`. -/
structure Table.AgreesWith (t t' : Table ρ) : Prop where
  entries : List.Forall₂ Entry.AgreesWith t.entries t'.entries
  evictedCount : t.evictedCount = t'.evictedCount

theorem Entry.agreesWith_of_unreported {e e' : Entry ρ} (h : e.unreported = e'.unreported) :
    e.AgreesWith e' := by
  cases e
  cases e'
  cases h
  exact ⟨rfl, rfl, rfl, rfl, rfl, rfl⟩

namespace Table

/-- Tables that are the same but for what was reported agree. The induction is on the slots. -/
theorem agreesWith_of_unreported {t t' : Table ρ} (h : t.unreported = t'.unreported) :
    t.AgreesWith t' := by
  have hcount : t.unreported.evictedCount = t'.unreported.evictedCount := by rw [h]
  refine ⟨?_, hcount⟩
  have hentries : t.entries.map Entry.unreported = t'.entries.map Entry.unreported :=
    congrArg Table.entries h
  generalize t.entries = es at hentries
  generalize t'.entries = es' at hentries
  induction es generalizing es' with
  | nil =>
    cases es' with
    | nil => exact .nil
    | cons _ _ => cases hentries
  | cons e es ih =>
    cases es' with
    | nil => cases hentries
    | cons e' es' =>
      obtain ⟨he, hes⟩ := List.cons.inj hentries
      exact .cons (Entry.agreesWith_of_unreported he) (ih es' hes)

/-! ## The writers -/

@[simp] theorem findEntry_unreported (t : Table ρ) (address : Address) :
    t.unreported.findEntry address = t.findEntry address :=
  List.findIdx?_map

/-- The induction is on what is left to scan. -/
theorem oldestFrom_unreported (es : List (Entry ρ)) (index oldest : Nat) (seen : UInt32) :
    oldestFrom (es.map Entry.unreported) index oldest seen = oldestFrom es index oldest seen := by
  induction es generalizing index oldest seen with
  | nil => rfl
  | cons e es ih =>
    have hseen : e.unreported.lastSeenUptimeS = e.lastSeenUptimeS := rfl
    simp only [List.map_cons, oldestFrom, hseen, ih]

/-- The slot for a new device is the same. -/
theorem claimSlot_unreported (t : Table ρ) :
    t.unreported.claimSlot = (t.claimSlot.1, t.claimSlot.2.unreported) := by
  have hfree : (t.unreported.entries.findIdx? fun e => !e.inUse) =
      t.entries.findIdx? fun e => !e.inUse := List.findIdx?_map
  unfold claimSlot
  rw [hfree]
  split
  · rfl
  · obtain ⟨entries, evictedCount⟩ := t
    cases entries with
    | nil => rfl
    | cons first rest =>
      have hscan := oldestFrom_unreported (first :: rest) 0 0 first.lastSeenUptimeS
      exact Prod.ext hscan rfl

theorem record_unreported (rssi : Int8) (reading : ρ) (nowS : UInt32) (e : Entry ρ) :
    (record rssi reading nowS e).unreported = record rssi reading nowS e.unreported := rfl

/-- An upsert does the same to the table without what was reported. -/
theorem unreported_upsert [Inhabited ρ] (t : Table ρ) (address : Address) (rssi : Int8)
    (reading : ρ) (nowS : UInt32) :
    (t.upsert address rssi reading nowS).unreported =
      t.unreported.upsert address rssi reading nowS := by
  unfold upsert
  rw [findEntry_unreported, claimSlot_unreported]
  split
  · next i hi =>
    obtain ⟨e, he, -⟩ := findEntry_some hi
    have he' : (t.entries.map Entry.unreported)[i]? = some e.unreported := by
      rw [List.getElem?_map, he]
      rfl
    unfold unreported
    rw [modify_eq_set_of_getElem? he, modify_eq_set_of_getElem? he', List.map_set,
      record_unreported]
  · unfold unreported
    rw [List.map_set, record_unreported]
    rfl

/-- What was reported is all that `mark_reported()` changes. -/
theorem unreported_markReported (t : Table ρ) (address : Address) (updateSeq : UInt16) :
    (t.markReported address updateSeq).unreported = t.unreported := by
  rcases markReported_cases t address updateSeq with ⟨i, e, -, he, -, -, h⟩ | ⟨h, -⟩
  · obtain ⟨hi, hget⟩ := List.getElem?_eq_some_iff.1 he
    have hwritten : Entry.unreported { e with reportedSeq := updateSeq } = e.unreported := rfl
    rw [h]
    unfold unreported
    rw [List.map_set, hwritten, ← hget, ← List.map_set, List.set_getElem_self]
  · rw [h]

end Table

end Concentrator
