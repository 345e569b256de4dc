import Concentrator.DeviceTable.Steps
import Mathlib.Data.List.Dedup
import Mathlib.Data.Finset.Card

/-!
# The device table is a least-recently-seen cache of last readings

The calls made since `initialize()` are a list, the latest first. What the table holds is a function
of that list (`History.Tracks`): an entry is the last upsert of its address, and an address that was
upserted and is in no entry was evicted, from a full table, when every other entry had been seen at
least as recently. Each operation keeps this when the uptime does not decrease; `after_isCache`
reads the cache's contract off it.
-/

namespace Concentrator

variable {ρ : Type}

/-- One `upsert()` call, with the uptime it read. Reference: `svc/device_table/subsystem.cpp:124
upsert`. -/
structure Upsert (ρ : Type) where
  address : Address
  rssi : Int8
  reading : ρ
  nowS : UInt32

/-- One call into the table. Reference: `svc/device_table/subsystem.hpp:94-141`. -/
inductive Call (ρ : Type) where
  | upsert (u : Upsert ρ)
  | snapshot (nowS : UInt32) (maxEntries : Nat)
  | markReported (address : Address) (updateSeq : UInt16)

namespace History

/-- The `upsert()` calls among the calls, the latest first. -/
def upserts : List (Call ρ) → List (Upsert ρ)
  | [] => []
  | .upsert u :: calls => u :: upserts calls
  | _ :: calls => upserts calls

/-- The most recent upsert of an address. -/
def lastUpsert (calls : List (Call ρ)) (address : Address) : Option (Upsert ρ) :=
  (upserts calls).find? fun u => u.address = address

/-- The distinct addresses ever upserted. -/
def addresses (calls : List (Call ρ)) : List Address := ((upserts calls).map (·.address)).dedup

/-- The uptime never decreases from one upsert to a later one. -/
def Nondecreasing (calls : List (Call ρ)) : Prop :=
  (upserts calls).Pairwise fun later earlier => earlier.nowS ≤ later.nowS

/-! ## The history invariant -/

/-- An entry is what an upsert wrote. -/
def Written (e : Entry ρ) (u : Upsert ρ) : Prop :=
  e.rssi = u.rssi ∧ e.reading = u.reading ∧ e.lastSeenUptimeS = u.nowS

/-- What the entries of a table say about the calls. -/
structure Tracks (calls : List (Call ρ)) (es : List (Entry ρ)) : Prop where
  /-- An entry in use is the last upsert of its address. -/
  latest : ∀ e ∈ es, e.inUse = true → ∃ u, lastUpsert calls e.address = some u ∧ Written e u
  /-- An address that was upserted and is in no entry was last upserted no later than any entry, and
  every slot is in use. -/
  gone : ∀ address u, lastUpsert calls address = some u → (∀ e ∈ es, ¬ e.Holds address) →
    ∀ e ∈ es, e.inUse = true ∧ u.nowS ≤ e.lastSeenUptimeS

theorem lastUpsert_cons_self (u : Upsert ρ) (calls : List (Call ρ)) :
    lastUpsert (.upsert u :: calls) u.address = some u := by
  simp [lastUpsert, upserts]

theorem lastUpsert_cons_ne {u : Upsert ρ} {address : Address} (h : u.address ≠ address)
    (calls : List (Call ρ)) :
    lastUpsert (.upsert u :: calls) address = lastUpsert calls address := by
  simp [lastUpsert, upserts, h]

/-- The last upsert of an address is not later than the call that follows. -/
theorem Nondecreasing.last_le {u u' : Upsert ρ} {calls : List (Call ρ)} {address : Address}
    (h : Nondecreasing (.upsert u :: calls)) (hu' : lastUpsert calls address = some u') :
    u'.nowS ≤ u.nowS :=
  (List.pairwise_cons.1 h).1 u' (List.mem_of_find?_eq_some hu')

/-- A call that is no upsert leaves the history of the upserts as it is. -/
theorem Tracks.of_upserts_eq {calls calls' : List (Call ρ)} {es : List (Entry ρ)}
    (h : Tracks calls es) (heq : upserts calls' = upserts calls) : Tracks calls' es := by
  have hlast (address : Address) : lastUpsert calls' address = lastUpsert calls address := by
    unfold lastUpsert
    rw [heq]
  exact ⟨fun e he hu => hlast e.address ▸ h.latest e he hu,
    fun address u hu => h.gone address u (hlast address ▸ hu)⟩

/-! ## The table after a list of calls -/

variable [Inhabited ρ] {cfg : Config}

/-- The table after the calls, the latest first. `snapshot()` copies entries out and changes
nothing. -/
def after (cfg : Config) : List (Call ρ) → DeviceTable ρ cfg
  | [] => .initial
  | .upsert u :: calls => (after cfg calls).upsert u.address u.rssi u.reading u.nowS
  | .snapshot _ _ :: calls => after cfg calls
  | .markReported address updateSeq :: calls => (after cfg calls).markReported address updateSeq

/-- The number of upserts of an absent address that found the table full. -/
def evictions (cfg : Config) : List (Call ρ) → Nat
  | [] => 0
  | .upsert u :: calls =>
    if ∀ e ∈ (after cfg calls).entries, e.inUse = true ∧ ¬ e.Holds u.address then
      evictions cfg calls + 1
    else evictions cfg calls
  | _ :: calls => evictions cfg calls

theorem tracks_initial : Tracks ([] : List (Call ρ)) (after cfg []).entries where
  latest e he hu := by
    rw [List.eq_of_mem_replicate he] at hu
    exact absurd hu Bool.false_ne_true
  gone address u hu := nomatch hu

/-- An upsert keeps the history. -/
theorem Tracks.upsert {calls : List (Call ρ)} {t : Table ρ} (ht : t.WF cfg)
    (h : Tracks calls t.entries) {u : Upsert ρ} (hu : Nondecreasing (.upsert u :: calls)) :
    Tracks (.upsert u :: calls) (t.upsert u.address u.rssi u.reading u.nowS).entries := by
  refine ⟨fun e' he' huse => ?_, fun address u' hu' habs e' he' => ?_⟩
  · rcases ht.mem_upsert he' with ⟨b, hb, -, rfl⟩ | ⟨hold, hnot⟩
    · have hnew : (Table.record u.rssi u.reading u.nowS b).address = u.address := hb.2
      rw [hnew]
      exact ⟨u, lastUpsert_cons_self u calls, rfl, rfl, rfl⟩
    · have hne : u.address ≠ e'.address := fun heq => hnot ⟨huse, heq.symm⟩
      rw [lastUpsert_cons_ne hne]
      exact h.latest e' hold huse
  · have hne : u.address ≠ address := by
      rintro rfl
      obtain ⟨e, he, hh⟩ := t.upsert_holds ht.ne_nil u.address u.rssi u.reading u.nowS
      exact habs e he hh
    rw [lastUpsert_cons_ne hne] at hu'
    have hle := hu.last_le hu'
    -- Either the address was gone before, or this call evicted it from a full table.
    by_cases hwas : ∀ e'' ∈ t.entries, ¬ e''.Holds address
    · have hgone := h.gone address u' hu' hwas
      rcases ht.mem_upsert he' with ⟨b, hb, -, rfl⟩ | ⟨hold, -⟩
      · exact ⟨hb.1, hle⟩
      · exact hgone e' hold
    · obtain ⟨v, hv, hholds⟩ : ∃ v ∈ t.entries, v.Holds address := by
        by_contra hno
        exact hwas fun e'' he'' hh => hno ⟨e'', he'', hh⟩
      obtain ⟨w, hw, -, -, hseen⟩ := h.latest v hv hholds.1
      rw [hholds.2] at hw
      cases hu'.symm.trans hw
      have hevict := t.upsert_evicts ht.ne_nil hne hv hholds habs
      rcases ht.mem_upsert he' with ⟨b, hb, -, rfl⟩ | ⟨hold, -⟩
      · exact ⟨hb.1, hle⟩
      · exact hseen ▸ hevict e' hold

omit [Inhabited ρ] in
/-- Acknowledging an entry touches neither its address nor its reading. -/
theorem Tracks.markReported {calls : List (Call ρ)} {t : Table ρ} (ht : t.WF cfg)
    (h : Tracks calls t.entries) (address : Address) (updateSeq : UInt16) :
    Tracks (.markReported address updateSeq :: calls)
      (t.markReported address updateSeq).entries := by
  refine .of_upserts_eq ⟨fun e' he' huse => ?_, fun a u hu habs e' he' => ?_⟩ rfl
  · rcases ht.mem_markReported he' with ⟨e, he, -, -, rfl⟩ | ⟨hold, -⟩
    · exact h.latest e he huse
    · exact h.latest e' hold huse
  · have habs' : ∀ e ∈ t.entries, ¬ e.Holds a := by
      intro e he hh
      rw [ht.markReported_entries] at habs
      have hnot := habs _ (List.mem_map_of_mem he)
      split at hnot <;> exact hnot hh
    have hgone := h.gone a u hu habs'
    rcases ht.mem_markReported he' with ⟨e, he, -, -, rfl⟩ | ⟨hold, -⟩
    · exact hgone e he
    · exact hgone e' hold

/-- Every sequence of calls with a non-decreasing uptime leaves a table that tracks it. -/
theorem tracks_after (calls : List (Call ρ)) (h : Nondecreasing calls) :
    Tracks calls (after cfg calls).entries := by
  induction calls with
  | nil => exact tracks_initial
  | cons call calls ih =>
    cases call with
    | upsert u => exact (ih (List.pairwise_cons.1 h).2).upsert (after cfg calls).wf h
    | snapshot nowS maxEntries => exact (ih h).of_upserts_eq rfl
    | markReported address updateSeq =>
      exact (ih h).markReported (after cfg calls).wf address updateSeq

/-! ## The contract of the cache -/

/-- The table after the calls is a least-recently-seen cache of last readings. -/
structure IsCache (cfg : Config) (calls : List (Call ρ)) : Prop where
  /-- The entries in use have pairwise distinct addresses. -/
  distinct : (after cfg calls).inUseAddresses.Nodup
  /-- An entry in use holds what the most recent upsert of its address brought. -/
  latest : ∀ e ∈ (after cfg calls).entries, e.inUse = true →
    ∃ u, lastUpsert calls e.address = some u ∧ e.rssi = u.rssi ∧ e.reading = u.reading ∧
      e.lastSeenUptimeS = u.nowS
  /-- As many entries are in use as addresses were upserted, up to the capacity. -/
  count : (after cfg calls).getDeviceCount.toNat = min cfg.maxDevices (addresses calls).length
  /-- An address that is in the table no longer was last upserted no later than any entry. -/
  evicted : ∀ address u, lastUpsert calls address = some u →
    address ∉ (after cfg calls).inUseAddresses →
    ∀ e ∈ (after cfg calls).entries, e.inUse = true → u.nowS ≤ e.lastSeenUptimeS
  /-- `get_evicted_count()` counts the upserts of an absent address that found the table full. -/
  evictedCount : (after cfg calls).evictedCount.toNat = min 65535 (evictions cfg calls)

omit [Inhabited ρ] in
theorem mem_addresses {calls : List (Call ρ)} {address : Address} :
    address ∈ addresses calls ↔ ∃ u, lastUpsert calls address = some u := by
  rw [addresses, List.mem_dedup, List.mem_map, ← Option.isSome_iff_exists, lastUpsert,
    List.find?_isSome]
  exact exists_congr fun u => and_congr_right fun _ => by rw [decide_eq_true_iff]

omit [Inhabited ρ] in
/-- The addresses in the table are all of those upserted, or the table is full of some. -/
theorem Tracks.count {calls : List (Call ρ)} {t : Table ρ} (ht : t.WF cfg)
    (h : Tracks calls t.entries) :
    t.getDeviceCount.toNat = min cfg.maxDevices (addresses calls).length := by
  have hsub : t.inUseAddresses ⊆ addresses calls := by
    intro address hmem
    obtain ⟨e, he, huse, rfl⟩ := Table.mem_inUseAddresses.1 hmem
    obtain ⟨u, hu, -⟩ := h.latest e he huse
    exact mem_addresses.2 ⟨u, hu⟩
  have hle := (List.subperm_of_subset ht.nodup_inUseAddresses hsub).length_le
  have hcap : t.inUseAddresses.length ≤ cfg.maxDevices := by
    rw [← ht.size, Table.inUseAddresses, List.length_map]
    exact List.length_filter_le _ _
  rw [ht.getDeviceCount_toNat]
  by_cases hall : addresses calls ⊆ t.inUseAddresses
  · have hge := (List.subperm_of_subset (List.nodup_dedup _) hall).length_le
    unfold addresses at *
    omega
  · obtain ⟨address, hmem, hgone⟩ := Set.not_subset.1 hall
    obtain ⟨u, hu⟩ := mem_addresses.1 hmem
    have hnone : ∀ e ∈ t.entries, ¬ e.Holds address :=
      fun e he hh => hgone (Table.mem_inUseAddresses.2 ⟨e, he, hh⟩)
    have hfull : t.entries.filter (·.inUse) = t.entries :=
      List.filter_eq_self.2 fun e he => (h.gone address u hu hnone e he).1
    have hlen : t.inUseAddresses.length = cfg.maxDevices := by
      rw [Table.inUseAddresses, hfull, List.length_map, ht.size]
    omega

/-- An upsert counts an eviction exactly when it finds its address absent and no slot free. -/
theorem upsert_evictedCount {t : Table ρ} (ht : t.WF cfg) (u : Upsert ρ) :
    (t.upsert u.address u.rssi u.reading u.nowS).evictedCount =
      if ∀ e ∈ t.entries, e.inUse = true ∧ ¬ e.Holds u.address then
        Table.saturatingSucc t.evictedCount
      else t.evictedCount := by
  rcases t.upsert_cases ht.ne_nil u.address u.rssi u.reading u.nowS with
    ⟨i, e, he, hh, hup⟩ | ⟨-, i, e, he, hfree, hup⟩ | ⟨habs, hfull, i, e, -, -, hup⟩
  · rw [hup, if_neg fun hall => (hall e (List.mem_of_getElem? he)).2 hh]
  · refine hup ▸ (if_neg fun hall => ?_).symm
    exact absurd (hfree.symm.trans (hall e (List.mem_of_getElem? he)).1) Bool.false_ne_true
  · rw [hup, if_pos fun e he => ⟨hfull e he, habs e he⟩]

/-- The eviction counter counts the evictions, up to `UINT16_MAX`. -/
theorem evictedCount_after (calls : List (Call ρ)) :
    (after cfg calls).evictedCount.toNat = min 65535 (evictions cfg calls) := by
  induction calls with
  | nil => rfl
  | cons call calls ih =>
    cases call with
    | upsert u =>
      have hstep := upsert_evictedCount (after cfg calls).wf u
      unfold after evictions DeviceTable.upsert
      rw [hstep]
      split
      · rw [Table.saturatingSucc_toNat, ih]
        omega
      · exact ih
    | snapshot nowS maxEntries => exact ih
    | markReported address updateSeq =>
      unfold after evictions DeviceTable.markReported
      rw [Table.markReported_evictedCount]
      exact ih

/-- **The device table is a least-recently-seen cache of last readings**, after every sequence of
calls whose uptime does not decrease. -/
theorem after_isCache (cfg : Config) (calls : List (Call ρ)) (h : Nondecreasing calls) :
    IsCache cfg calls where
  distinct := (after cfg calls).wf.nodup_inUseAddresses
  latest := (tracks_after calls h).latest
  count := (tracks_after calls h).count (after cfg calls).wf
  evicted address u hu hgone e he _ :=
    ((tracks_after calls h).gone address u hu
      (fun e' he' hh => hgone (Table.mem_inUseAddresses.2 ⟨e', he', hh⟩)) e he).2
  evictedCount := evictedCount_after calls

/-- Two addresses on a table of one slot: the second upsert, in the same second, evicts the
first. -/
theorem after_isCache_two :
    Nondecreasing (ρ := Reading) [.upsert ⟨.ofByte 2, -60, default, 7⟩,
      .markReported (.ofByte 1) 1, .upsert ⟨.ofByte 1, -50, default, 7⟩] ∧
    IsCache (ρ := Reading) (.ofDevices 1) [.upsert ⟨.ofByte 2, -60, default, 7⟩,
      .markReported (.ofByte 1) 1, .upsert ⟨.ofByte 1, -50, default, 7⟩] :=
  have h : Nondecreasing (ρ := Reading) [.upsert ⟨.ofByte 2, -60, default, 7⟩,
      .markReported (.ofByte 1) 1, .upsert ⟨.ofByte 1, -50, default, 7⟩] := by
    simp [Nondecreasing, upserts]
  ⟨h, after_isCache _ _ h⟩

end History

end Concentrator
