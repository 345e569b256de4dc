import Concentrator.Comms.Discipline
import Mathlib.Data.List.Basic

/-!
# What a cycle defers, and what the next one leads with

A snapshot keeps the order of the table's slots. So what a cycle could not deliver comes first in
the next snapshot unless a device that the cycle did serve has been heard again and has a lower slot
(`leadsWithDeferred_iff`). One served device that keeps advertising from a low slot is enough to
keep the others waiting (`leadsWithDeferred_fails`).
-/

namespace Concentrator.Comms

open Threaded

/-! ## Positions in a filtered list -/

/-- An element's place in a filtered list is the number of elements before it that pass. -/
theorem idxOf_map_filter {α β : Type} [DecidableEq β] {l : List α} {p : α → Bool} {f : α → β}
    {i : Nat} {a : α} (hi : l[i]? = some a) (ha : p a = true)
    (hne : ∀ j b, l[j]? = some b → j < i → p b = true → f b ≠ f a) :
    ((l.filter p).map f).idxOf (f a) = (l.take i).countP p := by
  obtain ⟨hlt, hget⟩ := List.getElem?_eq_some_iff.1 hi
  have hsplit : l = l.take i ++ a :: l.drop (i + 1) := by
    rw [← hget, ← List.drop_eq_getElem_cons hlt, List.take_append_drop]
  have hnot : f a ∉ ((l.take i).filter p).map f := by
    intro hmem
    obtain ⟨b, hb, hfb⟩ := List.mem_map.1 hmem
    obtain ⟨hb, hpb⟩ := List.mem_filter.1 hb
    obtain ⟨j, hj⟩ := List.mem_iff_getElem?.1 hb
    rw [List.getElem?_take] at hj
    split at hj
    · next hji => exact hne j b hj hji hpb hfb
    · cases hj
  conv => lhs; rw [hsplit]
  rw [List.filter_append, List.map_append, List.filter_cons_of_pos ha, List.map_cons,
    List.idxOf_append_of_notMem hnot, List.idxOf_cons_self, List.length_map,
    List.countP_eq_length_filter]
  rfl

/-- Elements that pass keep their order. -/
theorem countP_take_lt {α : Type} {l : List α} {p : α → Bool} {i j : Nat} {a : α}
    (hi : l[i]? = some a) (ha : p a = true) (hij : i < j) :
    (l.take i).countP p < (l.take j).countP p := by
  obtain ⟨hlt, hget⟩ := List.getElem?_eq_some_iff.1 hi
  have hnext : (l.take (i + 1)).countP p = (l.take i).countP p + 1 := by
    rw [List.take_succ_eq_append_getElem hlt, hget, List.countP_append, List.countP_singleton,
      if_pos ha]
  have hsub : (l.take (i + 1)).Sublist (l.take j) := List.take_sublist_take_left hij
  have hmono := hsub.countP_le (p := p)
  omega

/-! ## Two cycles in a row -/

section
variable {ρ : Type} {cfg : Config}

variable (ρ) in
/-- A snapshot, what happened until the next one, and what the next one saw and copied out. -/
structure CyclePair where
  snapshot : List (Entry ρ)
  between : List (LogItem ρ)
  table : Table ρ
  nowS : UInt32
  next : List (Entry ρ)

/-- Two snapshots of the log with none between them. -/
def CyclePair.In (p : CyclePair ρ) (log : List (LogItem ρ)) : Prop :=
  ∃ later table nowS earlier,
    log = later ++ .scanned p.table p.nowS p.next ::
      (p.between ++ .scanned table nowS p.snapshot :: earlier) ∧
    ∀ item ∈ p.between, item.NotScan

/-- The addresses whose records the first of the two cycles delivered. -/
def CyclePair.served (p : CyclePair ρ) : List Address := (acceptedEntries p.between).map (·.address)

/-- The place of an address in the second snapshot. -/
def CyclePair.place (p : CyclePair ρ) (address : Address) : Nat :=
  (p.next.map (·.address)).idxOf address

/-- A device that was in the first snapshot, was not served, and is still to be reported comes
before every device that was served. -/
def CyclePair.LeadsWithDeferred (cfg : Config) (p : CyclePair ρ) : Prop :=
  ∀ d ∈ p.snapshot, d.address ∉ p.served →
    (∃ e ∈ p.table.entries, e.Holds d.address ∧ e.Reportable cfg.deviceStaleAfterS p.nowS) →
    ∀ address ∈ p.served, p.place d.address < p.place address

instance (cfg : Config) (p : CyclePair ρ) : Decidable (p.LeadsWithDeferred cfg) :=
  inferInstanceAs (Decidable (∀ d ∈ p.snapshot, _ → _ → _))

/-- At the second snapshot, no device that was served and is to be reported again has a slot below
one that was deferred and is still to be reported. -/
def CyclePair.NoneServedAbove (cfg : Config) (p : CyclePair ρ) : Prop :=
  ∀ d ∈ p.snapshot, d.address ∉ p.served →
    ∀ (i : Nat) (e : Entry ρ), p.table.entries[i]? = some e → e.Holds d.address →
      e.Reportable cfg.deviceStaleAfterS p.nowS →
      ∀ (j : Nat) (e' : Entry ρ), p.table.entries[j]? = some e' → e'.address ∈ p.served →
        e'.Reportable cfg.deviceStaleAfterS p.nowS → ¬ j < i

/-- What a snapshot of the log is: the reportable entries of a well-formed table, in order. -/
def SnapshotOf (cfg : Config) : LogItem ρ → Prop
  | .scanned table nowS snapshot =>
    table.WF cfg ∧ snapshot = table.scan cfg.deviceStaleAfterS nowS cfg.maxDevices
  | _ => True

/-- A reportable entry's place in a snapshot is the number of reportable entries in lower slots. -/
theorem CyclePair.place_eq {p : CyclePair ρ} (hp : SnapshotOf cfg (.scanned p.table p.nowS p.next))
    {i : Nat} {e : Entry ρ} (he : p.table.entries[i]? = some e)
    (hr : e.Reportable cfg.deviceStaleAfterS p.nowS) :
    p.place e.address = (p.table.entries.take i).countP fun e =>
      e.Reportable cfg.deviceStaleAfterS p.nowS := by
  rw [place, hp.2, hp.1.scan_eq_filter]
  refine idxOf_map_filter he (decide_eq_true hr) fun j b hj hji hb haddr => ?_
  have hsame := hp.1.distinct hj he ⟨(of_decide_eq_true hb).1, haddr⟩ ⟨hr.1, rfl⟩
  omega

/-- An address that is not in the snapshot has no place before its end. -/
theorem CyclePair.place_lt {p : CyclePair ρ} (hp : SnapshotOf cfg (.scanned p.table p.nowS p.next))
    {i : Nat} {e : Entry ρ} (he : p.table.entries[i]? = some e)
    (hr : e.Reportable cfg.deviceStaleAfterS p.nowS) : p.place e.address < p.next.length := by
  have hmem : e ∈ p.next := by
    rw [hp.2, hp.1.scan_eq_filter]
    exact List.mem_filter.2 ⟨List.mem_of_getElem? he, decide_eq_true hr⟩
  have hlen : (p.next.map (·.address)).length = p.next.length := List.length_map _
  rw [← hlen]
  exact List.idxOf_lt_length_of_mem (List.mem_map_of_mem hmem)

/-- Whether a snapshot leads with what the one before it deferred is a matter of slots. -/
theorem CyclePair.leads_iff {p : CyclePair ρ}
    (hp : SnapshotOf cfg (.scanned p.table p.nowS p.next)) :
    p.LeadsWithDeferred cfg ↔ p.NoneServedAbove cfg := by
  constructor
  · intro hleads d hd hnot i e he hh hr j e' he' hserved hr' hji
    have hlt := hleads d hd hnot ⟨e, List.mem_of_getElem? he, hh, hr⟩ _ hserved
    rw [← hh.2, place_eq hp he hr, place_eq hp he' hr'] at hlt
    have hgt := countP_take_lt (p := fun e => decide (e.Reportable cfg.deviceStaleAfterS p.nowS))
      he' (decide_eq_true hr') hji
    omega
  · intro hnone d hd hnot ⟨e, hmem, hh, hr⟩ address hserved
    obtain ⟨i, he⟩ := List.mem_iff_getElem?.1 hmem
    by_cases hin : address ∈ p.next.map (·.address)
    · obtain ⟨e', he', rfl⟩ := List.mem_map.1 hin
      rw [hp.2, hp.1.scan_eq_filter] at he'
      obtain ⟨hmem', hr'⟩ := List.mem_filter.1 he'
      have hr' := of_decide_eq_true hr'
      obtain ⟨j, hj⟩ := List.mem_iff_getElem?.1 hmem'
      have hge := hnone d hd hnot i e he hh hr j e' hj hserved hr'
      have hne : i ≠ j := by
        rintro rfl
        cases he.symm.trans hj
        exact hnot (hh.2 ▸ hserved)
      rw [← hh.2, place_eq hp he hr, place_eq hp hj hr']
      exact countP_take_lt he (decide_eq_true hr) (by omega)
    · have hend : p.place address = p.next.length := by
        rw [place, List.idxOf_eq_length hin, List.length_map]
      rw [hend, ← hh.2]
      exact place_lt hp he hr

end

/-! ## Every run -/

variable {ρ : Type} [AsReading ρ] {cfg : Config}

/-- Every snapshot in the log is what its table had to report. -/
theorem snapshotOf_discipline : Discipline (Guard.all (M := cycles ρ cfg))
    fun _ _ w => ∀ item ∈ w.log, SnapshotOf cfg item where
  stable x w _ h := by
    cases x with
    | upsert address rssi reading => exact List.forall_mem_cons.2 ⟨trivial, h⟩
    | tick seconds => exact h
    | dropReport => exact h
  neutral o view ho h := by
    cases o with
    | send | scan | markReported => exact ho.elim
    | _ => exact h
  began h := List.forall_mem_cons.2 ⟨trivial, h⟩
  scan {w} nowS view h := List.forall_mem_cons.2 ⟨⟨w.table.wf, rfl⟩, h⟩
  accept uplink h := List.forall_mem_cons.2 ⟨trivial, h⟩
  refuse uplink result _ h := List.forall_mem_cons.2 ⟨trivial, h⟩
  mark view _ h := h
  leave h := h

/-- **When a cycle leads with what the one before it deferred.** In every run and for every two
consecutive snapshots, the second leads with what the first cycle deferred exactly when no device
that the first cycle served is to be reported again from a lower slot. -/
theorem leadsWithDeferred_iff {c : (cycles ρ cfg).Conf} (h : Reach Guard.all booted c)
    (p : CyclePair ρ) (hp : p.In c.state.log) :
    p.LeadsWithDeferred cfg ↔ p.NoneServedAbove cfg := by
  obtain ⟨_, _, hlog⟩ := snapshotOf_discipline.reach rfl (fun _ hm => (List.not_mem_nil hm).elim) h
  obtain ⟨later, table, nowS, earlier, heq, -⟩ := hp
  refine CyclePair.leads_iff (hlog (.scanned p.table p.nowS p.next) ?_)
  rw [heq]
  exact List.mem_append_right _ (.head _)

/-! ## A served device in the first slot -/

section
variable {ρ : Type}

/-- The latest snapshot of a log, with what is after it and before it. -/
def splitScan : List (LogItem ρ) →
    Option (List (LogItem ρ) × (Table ρ × UInt32 × List (Entry ρ)) × List (LogItem ρ))
  | [] => none
  | .scanned table nowS snapshot :: log => some ([], (table, nowS, snapshot), log)
  | item :: log => (splitScan log).map fun (after, scan, before) => (item :: after, scan, before)

theorem splitScan_some {log after before : List (LogItem ρ)} {table : Table ρ} {nowS : UInt32}
    {snapshot : List (Entry ρ)}
    (h : splitScan log = some (after, (table, nowS, snapshot), before)) :
    log = after ++ .scanned table nowS snapshot :: before ∧ ∀ item ∈ after, item.NotScan := by
  induction log generalizing after with
  | nil => cases h
  | cons item log ih =>
    cases item with
    | scanned table' nowS' snapshot' =>
      cases h
      exact ⟨rfl, fun _ hm => (List.not_mem_nil hm).elim⟩
    | upserted | began | sent =>
      obtain ⟨⟨after', _, _⟩, hsplit, heq⟩ := Option.map_eq_some_iff.1 h
      cases heq
      obtain ⟨rfl, hnot⟩ := ih hsplit
      exact ⟨rfl, List.forall_mem_cons.2 ⟨trivial, hnot⟩⟩

/-- The latest two snapshots of a log. -/
def lastPair (log : List (LogItem ρ)) : Option (CyclePair ρ) :=
  (splitScan log).bind fun (_, (table, nowS, next), log) =>
    (splitScan log).map fun (between, (_, _, snapshot), _) =>
      ⟨snapshot, between, table, nowS, next⟩

theorem lastPair_some {log : List (LogItem ρ)} {p : CyclePair ρ} (h : lastPair log = some p) :
    p.In log := by
  obtain ⟨⟨later, ⟨table, nowS, next⟩, before⟩, hsplit, h⟩ := Option.bind_eq_some_iff.1 h
  obtain ⟨⟨between, ⟨table', nowS', snapshot⟩, earlier⟩, hsplit', h⟩ := Option.map_eq_some_iff.1 h
  cases h
  obtain ⟨rfl, -⟩ := splitScan_some hsplit
  obtain ⟨rfl, hnot⟩ := splitScan_some hsplit'
  exact ⟨later, table', nowS', earlier, rfl, hnot⟩

end

/-- Two devices and one record a cycle: the first cycle serves the device of slot 0 and defers the
other; the device of slot 0 advertises again before the second cycle. -/
def starvedRun : List (cycles Reading (.ofDevices 2)).Label :=
  .other (.upsert (.ofByte 1) (-50) default) :: .other (.upsert (.ofByte 2) (-60) default) ::
    .start :: List.replicate 16 (.call openLink) ++
  .other (.upsert (.ofByte 1) (-50) default) :: .start :: List.replicate 5 (.call openLink)

/-- The second snapshot of that run leads with the device that was served. -/
theorem leadsWithDeferred_fails :
    ∃ (c : (cycles Reading (.ofDevices 2)).Conf) (p : CyclePair Reading),
      Reach Guard.all booted c ∧ p.In c.state.log ∧ ¬ p.LeadsWithDeferred (.ofDevices 2) := by
  have hrun : (run starvedRun booted).any (fun c => (lastPair c.state.log).any fun p =>
      !decide (p.LeadsWithDeferred (.ofDevices 2))) = true := by decide
  obtain ⟨c, hc, hlast⟩ := Reach.exists_of_run starvedRun _ hrun
  obtain ⟨p, hp, hbad⟩ := (Option.any_eq_true ..).1 hlast
  exact ⟨c, p, hc, lastPair_some hp, by simpa using hbad⟩

/-- The two cycles of that run. -/
theorem leadsWithDeferred_iff_starved :
    ∃ (c : (cycles Reading (.ofDevices 2)).Conf) (p : CyclePair Reading), p.In c.state.log ∧
      (p.LeadsWithDeferred (.ofDevices 2) ↔ p.NoneServedAbove (.ofDevices 2)) := by
  have hrun : (run starvedRun booted).any (fun c => (lastPair c.state.log).isSome) = true := by
    decide
  obtain ⟨c, hc, hlast⟩ := Reach.exists_of_run starvedRun _ hrun
  obtain ⟨p, hp⟩ := Option.isSome_iff_exists.1 hlast
  exact ⟨c, p, lastPair_some hp, leadsWithDeferred_iff hc p (lastPair_some hp)⟩

end Concentrator.Comms
