import Concentrator.Comms.Discipline
import Mathlib.Data.List.Nodup

/-!
# No reading is delivered twice

Each `upsert()` call is one reading, told apart by its number (`Stamped`). A reading that was
accepted is in no copy still to be sent, and the entry that holds it, if one does, is not pending or
is about to be acknowledged (`Once`); so no later snapshot copies it out again.

This holds in every run. The counters may wrap and addresses may be evicted and come back: that can
make a reading look delivered that was not, never the other way round.
-/

namespace Concentrator.Comms

open Threaded

variable {cfg : Config}

/-- The number of the call that brought an entry's reading. -/
def stampOf (e : Entry Stamped) : Nat := e.reading.2

/-- The numbers of the readings that were accepted. -/
def acceptedStamps (log : List (LogItem Stamped)) : List Nat := (acceptedReadings log).map (·.2)

/-- Where each reading is, among the entries, the copies and the accepted fragments. -/
structure Once (unsent unmarked : List (Entry Stamped)) (w : World Stamped cfg) : Prop where
  /-- Every number is one of a call made. -/
  entry_lt : ∀ e ∈ w.table.entries, e.inUse = true → stampOf e < w.upserts
  copy_lt : ∀ m ∈ unsent ++ unmarked, stampOf m < w.upserts
  accepted_lt : ∀ n ∈ acceptedStamps w.log, n < w.upserts
  /-- A reading is in one entry. -/
  own : ∀ e ∈ w.table.entries, ∀ e' ∈ w.table.entries, e.inUse = true → e'.inUse = true →
    stampOf e = stampOf e' → e.address = e'.address
  /-- An entry with the reading of a copy is the entry of the copy. -/
  copied : ∀ m ∈ unsent ++ unmarked, ∀ e ∈ w.table.entries, e.inUse = true →
    stampOf e = stampOf m → e.address = m.address ∧ e.updateSeq = m.updateSeq
  /-- The copies still to be sent bring new readings. -/
  unsent_nodup : (unsent.map stampOf).Nodup
  unsent_new : ∀ m ∈ unsent, stampOf m ∉ acceptedStamps w.log
  /-- An accepted reading is not sent again. -/
  settled : ∀ e ∈ w.table.entries, e.inUse = true → stampOf e ∈ acceptedStamps w.log →
    ¬ e.Pending ∨ ∃ m ∈ unmarked, stampOf m = stampOf e
  /-- Every reading was accepted once. -/
  nodup : (acceptedStamps w.log).Nodup

namespace Once

variable {unsent unmarked : List (Entry Stamped)} {w : World Stamped cfg}

/-- The invariant is one of the table, the number of calls and the accepted readings. -/
theorem frame {w' : World Stamped cfg} (h : Once unsent unmarked w) (htable : w'.table = w.table)
    (hupserts : w'.upserts = w.upserts) (hlog : acceptedStamps w'.log = acceptedStamps w.log) :
    Once unsent unmarked w' where
  entry_lt := htable ▸ hupserts ▸ h.entry_lt
  copy_lt := hupserts ▸ h.copy_lt
  accepted_lt := hlog ▸ hupserts ▸ h.accepted_lt
  own := htable ▸ h.own
  copied := htable ▸ h.copied
  unsent_nodup := h.unsent_nodup
  unsent_new := hlog ▸ h.unsent_new
  settled := htable ▸ hlog ▸ h.settled
  nodup := hlog ▸ h.nodup

/-- Copies may be left unsent. -/
theorem leave (h : Once unsent [] w) : Once [] [] w where
  entry_lt := h.entry_lt
  copy_lt _ hm := (List.not_mem_nil hm).elim
  accepted_lt := h.accepted_lt
  own := h.own
  copied _ hm := (List.not_mem_nil hm).elim
  unsent_nodup := .nil
  unsent_new _ hm := (List.not_mem_nil hm).elim
  settled := h.settled
  nodup := h.nodup

/-- An upsert brings a reading of its own. -/
theorem upsert (h : Once unsent unmarked w) (address : Address) (rssi : Int8) (reading : Reading) :
    Once unsent unmarked ((Act.upsert address rssi reading).run w) := by
  -- An entry after the upsert is an old one or brings the new number.
  have hentry : ∀ e ∈ ((Act.upsert address rssi reading).run w).table.entries,
      e ∈ w.table.entries ∨ (stampOf e = w.upserts ∧ e.address = address) := by
    intro e he
    rcases w.table.wf.mem_upsert he with ⟨b, hb, -, rfl⟩ | ⟨hold, -⟩
    · exact .inr ⟨rfl, hb.2⟩
    · exact .inl hold
  have hlt : ∀ {n}, n < w.upserts → n ≠ w.upserts := fun hn => Nat.ne_of_lt hn
  refine ⟨fun e he hu => ?_, fun m hm => ?_, fun n hn => ?_, fun e he e' he' hu hu' hs => ?_,
    fun m hm e he hu hs => ?_, h.unsent_nodup, h.unsent_new, fun e he hu hs => ?_, h.nodup⟩
  · rcases hentry e he with hold | ⟨hnew, -⟩
    · exact Nat.lt_succ_of_lt (h.entry_lt e hold hu)
    · rw [hnew]
      exact Nat.lt_succ_self _
  · exact Nat.lt_succ_of_lt (h.copy_lt m hm)
  · exact Nat.lt_succ_of_lt (h.accepted_lt n hn)
  · rcases hentry e he with hold | ⟨hnew, ha⟩ <;> rcases hentry e' he' with hold' | ⟨hnew', ha'⟩
    · exact h.own e hold e' hold' hu hu' hs
    · exact absurd (hs.trans hnew') (hlt (h.entry_lt e hold hu))
    · exact absurd (hs.symm.trans hnew) (hlt (h.entry_lt e' hold' hu'))
    · exact ha.trans ha'.symm
  · rcases hentry e he with hold | ⟨hnew, -⟩
    · exact h.copied m hm e hold hu hs
    · exact absurd (hs.symm.trans hnew) (hlt (h.copy_lt m hm))
  · rcases hentry e he with hold | ⟨hnew, -⟩
    · exact h.settled e hold hu hs
    · exact absurd hnew (hlt (h.accepted_lt _ hs))

/-- A snapshot copies out readings that were not accepted: the others are not pending. -/
theorem scan (h : Once [] [] w) (nowS : UInt32) (log : List (LogItem Stamped))
    (hlog : acceptedStamps log = acceptedStamps w.log) :
    Once (w.table.scan cfg.deviceStaleAfterS nowS cfg.maxDevices) [] { w with log := log } := by
  have hmem : ∀ m ∈ w.table.scan cfg.deviceStaleAfterS nowS cfg.maxDevices,
      m ∈ w.table.entries ∧ m.inUse = true ∧ m.Pending := by
    intro m hm
    obtain ⟨hentry, huse, -, hpending⟩ := Table.mem_scan hm
    exact ⟨hentry, huse, hpending⟩
  refine ⟨h.entry_lt, fun m hm => ?_, fun n hn => h.accepted_lt n (hlog ▸ hn), h.own,
    fun m hm e he hu hs => ?_, ?_, fun m hm hs => ?_, fun e he hu hs => ?_, hlog ▸ h.nodup⟩
  · rw [List.append_nil] at hm
    exact h.entry_lt m (hmem m hm).1 (hmem m hm).2.1
  · rw [List.append_nil] at hm
    obtain ⟨hentry, huse, -⟩ := hmem m hm
    have haddr := h.own e he m hentry hu huse hs
    rw [w.table.wf.eq_of_holds he hentry ⟨hu, haddr⟩ ⟨huse, rfl⟩]
    exact ⟨rfl, rfl⟩
  · rw [w.table.wf.scan_eq_filter, List.Nodup, List.pairwise_map, List.pairwise_filter,
      List.pairwise_iff_getElem]
    intro i j hi hj hij hei hej hs
    have hu := (of_decide_eq_true hei).1
    have hu' := (of_decide_eq_true hej).1
    have haddr := h.own _ (List.getElem_mem hi) _ (List.getElem_mem hj) hu hu' hs
    have hsame := w.table.wf.distinct (List.getElem?_eq_getElem hi) (List.getElem?_eq_getElem hj)
      ⟨hu, haddr⟩ ⟨hu', rfl⟩
    omega
  · obtain ⟨hentry, huse, hpending⟩ := hmem m hm
    rcases h.settled m hentry huse (hlog ▸ hs) with hnot | ⟨m', hm', -⟩
    · exact hnot hpending
    · cases hm'
  · exact h.settled e he hu (hlog ▸ hs)

theorem acceptedStamps_accept (uplink : Uplink Stamped) (log : List (LogItem Stamped)) :
    acceptedStamps (.sent uplink .noError :: log) =
      uplink.entries.map stampOf ++ acceptedStamps log := by
  rw [acceptedStamps, acceptedReadings_cons, List.map_append]
  refine congrArg (· ++ _) ?_
  show ((if LinkError.noError = .noError then uplink.entries else []).map (·.reading)).map (·.2) = _
  rw [if_pos rfl, List.map_map]
  rfl

/-- An accepted fragment: its copies are to be acknowledged. -/
theorem accept {uplink : Uplink Stamped} {rest : List (Entry Stamped)}
    (h : Once (uplink.entries ++ rest) [] w) :
    Once rest uplink.entries { w with log := .sent uplink .noError :: w.log } := by
  have hnodup := h.unsent_nodup
  rw [List.map_append, List.nodup_append] at hnodup
  obtain ⟨hfirst, hrest, hdisj⟩ := hnodup
  have hcopies : ∀ m ∈ rest ++ uplink.entries, m ∈ (uplink.entries ++ rest) ++ [] := by
    intro m hm
    rw [List.append_nil]
    exact (List.mem_append.2 (List.mem_append.1 hm).symm)
  refine ⟨h.entry_lt, fun m hm => h.copy_lt m (hcopies m hm), fun n hn => ?_, h.own,
    fun m hm => h.copied m (hcopies m hm), hrest, fun m hm hs => ?_, fun e he hu hs => ?_, ?_⟩
  · rw [acceptedStamps_accept] at hn
    rcases List.mem_append.1 hn with hn | hn
    · obtain ⟨m, hm, rfl⟩ := List.mem_map.1 hn
      exact h.copy_lt m (List.mem_append_left _ (List.mem_append_left _ hm))
    · exact h.accepted_lt n hn
  · rw [acceptedStamps_accept] at hs
    rcases List.mem_append.1 hs with hs | hs
    · exact hdisj _ hs _ (List.mem_map_of_mem hm) rfl
    · exact h.unsent_new m (List.mem_append_right _ hm) hs
  · rw [acceptedStamps_accept] at hs
    rcases List.mem_append.1 hs with hs | hs
    · obtain ⟨m, hm, hms⟩ := List.mem_map.1 hs
      exact .inr ⟨m, hm, hms⟩
    · rcases h.settled e he hu hs with hnot | ⟨m, hm, -⟩
      · exact .inl hnot
      · cases hm
  · rw [acceptedStamps_accept, List.nodup_append]
    refine ⟨hfirst, h.nodup, fun n hn n' hn' heq => ?_⟩
    obtain ⟨m, hm, rfl⟩ := List.mem_map.1 hn
    exact h.unsent_new m (List.mem_append_left _ hm) (heq ▸ hn')

/-- An acknowledgement finds the entry that holds the copy's reading, if one does, and settles
it. -/
theorem mark {copy : Entry Stamped} (h : Once unsent (copy :: unmarked) w) :
    Once unsent unmarked
      { w with table := w.table.markReported copy.address copy.updateSeq } := by
  -- An entry after the call is an old one, but for `reported_seq`.
  have hentry : ∀ e ∈ (w.table.toTable.markReported copy.address copy.updateSeq).entries,
      ∃ e₀ ∈ w.table.entries, stampOf e = stampOf e₀ ∧ e.inUse = e₀.inUse ∧
        e.address = e₀.address ∧ e.updateSeq = e₀.updateSeq ∧
        (e.Pending → e₀.Pending ∧ ¬ (e₀.Holds copy.address ∧ e₀.updateSeq = copy.updateSeq)) := by
    intro e he
    rcases w.table.wf.mem_markReported he with ⟨e₀, he₀, -, hupd, rfl⟩ | ⟨hold, hmiss⟩
    · exact ⟨e₀, he₀, rfl, rfl, rfl, rfl, fun hp => absurd hupd hp⟩
    · exact ⟨e, hold, rfl, rfl, rfl, rfl, fun hp => ⟨hp, hmiss⟩⟩
  have hsub : ∀ m ∈ unsent ++ unmarked, m ∈ unsent ++ copy :: unmarked := by
    intro m hm
    rcases List.mem_append.1 hm with hm | hm
    · exact List.mem_append_left _ hm
    · exact List.mem_append_right _ (.tail _ hm)
  refine ⟨fun e he hu => ?_, fun m hm => h.copy_lt m (hsub m hm), h.accepted_lt,
    fun e he e' he' hu hu' hs => ?_, fun m hm e he hu hs => ?_, h.unsent_nodup, h.unsent_new,
    fun e he hu hs => ?_, h.nodup⟩
  · obtain ⟨e₀, he₀, hst, huse, -⟩ := hentry e he
    exact hst ▸ h.entry_lt e₀ he₀ (huse ▸ hu)
  · obtain ⟨e₀, he₀, hst, huse, haddr, -⟩ := hentry e he
    obtain ⟨e₀', he₀', hst', huse', haddr', -⟩ := hentry e' he'
    rw [haddr, haddr']
    exact h.own e₀ he₀ e₀' he₀' (huse ▸ hu) (huse' ▸ hu') (hst ▸ hst' ▸ hs)
  · obtain ⟨e₀, he₀, hst, huse, haddr, hupd, -⟩ := hentry e he
    rw [haddr, hupd]
    exact h.copied m (hsub m hm) e₀ he₀ (huse ▸ hu) (hst ▸ hs)
  · obtain ⟨e₀, he₀, hst, huse, haddr, hupd, hpend⟩ := hentry e he
    by_cases hp : e.Pending
    · obtain ⟨hp₀, hmiss⟩ := hpend hp
      rcases h.settled e₀ he₀ (huse ▸ hu) (hst ▸ hs) with hnot | ⟨m, hm, hms⟩
      · exact absurd hp₀ hnot
      · rcases List.mem_cons.1 hm with rfl | hm
        · obtain ⟨ha, hseq⟩ := h.copied m (List.mem_append_right _ (.head _)) e₀ he₀ (huse ▸ hu)
            hms.symm
          exact absurd ⟨⟨huse ▸ hu, ha⟩, hseq⟩ hmiss
        · exact .inr ⟨m, hm, hms.trans hst.symm⟩
    · exact .inl hp

/-- A world in which nothing was upserted and nothing sent. -/
theorem boot : Once [] [] (World.boot : World Stamped cfg) where
  entry_lt _ he hu := absurd hu (World.boot_free he)
  copy_lt _ hm := (List.not_mem_nil hm).elim
  accepted_lt _ hn := (List.not_mem_nil hn).elim
  own _ he _ _ hu := absurd hu (World.boot_free he)
  copied _ hm := (List.not_mem_nil hm).elim
  unsent_nodup := .nil
  unsent_new _ hm := (List.not_mem_nil hm).elim
  settled _ he hu := absurd hu (World.boot_free he)
  nodup := .nil

theorem acceptedStamps_cons_of_nil {item : LogItem Stamped} (hitem : item.accepted = [])
    (log : List (LogItem Stamped)) : acceptedStamps (item :: log) = acceptedStamps log := by
  rw [acceptedStamps, acceptedReadings_cons, hitem]
  rfl

/-- Where each reading is, is a discipline of every run. -/
theorem discipline : Discipline (Guard.all (M := cycles Stamped cfg)) Once where
  stable x w _ h := by
    cases x with
    | upsert address rssi reading => exact h.upsert address rssi reading
    | tick seconds => exact h.frame rfl rfl rfl
    | dropReport => exact h.frame rfl rfl rfl
  neutral o view ho h := by
    cases o with
    | send | scan | markReported => exact ho.elim
    | modify f => exact h.frame rfl rfl rfl
    | _ => exact h
  began h := h.frame rfl rfl (acceptedStamps_cons_of_nil rfl _)
  scan nowS view h := h.scan nowS _ (acceptedStamps_cons_of_nil rfl _)
  accept uplink h := h.accept
  refuse uplink result hr h := by
    have hnone : (LogItem.sent uplink result).accepted = [] := if_neg hr
    exact h.leave.frame rfl rfl (acceptedStamps_cons_of_nil hnone _)
  mark view _ h := h.mark
  leave h := h.leave

end Once

/-- **No reading is delivered twice.** In every run, whatever is upserted and evicted and whatever
the link answers, the readings of the accepted fragments, told apart by the number of their
`upsert()` call, are pairwise distinct. -/
theorem acceptedReadings_once {c : (cycles Stamped cfg).Conf} (h : Reach Guard.all booted c) :
    ((acceptedReadings c.state.log).map (·.2)).Nodup := by
  obtain ⟨_, _, hc⟩ := Once.discipline.reach rfl Once.boot h
  exact hc.nodup

/-- A table of one slot, and two cycles. Between them another address takes the slot and the first
comes back, so that its sequence starts again. -/
def deliveredTwiceRun : List (cycles Stamped (.ofDevices 1)).Label :=
  .other (.upsert (.ofByte 1) (-50) default) :: .start :: List.replicate 16 (.call openLink) ++
    .other (.upsert (.ofByte 2) (-60) default) :: .other (.upsert (.ofByte 1) (-50) default) ::
      .start :: List.replicate 16 (.call openLink)

/-- The address is delivered twice, with its first and its third reading. -/
theorem acceptedReadings_once_twice :
    ∃ c : (cycles Stamped (.ofDevices 1)).Conf, Reach Guard.all booted c ∧
      acceptedStamps c.state.log = [2, 0] ∧
      (acceptedEntries c.state.log).map (fun e => (e.address, e.updateSeq)) =
        [(.ofByte 1, 1), (.ofByte 1, 1)] ∧
      ((acceptedReadings c.state.log).map (·.2)).Nodup := by
  obtain ⟨c, hc, htest⟩ := Reach.exists_of_run deliveredTwiceRun (c := booted)
    (fun c => decide (acceptedStamps c.state.log = [2, 0] ∧
      (acceptedEntries c.state.log).map (fun e => (e.address, e.updateSeq)) =
        [(.ofByte 1, 1), (.ofByte 1, 1)])) (by decide)
  obtain ⟨hstamps, hsame⟩ := of_decide_eq_true htest
  exact ⟨c, hc, hstamps, hsame, acceptedReadings_once hc⟩

end Concentrator.Comms
