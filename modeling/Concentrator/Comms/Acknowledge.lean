import Concentrator.Comms.Discipline

/-!
# What an acknowledgement says

An entry whose two sequence counters agree counts as delivered: `snapshot()` passes over it. That
its reading was delivered is kept by every step but two (`ackGuard`). An upsert can wrap the 16-bit
`update_seq` onto `reported_seq`; and an acknowledgement names a reading by its address and its
`update_seq` only, so a reading that took the same number while the fragment was in flight, after a
wrap or after the address was evicted and came back, is acknowledged in its place
(`ackSound_fails`).
-/

namespace Concentrator.Comms

open Threaded

variable {ρ : Type} [AsReading ρ] {cfg : Config}

/-- Every entry that counts as delivered holds a reading that an accepted fragment carried. -/
def AckSound (w : World ρ cfg) : Prop :=
  ∀ e ∈ w.table.entries, e.inUse = true → e.updateSeq = e.reportedSeq →
    e.reading ∈ acceptedReadings w.log

instance [DecidableEq ρ] (w : World ρ cfg) : Decidable (AckSound w) :=
  inferInstanceAs (Decidable (∀ e ∈ w.table.entries, _))

variable (ρ cfg) in
/-- The steps that keep acknowledgements sound: no upsert brings `update_seq` to `reported_seq`, and
an entry that an acknowledgement matches still holds the reading of the copy. -/
def ackGuard : (cycles ρ cfg).Guard where
  call
    | .markReported copy, _, w => ∀ e ∈ w.table.entries, e.Holds copy.address →
        e.updateSeq = copy.updateSeq → e.reading = copy.reading
    | _, _, _ => True
  other
    | .upsert address _ _, w => ∀ e ∈ w.table.entries, e.Holds address →
        e.updateSeq + 1 ≠ e.reportedSeq
    | _, _ => True

/-- Acknowledgements are sound, and those to come are of accepted readings. -/
def AckInv (_unsent unmarked : List (Entry ρ)) (w : World ρ cfg) : Prop :=
  AckSound w ∧ ∀ copy ∈ unmarked, copy.reading ∈ acceptedReadings w.log

omit [AsReading ρ] in
/-- The log grows, the table stays: what was accepted stays accepted. -/
theorem AckInv.log {unsent unmarked : List (Entry ρ)} {w : World ρ cfg}
    (h : AckInv unsent unmarked w) (item : LogItem ρ) :
    AckInv unsent unmarked { w with log := item :: w.log } := by
  have hgrow : acceptedReadings w.log ⊆ acceptedReadings (item :: w.log) := by
    rw [acceptedReadings_cons]
    exact List.subset_append_right _ _
  exact ⟨fun e he hu hs => hgrow (h.1 e he hu hs), fun copy hcopy => hgrow (h.2 copy hcopy)⟩

/-- An upsert leaves its entry pending, unless it wraps. -/
theorem AckSound.upsert {w : World ρ cfg} (h : AckSound w) {address : Address} {rssi : Int8}
    {reading : Reading}
    (hguard : ∀ e ∈ w.table.entries, e.Holds address → e.updateSeq + 1 ≠ e.reportedSeq) :
    AckSound ((Act.upsert address rssi reading).run w) := by
  intro e he huse hseq
  rcases w.table.wf.mem_upsert he with ⟨b, hb, hold | rfl, rfl⟩ | ⟨hold, -⟩
  · exact absurd hseq (hguard b hold hb)
  · cases hseq
  · exact h e hold huse hseq

omit [AsReading ρ] in
/-- A matching acknowledgement makes its entry count as delivered, which its reading was. -/
theorem AckInv.mark {unsent unmarked : List (Entry ρ)} {copy : Entry ρ} {w : World ρ cfg}
    (h : AckInv unsent (copy :: unmarked) w)
    (hguard : ∀ e ∈ w.table.entries, e.Holds copy.address → e.updateSeq = copy.updateSeq →
      e.reading = copy.reading) :
    AckInv unsent unmarked
      { w with table := w.table.markReported copy.address copy.updateSeq } := by
  refine ⟨fun e he huse hseq => ?_, fun copy' hcopy' => h.2 copy' (.tail _ hcopy')⟩
  rcases w.table.wf.mem_markReported he with ⟨e₀, he₀, hh, hupd, rfl⟩ | ⟨hold, -⟩
  · show e₀.reading ∈ acceptedReadings w.log
    rw [hguard e₀ he₀ hh hupd]
    exact h.2 copy (.head _)
  · exact h.1 e hold huse hseq

/-- Sound acknowledgements are a discipline of the guarded runs. -/
theorem ackDiscipline : Discipline (ackGuard ρ cfg) AckInv where
  stable x w hg h := by
    cases x with
    | upsert address rssi reading => exact ⟨h.1.upsert hg, h.2⟩
    | tick seconds => exact h
    | dropReport => exact h
  neutral o view ho h := by
    cases o with
    | send | scan | markReported => exact ho.elim
    | _ => exact h
  began h := h.log .began
  scan nowS view h := ⟨(h.log _).1, fun _ hc => (List.not_mem_nil hc).elim⟩
  accept uplink h := by
    refine ⟨(h.log (.sent uplink .noError)).1, fun copy hcopy => ?_⟩
    rw [acceptedReadings_cons]
    exact List.mem_append_left _ (List.mem_map_of_mem hcopy)
  refuse uplink result _ h :=
    ⟨(h.log (.sent uplink result)).1, fun _ hc => (List.not_mem_nil hc).elim⟩
  mark view hg h := h.mark hg
  leave h := h

/-- **Acknowledgement is sound** in every run whose steps the guard allows: whatever the readings,
the link's answers and the evictions, an entry that counts as delivered was. -/
theorem ackSound_of_guarded {c : (cycles ρ cfg).Conf} (h : Reach (ackGuard ρ cfg) booted c) :
    AckSound c.state := by
  have hboot : AckInv [] [] (World.boot : World ρ cfg) :=
    ⟨fun e he huse => absurd huse (World.boot_free he), fun _ hc => (List.not_mem_nil hc).elim⟩
  obtain ⟨_, _, hc⟩ := ackDiscipline.reach rfl hboot h
  exact hc.1

/-- The test of `ackGuard`, on a table of one slot. -/
def ackStep : (cycles Reading (.ofDevices 1)).Label → (cycles Reading (.ofDevices 1)).Conf → Bool
  | .call _, ⟨w, some (.call (.markReported copy) _)⟩ =>
    decide (∀ e ∈ w.table.entries, e.Holds copy.address →
      e.updateSeq = copy.updateSeq → e.reading = copy.reading)
  | .other (.upsert address _ _), ⟨w, _⟩ =>
    decide (∀ e ∈ w.table.entries, e.Holds address → e.updateSeq + 1 ≠ e.reportedSeq)
  | _, _ => true

theorem ackStep_allows (l : (cycles Reading (.ofDevices 1)).Label)
    (c : (cycles Reading (.ofDevices 1)).Conf) (h : ackStep l c = true) :
    (ackGuard Reading (.ofDevices 1)).Allows l c := by
  obtain ⟨w, r⟩ := c
  match l, r with
  | .start, none | .start, some _ | .call _, none | .call _, some (.pure _) => trivial
  | .other (.upsert address _ _), _ =>
    have hunwrapped : ∀ e ∈ w.table.entries, e.Holds address → e.updateSeq + 1 ≠ e.reportedSeq :=
      of_decide_eq_true h
    exact hunwrapped
  | .other (.tick _), _ | .other .dropReport, _ => trivial
  | .call _, some (.call o _) =>
    cases o with
    | markReported copy =>
      have hheld : ∀ e ∈ w.table.entries, e.Holds copy.address → e.updateSeq = copy.updateSeq →
          e.reading = copy.reading := of_decide_eq_true h
      exact hheld
    | _ => trivial

/-- A reading is sent and acknowledged, while the address is heard again before the
acknowledgement; the second reading goes out in the next cycle. -/
def heardTwiceRun : List (cycles Reading (.ofDevices 1)).Label :=
  .other (.upsert (.ofByte 1) (-50) { (default : Reading) with temperature := 20 }) :: .start ::
    List.replicate 12 (.call openLink) ++
  .other (.upsert (.ofByte 1) (-51) { (default : Reading) with temperature := 22 }) ::
    List.replicate 4 (.call openLink) ++ .start :: List.replicate 16 (.call openLink)

/-- Two cycles, each with an accepted fragment: the first acknowledgement comes too late for its
entry, the second makes it count as delivered. -/
theorem ackSound_of_guarded_twice :
    ∃ c : (cycles Reading (.ofDevices 1)).Conf, Reach (ackGuard Reading (.ofDevices 1)) booted c ∧
      (acceptedReadings c.state.log).map (·.temperature) = [22, 20] ∧
      (∃ e ∈ c.state.table.entries, e.inUse = true ∧ e.updateSeq = e.reportedSeq) ∧
      AckSound c.state := by
  obtain ⟨c, hreach, htest⟩ := Reach.exists_of_runWithin ackStep_allows heardTwiceRun (c := booted)
    (fun c => decide ((acceptedReadings c.state.log).map (·.temperature) = [22, 20] ∧
      ∃ e ∈ c.state.table.entries, e.inUse = true ∧ e.updateSeq = e.reportedSeq)) (by decide)
  obtain ⟨hcarried, hdelivered⟩ := of_decide_eq_true htest
  exact ⟨c, hreach, hcarried, hdelivered, ackSound_of_guarded hreach⟩

/-- A table of one slot. While a fragment with the reading of 20 degrees is in flight, another
address evicts its entry and the address comes back with 22 degrees; the acknowledgement finds it at
the same address and the same sequence. -/
def reinsertedRun : List (cycles Reading (.ofDevices 1)).Label :=
  .other (.upsert (.ofByte 1) (-50) { (default : Reading) with temperature := 20 }) :: .start ::
    List.replicate 12 (.call openLink) ++
  [.other (.upsert (.ofByte 2) (-60) { (default : Reading) with temperature := 21 }),
    .other (.upsert (.ofByte 1) (-50) { (default : Reading) with temperature := 22 }),
    .call openLink]

/-- Acknowledgements are not sound in every run. -/
theorem ackSound_fails :
    ∃ c : (cycles Reading (.ofDevices 1)).Conf, Reach Guard.all booted c ∧ ¬ AckSound c.state := by
  obtain ⟨c, hc, hbad⟩ := Reach.exists_of_run reinsertedRun (c := booted)
    (fun c => !decide (AckSound c.state)) (by decide)
  exact ⟨c, hc, by simpa using hbad⟩

end Concentrator.Comms
