import Concentrator.Comms.Fragmentation

/-!
# Cycles that end in silence

A cycle with something to report does one of four things: it probes the rate, defers, sends a header
alone, or sends records. All but the second hand something to the link. Where the answers of the
link change only as a consequence of a transmission, as they do when the bytes missing from a packet
belong to MAC commands that can leave only inside an uplink, a deferral is followed by deferrals for
ever: `silenceEnds_iff` says that the silence ends exactly where the first cycle does not defer.
-/

namespace Concentrator.Comms

open Threaded

section
variable {ρ : Type} {cfg : Config}

/-- The item says that a cycle began. -/
def LogItem.isBegan : LogItem ρ → Bool
  | .began => true
  | _ => false

/-- The item is a call of `hal::link::send()`. -/
def LogItem.isSent : LogItem ρ → Bool
  | .sent .. => true
  | _ => false

/-- The number of cycles begun so far. -/
def World.begun (w : World ρ cfg) : Nat := w.log.countP LogItem.isBegan

/-- The number of calls of `hal::link::send()` so far. -/
def World.sends (w : World ρ cfg) : Nat := w.log.countP LogItem.isSent

/-- Some device is in use, pending, and fresh at `nowS`. -/
def World.Advertised (nowS : UInt32) (w : World ρ cfg) : Prop :=
  ∃ e ∈ w.table.entries, e.Reportable cfg.deviceStaleAfterS nowS

variable [AsReading ρ]

/-- Runs from `w₀` over a connected link whose answers stay what they are until something is sent,
with a device that keeps advertising: it is pending and fresh when a cycle begins and when its
snapshot is taken. -/
def heldGuard (rateCeiling available maxUplinks : UInt8) (w₀ : World ρ cfg) :
    (cycles ρ cfg).Guard where
  call o view w :=
    (w.sends = w₀.sends →
      Answers rateCeiling available maxUplinks o (perform o view w).1) ∧
    match o with
    | .scan nowS => w.Advertised nowS
    | _ => True
  other _ _ := True
  start w := w.Advertised w.uptime

/-- There is a number of cycles within which something is sent, in every such run. -/
def SilenceEnds (rateCeiling available maxUplinks : UInt8) (w₀ : World ρ cfg) : Prop :=
  ∃ n, ∀ c, Reach (heldGuard rateCeiling available maxUplinks w₀) ⟨w₀, none⟩ c →
    c.running = none → w₀.begun + n ≤ c.state.begun → w₀.sends < c.state.sends

/-! ## Where the first cycle does not defer -/

variable {rateCeiling available maxUplinks : UInt8} {w₀ w : World ρ cfg}

theorem run_sends (x : Act) (w : World ρ cfg) : (x.run w).sends = w.sends := by
  cases x with
  | upsert address rssi reading => exact List.countP_cons_of_neg Bool.false_ne_true
  | tick seconds => rfl
  | dropReport => rfl

theorem run_begun (x : Act) (w : World ρ cfg) : (x.run w).begun = w.begun := by
  cases x with
  | upsert address rssi reading => exact List.countP_cons_of_neg Bool.false_ne_true
  | tick seconds => rfl
  | dropReport => rfl

omit [AsReading ρ] in
/-- No call takes an item out of the log. -/
theorem perform_sends (o : CommsOp ρ) (view : LinkView) (w : World ρ cfg) :
    w.sends ≤ (perform o view w).2.sends := by
  cases o with
  | send uplink => exact (List.sublist_cons_self _ _).countP_le
  | scan nowS => exact (List.sublist_cons_self _ _).countP_le
  | _ => exact Nat.le_refl _

omit [AsReading ρ] in
/-- A call of `hal::link::send()` ends the silence. -/
theorem sends_send (uplink : Uplink ρ) (view : LinkView) (h : w₀.sends ≤ w.sends) :
    w₀.sends < (perform (.send uplink) view w).2.sends := by
  refine Nat.lt_of_le_of_lt h ?_
  show w.log.countP _ < (LogItem.sent uplink view.sendResult :: w.log).countP _
  rw [List.countP_cons_of_pos rfl]
  exact Nat.lt_succ_self _

/-- The stages on the way to a send, in a cycle that does not defer. -/
def Stage.Sends (available : UInt8) : Stage ρ → Prop
  | .usable => 12 < available.toNat
  | .empty | .asked _ | .due _ | .marking .. | .noting .. | .booting | .finished => False
  | _ => True

/-- Something has been sent, or the cycle is on its way to a send, or none has begun. -/
def Ending (available : UInt8) (w₀ : World ρ cfg) (stage : Stage ρ) (w : World ρ cfg) : Prop :=
  w₀.sends ≤ w.sends ∧
    (w.sends = w₀.sends → stage.Sends available ∨ stage = .finished ∧ w.begun = w₀.begun)

omit [AsReading ρ] in
theorem Ending.of_sent {stage : Stage ρ} (h : w₀.sends < w.sends) :
    Ending available w₀ stage w :=
  ⟨Nat.le_of_lt h, fun heq => absurd heq (Nat.ne_of_gt h)⟩

omit [AsReading ρ] in
/-- A device that keeps advertising is in the snapshot. -/
theorem World.Advertised.scan_ne_nil {nowS : UInt32} (h : w.Advertised nowS) :
    w.table.scan cfg.deviceStaleAfterS nowS cfg.maxDevices ≠ [] := by
  obtain ⟨e, he, hrep⟩ := h
  rw [w.table.wf.scan_eq_filter]
  exact List.ne_nil_of_mem (List.mem_filter.2 ⟨he, decide_eq_true hrep⟩)

omit [AsReading ρ] in
/-- A cycle that does not defer goes from stage to stage to a send. -/
theorem Stage.Makes.sends {stage : Stage ρ} {o : CommsOp ρ} (view : LinkView)
    (hmakes : stage.Makes cfg o) (hstage : stage.Sends available) (hmax : maxUplinks ≠ 0)
    (hroom : rateCeiling.toNat ≤ 12 ∨ 12 < available.toNat)
    (hanswer : Answers rateCeiling available maxUplinks o (perform o view w).1)
    (hscan : ∀ nowS, o = .scan nowS → w.Advertised nowS) (h : w₀.sends ≤ w.sends) :
    (stage.next cfg o (perform o view w).1).Sends available ∨
      w₀.sends < (perform o view w).2.sends := by
  cases hmakes with
  | link =>
    have hup : view.isConnected = true := hanswer
    refine .inl ?_
    show Stage.Sends _ (if view.isConnected then _ else _)
    rw [if_pos hup]
    trivial
  | rate =>
    obtain rfl : view.maxPayloadSize = rateCeiling := hanswer
    refine .inl ?_
    show Stage.Sends _ (if view.maxPayloadSize.toNat ≤ 12 then _ else _)
    split
    · trivial
    · next hceiling => exact hroom.resolve_left hceiling
  | packet =>
    obtain rfl : view.availablePayloadSize = available := hanswer
    refine .inl ?_
    show Stage.Sends _ (if view.availablePayloadSize.toNat ≤ 12 then _ else if _ then _ else _)
    rw [if_neg (Nat.not_le.2 hstage)]
    split <;> trivial
  | @scan share nowS =>
    have hne : (perform (.scan nowS) view w).1 ≠ [] := (hscan nowS rfl).scan_ne_nil
    refine .inl ?_
    show Stage.Sends _ (if List.length _ ≠ 0 then _ else _)
    rw [if_pos (Nat.ne_of_gt (List.length_pos_iff.2 hne))]
    trivial
  | @allowance share snapshot nowS hshare hne =>
    obtain rfl : view.maxUplinksPerDispatch = maxUplinks := hanswer
    have hpos := fragmentsAllowed_pos hshare (List.length_pos_iff.2 hne) hmax
    refine .inl ?_
    show Stage.Sends _ (Round.stage _)
    exact Round.stage_cases _ (fun _ => trivial) fun hge => absurd hpos (UInt8.not_lt.2 hge)
  | probe | send => exact .inr (sends_send _ view h)
  | ask | silence | numberDue | mark | read | note | boot => exact hstage.elim
  | _ => exact .inl trivial

/-- In each stage something has been sent or will be. -/
theorem ending_follows (hmax : maxUplinks ≠ 0)
    (hroom : rateCeiling.toNat ≤ 12 ∨ 12 < available.toNat) :
    Follows (M := cycles ρ cfg) (cycleWatch ρ cfg) (heldGuard rateCeiling available maxUplinks w₀)
      (Ending available w₀) where
  stable := by
    intro stage x w _ h
    show Ending available w₀ stage (x.run w)
    rw [Ending, run_sends, run_begun]
    exact h
  call := by
    intro stage o view w hmakes hg h
    obtain ⟨hle, hunsent⟩ := h
    rcases Nat.lt_or_eq_of_le hle with hsent | hsilent
    · exact .of_sent (Nat.lt_of_lt_of_le hsent (perform_sends o view w))
    rcases hunsent hsilent.symm with hstage | ⟨rfl, -⟩
    · have hscan (nowS : UInt32) (ho : o = .scan nowS) : w.Advertised nowS := by
        subst ho
        exact hg.2
      rcases hmakes.sends view hstage hmax hroom (hg.1 hsilent.symm) hscan hle with hnext | hsent
      · exact ⟨Nat.le_trans hle (perform_sends o view w), fun _ => .inl hnext⟩
      · exact .of_sent hsent
    · cases hmakes

/-- Where the first cycle does not defer, it ends the silence. -/
theorem silenceEnds_of_room (hmax : maxUplinks ≠ 0)
    (hroom : rateCeiling.toNat ≤ 12 ∨ 12 < available.toNat) :
    SilenceEnds rateCeiling available maxUplinks w₀ := by
  refine ⟨1, fun c hc hnone hbegun => ?_⟩
  have h₀ : Ending available w₀ .finished w₀ := ⟨Nat.le_refl _, fun _ => .inr ⟨rfl, rfl⟩⟩
  have htracks := (ending_follows hmax hroom).reach (fun w p w' _ hover hstart => ?_)
    (fun _ h => h) (.of_waiting rfl h₀) hc
  · obtain ⟨hle, hunsent⟩ := htracks.waiting hnone
    refine Nat.lt_of_le_of_ne hle fun heq => ?_
    rcases hunsent heq.symm with hfalse | ⟨-, hsame⟩
    · exact hfalse
    · omega
  · cases hstart
    exact ⟨.begun, dispatch_stages ρ cfg, hover.1, fun _ => .inl trivial⟩

/-! ## Where it defers -/

/-- A cycle may make its next call with any answer that the guard allows. -/
theorem reach_call {G : (cycles ρ cfg).Guard} {o : CommsOp ρ} {k : o.Res → CommsProg ρ Unit}
    {c : (cycles ρ cfg).Conf} {answer : o.Res} {w' : World ρ cfg} (view : LinkView)
    (hp : perform o view w = (answer, w')) (hg : G.call o view w)
    (h : Reach G (resume (k answer) w') c) : Reach G (resume (call o >>= k) w) c := by
  refine Reach.call view hg ?_
  show Reach G (resume (k (perform o view w).1) (perform o view w).2) c
  rwa [hp]

/-- A deferred cycle reads three answers and leaves everything as it was. -/
theorem reach_deferred (hceiling : 12 < rateCeiling.toNat) (havailable : available.toNat ≤ 12)
    (hadvertised : w.Advertised w.uptime) :
    Reach (heldGuard rateCeiling available maxUplinks w₀) ⟨w, none⟩
      ⟨{ w with log := .began :: w.log }, none⟩ := by
  have hsize : UplinkHeader.layout.size = 12 := layout_sizes.1
  let view : LinkView := ⟨true, rateCeiling, available, maxUplinks, .noError⟩
  let s : World ρ cfg := { w with log := .began :: w.log }
  have hbegan : Reach (heldGuard rateCeiling available maxUplinks w₀) ⟨w, none⟩
      (resume (dispatch cfg) s) := Reach.refl.step (l := .start) hadvertised rfl
  refine hbegan.trans ?_
  unfold dispatch
  refine reach_call view (rfl : _ = (true, s)) ⟨fun _ => rfl, trivial⟩ ?_
  rw [if_neg (by decide)]
  refine reach_call view (rfl : _ = (rateCeiling, s)) ⟨fun _ => rfl, trivial⟩ ?_
  rw [if_neg (by omega)]
  refine reach_call view (rfl : _ = (available, s)) ⟨fun _ => rfl, trivial⟩ ?_
  rw [if_pos (by omega)]
  exact .refl

/-- The log after `n` cycles that were deferred. -/
def deferred (n : Nat) (w : World ρ cfg) : World ρ cfg :=
  { w with log := List.replicate n .began ++ w.log }

omit [AsReading ρ] in
theorem deferred_sends (n : Nat) (w : World ρ cfg) : (deferred n w).sends = w.sends := by
  show (List.replicate n LogItem.began ++ w.log).countP _ = _
  rw [List.countP_append, List.countP_replicate]
  exact Nat.zero_add _

omit [AsReading ρ] in
theorem deferred_begun (n : Nat) (w : World ρ cfg) : (deferred n w).begun = w.begun + n := by
  show (List.replicate n LogItem.began ++ w.log).countP _ = _
  rw [List.countP_append, List.countP_replicate]
  exact Nat.add_comm _ _

/-- Deferred cycles follow one another as often as one likes. The induction is on their number. -/
theorem reach_allDeferred (hceiling : 12 < rateCeiling.toNat) (havailable : available.toNat ≤ 12)
    (hadvertised : w₀.Advertised w₀.uptime) (n : Nat) :
    Reach (heldGuard rateCeiling available maxUplinks w₀) ⟨w₀, none⟩ ⟨deferred n w₀, none⟩ := by
  induction n with
  | zero => exact .refl
  | succ n ih => exact ih.trans (reach_deferred hceiling havailable hadvertised)

/-- Where the first cycle defers, all of them may. -/
theorem not_silenceEnds (hceiling : 12 < rateCeiling.toNat) (havailable : available.toNat ≤ 12)
    (hadvertised : w₀.Advertised w₀.uptime) :
    ¬ SilenceEnds rateCeiling available maxUplinks w₀ := by
  rintro ⟨n, hn⟩
  have hsent := hn _ (reach_allDeferred hceiling havailable hadvertised n) rfl
    (Nat.le_of_eq (deferred_begun n w₀).symm)
  exact Nat.ne_of_gt hsent (deferred_sends n w₀)

/-- **Where the silence ends.** Over a link whose answers change only as a consequence of a
transmission, with a device that keeps advertising, something is sent within some number of cycles
exactly where not even a header fits the data rate, so that the cycle probes it, or a header fits
the packet. Every backend allows a transmission per cycle at least. -/
theorem silenceEnds_iff (rateCeiling available : UInt8) {maxUplinks : UInt8} {w₀ : World ρ cfg}
    (hmax : maxUplinks ≠ 0) (hadvertised : w₀.Advertised w₀.uptime) :
    SilenceEnds rateCeiling available maxUplinks w₀ ↔
      rateCeiling.toNat ≤ 12 ∨ 12 < available.toNat := by
  refine ⟨fun hends => ?_, silenceEnds_of_room hmax⟩
  by_contra hdefers
  exact not_silenceEnds (by omega) (by omega) hadvertised hends

end

theorem heardOnce_advertised : heardOnce.Advertised heardOnce.uptime := ⟨_, .head _, by decide⟩

/-- A data rate that carries no header is probed. -/
theorem silenceEnds_iff_probe : SilenceEnds 11 11 3 heardOnce :=
  (silenceEnds_iff 11 11 (by decide) heardOnce_advertised).2 (.inl (by decide))

/-- A rate that carries 53 bytes, of which MAC commands take all but 11 until they are sent. -/
theorem silenceEnds_fails :
    heardOnce.Advertised heardOnce.uptime ∧ ¬ SilenceEnds 53 11 3 heardOnce :=
  ⟨heardOnce_advertised, not_silenceEnds (by decide) (by decide) heardOnce_advertised⟩

end Concentrator.Comms
