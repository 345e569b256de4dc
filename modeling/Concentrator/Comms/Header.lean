import Concentrator.Comms.Service
import Concentrator.Comms.Stages

/-!
# The loss counters of a header

Every fragment the comms service hands to the link carries, saturated to a byte, the two loss
counters as they were last read: `headerWatch` remembers what was read and allows no other header,
and the programs of the service obey it (`obeys_executeEvent`).
-/

namespace Concentrator.Comms

variable {ρ : Type} {cfg : Config} {m : UInt16 × UInt16}

variable (ρ) in
/-- The monitor of a dispatch cycle: its state is what the counters of refused reports and evicted
devices were when they were last read. -/
def headerWatch : Monitor (CommsSig ρ) (UInt16 × UInt16) where
  allows m
    | .send (.fragment f) =>
      f.header.droppedAdvReports = saturateToU8 m.1 ∧ f.header.evictedDevices = saturateToU8 m.2
    | _ => True
  next
    | .getDroppedReportCount, count, m => (count, m.2)
    | .getEvictedCount, count, m => (m.1, count)
    | _, _, m => m

variable (ρ) in
/-- The monitor of the service: it watches the calls of the cycles. -/
def serviceWatch : Monitor (ServiceSig ρ) (UInt16 × UInt16) where
  allows m
    | .cycle o => (headerWatch ρ).allows m o
    | _ => True
  next
    | .cycle o, r, m => (headerWatch ρ).next o r m
    | _, _, m => m

/-- What was read, in each stage of a cycle. -/
def Stage.Read (m : UInt16 × UInt16) : Stage ρ → Prop
  | .counted _ _ droppedReports => m.1 = droppedReports
  | .built _ _ droppedReports evicted => m = (droppedReports, evicted)
  | _ => True

theorem Round.read_ended (round : Round ρ) : round.ended.Read m :=
  Round.ended_cases _ (fun _ => trivial) fun _ => trivial

theorem Round.read_stage (round : Round ρ) : round.stage.Read m :=
  Round.stage_cases _ (fun _ => trivial) fun _ => round.read_ended

/-- A fragment's header is built from the counters as they are read for it. -/
theorem Stage.Makes.header {stage : Stage ρ} {o : CommsOp ρ} (hmakes : stage.Makes cfg o)
    (hread : stage.Read m) : (headerWatch ρ).allows m o := by
  cases hmakes with
  | @send round statics droppedReports evicted =>
    cases (hread : m = (droppedReports, evicted))
    exact ⟨rfl, rfl⟩
  | _ => trivial

theorem Stage.Makes.read_next {stage : Stage ρ} {o : CommsOp ρ} (hmakes : stage.Makes cfg o)
    (hread : stage.Read m) (answer : o.Res) :
    (stage.next cfg o answer).Read ((headerWatch ρ).next o answer m) := by
  cases hmakes with
  | dropped => exact rfl
  | evicted => exact congrArg (·, answer) hread
  | allowance | note => exact Round.read_stage _
  | link | rate | silence =>
    show Stage.Read _ (if _ then _ else _)
    split <;> trivial
  | packet | scan =>
    show Stage.Read _ (if _ then _ else if _ then _ else _)
    split
    · trivial
    · split <;> trivial
  | send =>
    show Stage.Read _ (if _ then _ else _)
    split
    · trivial
    · exact Round.read_ended _
  | _ => trivial

theorem obeys_dispatch : (dispatch (ρ := ρ) cfg).Obeys (headerWatch ρ) m :=
  ((dispatch_stages ρ cfg).simulate (fun stage m => stage.Read m) Stage.Makes.header
    Stage.Makes.read_next trivial).obeys

/-- **Every header carries the counters as they were last read**, whatever the service handles. -/
theorem obeys_executeEvent (e : Event) :
    (executeEvent (ρ := ρ) cfg e).Obeys (serviceWatch ρ) m := by
  have hdispatch : Prog.Obeys (serviceWatch ρ) (do
      let enabled ← serviceCall .dispatchEnabled
      if !enabled then pure () else serviceCycle cfg) m := by
    refine ⟨trivial, fun enabled => ?_⟩
    show Prog.Obeys _ (if _ then _ else _) _
    split
    · trivial
    · refine Prog.Obeys.hoist (fun _ _ h => ?_) (fun _ _ _ => ?_) obeys_dispatch
      · exact h
      · rfl
  cases e with
  | joinNetwork => exact ⟨trivial, fun _ => ⟨trivial, fun _ => trivial⟩⟩
  | startDispatch => exact ⟨trivial, fun _ => ⟨trivial, fun _ => trivial⟩⟩
  | stopDispatch => exact ⟨trivial, fun _ => ⟨trivial, fun _ => trivial⟩⟩
  | dispatchDue => exact hdispatch
  | dispatchNow => exact hdispatch

end Concentrator.Comms
