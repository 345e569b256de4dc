import Concentrator.App.Backoff
import Concentrator.Firmware.Discipline

/-!
# The retry timer of the firmware

In the firmware the events come out of a queue, and the other threads act between them. Whatever
they do, the state machine and its timer do what the machine of `App.Backoff` does
(`follows_reach`), so the firmware's retries keep to the same closed form (`retryTimer_armed`).
-/

namespace Concentrator

open Threaded

namespace App

/-- The id of an event. -/
def Event.id : Event → UInt32
  | .servicesReady => 1
  | .servicesFailed => 2
  | .networkJoined => 3
  | .networkJoinFailed => 4
  | .dispatchStarted => 5
  | .dispatchFinished => 6
  | .softError => 7
  | .hardError => 8
  | .retryTimeout => 9

theorem ofId_id (e : Event) : Event.ofId e.id = some e := by
  cases e <;> rfl

/-- A handler runs to its end. The induction is on what it has still to do. -/
theorem reachable_acts {r : Retry} {todo : List Action} {log : List LogItem}
    (h : retries.Reachable ⟨r, todo, log⟩) :
    ∃ log', retries.Reachable ⟨todo.foldl Retry.carryOut r, [], log'⟩ := by
  induction todo generalizing r log with
  | nil => exact ⟨log, h⟩
  | cons a todo ih => exact ih (h.step Step.act rfl)

end App

namespace System

variable {T : Transport} {ρ : Type} {cfg : Config}

/-- What the backoff is about. -/
def State.retry (s : State T ρ cfg) : App.Retry := ⟨s.state, s.retryDelayMs, s.retryTimer⟩

/-- The state machine is where its own machine may be between two events. -/
def Follows (s : State T ρ cfg) : Prop := ∃ log, App.retries.Reachable ⟨s.retry, [], log⟩

/-- The induction is on the actions. -/
theorem foldl_carryOut_retry (actions : List App.Action) (s : State T ρ cfg) :
    (actions.foldl State.carryOut s).retry = actions.foldl App.Retry.carryOut s.retry := by
  induction actions generalizing s with
  | nil => rfl
  | cons a actions ih =>
    have ha : (s.carryOut a).retry = s.retry.carryOut a := by cases a <;> rfl
    refine (ih (s.carryOut a)).trans ?_
    rw [ha]
    rfl

namespace Follows

variable {s s' : State T ρ cfg}

theorem congr (h : Follows s) (heq : s'.retry = s.retry) : Follows s' := by
  unfold Follows
  rw [heq]
  exact h

theorem handleEvent (h : Follows s) : Follows s.handleEvent := by
  rcases handleEvent_cases s with ⟨-, hs⟩ | ⟨e, q, -, hs⟩ <;> rw [hs]
  · exact h
  · obtain ⟨log, hreach⟩ := h
    have hhandled : App.retries.Reachable
        ⟨s.retry, App.dispatchId s.state e.id, .handled s.state e.id :: log⟩ :=
      hreach.step (App.Step.handle e.id) rfl
    unfold App.dispatchId at hhandled
    rw [App.ofId_id] at hhandled
    unfold Follows
    rw [foldl_carryOut_retry]
    exact App.reachable_acts hhandled

theorem expireRetryTimer (h : Follows s) : Follows s.expireRetryTimer := by
  unfold State.expireRetryTimer
  split
  · exact h
  · next delayMs harmed =>
    obtain ⟨log, hreach⟩ := h
    refine ⟨log, hreach.step App.Step.expire ?_⟩
    have hrunning : s.retry.retryTimer.isSome = true := by
      show s.retryTimer.isSome = true
      rw [harmed]
      rfl
    exact if_pos hrunning

/-- The other threads and the timers. -/
theorem run [AsReading ρ] (h : Follows s) (x : Act) : Follows (x.run s) := by
  cases x with
  | handleEvent => exact h.handleEvent
  | expireRetryTimer => exact h.expireRetryTimer
  | world x => exact h.congr rfl
  | postBringUp =>
    refine h.congr ?_
    show s.postBringUp.retry = s.retry
    rcases postBringUp_cases s with hs | ⟨e, -, hs⟩ <;> rw [hs]
    rfl
  | expireDispatchTimer =>
    refine h.congr ?_
    show s.expireDispatchTimer.retry = s.retry
    rcases expireDispatchTimer_cases s with hs | ⟨-, hs⟩ <;> rw [hs]
    rfl
  | executeCommand result =>
    refine h.congr ?_
    show (s.executeCommand result).retry = s.retry
    rcases executeCommand_cases result s with hs | ⟨q, isScanning, hs⟩ <;> rw [hs]
    rfl

/-- A call of the comms service. -/
theorem perform [AsReading ρ] (h : Follows s) (o : Comms.ServiceOp ρ) (ans : T.Answer) :
    Follows (perform o ans s).2 := by
  cases o <;> exact h.congr rfl

end Follows

theorem follows_broughtUp [AsReading ρ] (acquisitionReady linkReady : Bool) :
    Follows (.broughtUp acquisitionReady linkReady : State T ρ cfg) := by
  have hentered := App.reachable_acts (.init rfl : App.retries.Reachable .initial)
  unfold Follows State.broughtUp
  rw [foldl_carryOut_retry]
  exact hentered

end System

namespace Firmware

variable {T : Transport} {ρ : Type} [AsReading ρ] {cfg : Config}

/-- **The firmware's retries are those of the state machine**, in every run after any bring-up,
whoever posts what to the application. -/
theorem follows_reach {acquisitionReady linkReady : Bool} {c : (firmware T ρ cfg).Conf}
    (hc : Reach .all (booted T ρ cfg acquisitionReady linkReady) c) :
    System.Follows c.state.core := by
  refine hc.kept (I := fun s : State T ρ cfg => System.Follows s.core) (fun x s _ h => ?_)
    (fun o ans s _ h => ?_) (fun s p s' h hstart => ?_) (fun s h => ?_) rfl
    (System.follows_broughtUp acquisitionReady linkReady)
  · rcases run_core x s with ⟨y, hs⟩ | ⟨q, isScanning, ledger, led, hs⟩ | ⟨e, -, hs⟩ |
        ⟨e, -, hs⟩ <;>
      rw [hs]
    · exact h.run y
    · exact h.congr rfl
    · exact h.congr rfl
    · exact h.congr rfl
  · exact h.perform o ans
  · obtain ⟨e, q, -, -, rfl⟩ := start_eq_some hstart
    exact h.congr rfl
  · exact h.congr rfl

/-- An armed retry timer: the application is in `SOFT_ERROR`, and the delay is one of the closed
form. -/
theorem retryTimer_armed {acquisitionReady linkReady : Bool} {c : (firmware T ρ cfg).Conf}
    (hc : Reach .all (booted T ρ cfg acquisitionReady linkReady) c) {delayMs : UInt32}
    (harmed : c.state.core.retryTimer = some delayMs) :
    c.state.core.state = .softError ∧ ∃ k, delayMs.toNat = App.backoffMs k := by
  obtain ⟨log, hreach⟩ := follows_reach hc
  have hsettled := App.fine_reachable hreach
  have hlast := hsettled.last delayMs harmed
  refine ⟨hsettled.scope ?_, (App.armings log).length - 1, hsettled.closed _ _ ?_⟩
  · intro hnone
    exact nomatch harmed.symm.trans hnone
  · rw [← List.getLast?_eq_getElem?]
    exact hlast

end Firmware

end Concentrator
