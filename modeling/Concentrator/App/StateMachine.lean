import Concentrator.Eda.Events

/-!
# The application's state machine

What the application does with an event is a list of actions on the rest of the system, in order:
`dispatchEvent` is the whole table, and a transition is the exit actions of the old state, the
change, and the entry actions of the new one. The actions are carried out by the system
(`Concentrator.System`).
-/

namespace Concentrator.App

/-- The states. Reference: `app/state_machine/state_machine.hpp:23 StateId`. -/
inductive StateId where
  | startup
  | listening
  | dispatching
  | softError
  | hardError
  deriving DecidableEq

/-- What a handler does. -/
inductive Action where
  | sendToAcquisition (e : Acquisition.Event)
  | sendToComms (e : Comms.Event)
  /-- `s_retry_delay_ms = SOFT_ERROR_RETRY_MS` -/
  | resetRetryDelay
  | scheduleRetry
  | stopRetryTimer
  | setErrorLed (on : Bool)
  | report (reason : Eda.Reason)
  /-- `m_current_state = new_state` -/
  | setState (new : StateId)
  deriving DecidableEq

/-- Delay before the first retry. Reference: `app/app_config.hpp:21 SOFT_ERROR_RETRY_MS`. -/
def SOFT_ERROR_RETRY_MS : UInt32 := 30 * 1000

/-- Longest delay between retries. Reference: `app/app_config.hpp:29 SOFT_ERROR_RETRY_MAX_MS`. -/
def SOFT_ERROR_RETRY_MAX_MS : UInt32 := 15 * 60 * 1000

/-- The delay after the one that was just armed. Reference:
`app/state_machine/soft_error/soft_error.cpp:67-74`. -/
def nextRetryDelayMs (delayMs : UInt32) : UInt32 :=
  if delayMs > SOFT_ERROR_RETRY_MAX_MS / 2 then SOFT_ERROR_RETRY_MAX_MS else delayMs * 2

/-- What entering a state does. Reference: `entry()` of `app/state_machine/*/*.cpp`. -/
def entry : StateId → List Action
  | .startup => [.sendToAcquisition .startScan, .sendToComms .joinNetwork]
  | .listening => [.sendToComms .startDispatch]
  | .dispatching => []
  | .softError => [.setErrorLed true, .scheduleRetry]
  | .hardError =>
    [.report .unrecoverable, .sendToAcquisition .stopScan, .sendToComms .stopDispatch]

/-- What leaving a state does. Reference: `exit()` of `app/state_machine/*/*.cpp`. -/
def exit : StateId → List Action
  | .softError => [.stopRetryTimer, .setErrorLed false]
  | _ => []

/-- A transition. Reference: `eda/state_machine/state_machine.cpp:43 change_state`,
`app/state_machine/state_machine.cpp:58 transition_to`. -/
def transitionTo (current new : StateId) : List Action := exit current ++ .setState new :: entry new

/-- What a state does with an event. Reference: `dispatch_event()` of
`app/state_machine/*/*.cpp`. -/
def dispatchEvent (current : StateId) : Event → List Action :=
  match current with
  | .startup => fun
    | .networkJoined => transitionTo current .listening
    | .networkJoinFailed => transitionTo current .softError
    | .servicesFailed => transitionTo current .hardError
    | _ => []
  | .listening => fun
    | .dispatchStarted => transitionTo current .dispatching
    | .softError => transitionTo current .softError
    | .hardError => transitionTo current .hardError
    | _ => []
  | .dispatching => fun
    | .dispatchFinished => transitionTo current .listening
    | .softError => transitionTo current .softError
    | .hardError => transitionTo current .hardError
    | _ => []
  | .softError => fun
    | .retryTimeout => [.sendToComms .joinNetwork]
    | .networkJoinFailed => [.scheduleRetry]
    | .networkJoined => .resetRetryDelay :: transitionTo current .listening
    | .hardError => transitionTo current .hardError
    | _ => []
  | .hardError => fun _ => []

/-- The event an id stands for; `INVALID` and all other ids are none that a state knows. Reference:
`app/port.hpp:18 Event`. -/
def Event.ofId : UInt32 → Option Event
  | 1 => some .servicesReady
  | 2 => some .servicesFailed
  | 3 => some .networkJoined
  | 4 => some .networkJoinFailed
  | 5 => some .dispatchStarted
  | 6 => some .dispatchFinished
  | 7 => some .softError
  | 8 => some .hardError
  | 9 => some .retryTimeout
  | _ => none

/-- What a state does with an id. Reference: `app/port.cpp:15 execute_event`,
`eda/state_machine/state_machine.cpp:35 dispatch_event`. -/
def dispatchId (current : StateId) (id : UInt32) : List Action :=
  match Event.ofId id with
  | none => []
  | some e => dispatchEvent current e

/-- The state that actions leave. -/
def settle (current : StateId) (actions : List Action) : StateId :=
  actions.foldl (fun state => fun
    | .setState new => new
    | _ => state) current

/-- The events that actions post to comms. -/
def commsPosts (actions : List Action) : List Comms.Event :=
  actions.filterMap fun
    | .sendToComms e => some e
    | _ => none

/-- A handler posts one event to comms at most: to stop where it enters `HARD_ERROR`, which no event
leaves and where nothing is posted. -/
theorem commsPosts_dispatchEvent (current : StateId) (e : Event) :
    (commsPosts (dispatchEvent current e)).length ≤ 1 ∧
      (.stopDispatch ∈ commsPosts (dispatchEvent current e) →
        settle current (dispatchEvent current e) = .hardError) ∧
      (current = .hardError → dispatchEvent current e = []) := by
  cases current <;> cases e <;> decide

/-- Where a handler enters `HARD_ERROR`, it makes that transition and does nothing else. -/
theorem dispatchEvent_hardError {current : StateId} {e : Event} (hstate : current ≠ .hardError)
    (henter : settle current (dispatchEvent current e) = .hardError) :
    dispatchEvent current e = transitionTo current .hardError := by
  revert hstate henter
  cases current <;> cases e <;> decide

/-- An event that leads no state to `HARD_ERROR`. -/
def Event.Harmless (e : Event) : Prop := e ≠ .servicesFailed ∧ e ≠ .hardError

/-- What is done with an event that does not lead to `HARD_ERROR` posts nothing to acquisition. -/
theorem Event.Harmless.posts {e : Event} (h : e.Harmless) (current : StateId)
    (e' : Acquisition.Event) : .sendToAcquisition e' ∉ dispatchEvent current e := by
  obtain ⟨hfailed, hhard⟩ := h
  revert hfailed hhard
  cases current <;> cases e <;> cases e' <;> decide

end Concentrator.App
