import Concentrator.App.StateMachine
import Concentrator.Eda.StateMachine

/-!
# The application's state machine, as code

`app::StateMachine` derives from `eda::StateMachine`: its states' actions and handlers are programs
over the machine's operations (`behaviour`), and `transition_to()` sets the identifier of the
current state behind the transition. The table of actions that the composed system carries out
(`dispatchEvent`) is what these programs do: `session_refines` follows the machine through any
events.
-/

namespace Concentrator.App

open Eda

/-- What the programs of the states do outside of the machine. -/
inductive Effect where
  /-- An action that is no transition. -/
  | act (a : Action)
  /-- `m_current_state_id = state_id` -/
  | setCurrentStateId (id : StateId)
  deriving DecidableEq

/-- A program of a state. -/
abbrev StateProg : Type := MachineProg StateId Effect Unit

/-- Do one action. -/
abbrev act (a : Action) : StateProg := machineCall (.effect (.act a))

/-- Change the state, and then its identifier. Reference:
`app/state_machine/state_machine.cpp:58 transition_to`. -/
def changeTo (id : StateId) : StateProg := do
  machineCall (.changeState (some id))
  machineCall (.effect (.setCurrentStateId id))

/-- Reference: `entry()` of `app/state_machine/*/*.cpp`. -/
def entryProg : StateId → StateProg
  | .startup => do
    act (.sendToAcquisition .startScan)
    act (.sendToComms .joinNetwork)
  | .listening => act (.sendToComms .startDispatch)
  | .dispatching => pure ()
  | .softError => do
    act (.setErrorLed true)
    act .scheduleRetry
  | .hardError => do
    act (.report .unrecoverable)
    act (.sendToAcquisition .stopScan)
    act (.sendToComms .stopDispatch)

/-- Reference: `exit()` of `app/state_machine/*/*.cpp`. -/
def exitProg : StateId → StateProg
  | .softError => do
    act .stopRetryTimer
    act (.setErrorLed false)
  | _ => pure ()

/-- Reference: `dispatch_event()` of `app/state_machine/*/*.cpp`. -/
def handlerProg : StateId → Option Event → StateProg
  | .startup, some .networkJoined => changeTo .listening
  | .startup, some .networkJoinFailed => changeTo .softError
  | .startup, some .servicesFailed => changeTo .hardError
  | .listening, some .dispatchStarted => changeTo .dispatching
  | .listening, some .softError => changeTo .softError
  | .listening, some .hardError => changeTo .hardError
  | .dispatching, some .dispatchFinished => changeTo .listening
  | .dispatching, some .softError => changeTo .softError
  | .dispatching, some .hardError => changeTo .hardError
  | .softError, some .retryTimeout => act (.sendToComms .joinNetwork)
  | .softError, some .networkJoinFailed => act .scheduleRetry
  | .softError, some .networkJoined => do
    act .resetRetryDelay
    changeTo .listening
  | .softError, some .hardError => changeTo .hardError
  | _, _ => pure ()

/-- The application's states, for events by their ids. Reference:
`app/state_machine/state_machine.cpp:47 init_action`. -/
def behaviour : Behaviour StateId UInt32 Effect where
  initAction := do
    machineCall (.setNextState (some .startup))
    machineCall (.effect (.setCurrentStateId .startup))
  entry := entryProg
  exit := exitProg
  dispatchEvent state id := handlerProg state (Event.ofId id)

/-! ## What the programs do -/

/-- The actions of a trace, in order: entering a state is the change to it. -/
def actionsOf (trace : List (Mark StateId Effect)) : List Action :=
  trace.reverse.filterMap fun
    | .entered s => some (.setState s)
    | .did (.act a) => some a
    | _ => none

/-- `m_current_state_id`: the identifier that was set last. -/
def currentStateId : List (Mark StateId Effect) → Option StateId
  | [] => none
  | .did (.setCurrentStateId id) :: _ => some id
  | _ :: trace => currentStateId trace

/-- What the table does with events, from a state on. -/
def handled : StateId → List UInt32 → List Action
  | _, [] => []
  | state, id :: ids =>
    dispatchId state id ++ handled (settle state (dispatchId state id)) ids

/-- The machine is where the table is after these actions, and the identifier is that of its
state. -/
structure Refines (m : Eda.StateMachine StateId Effect) (state : StateId) (done : List Action) :
    Prop where
  current : m.current = some state
  currentStateId : currentStateId m.trace = some state
  actions : actionsOf m.trace = done

section
variable (trace : List (Mark StateId Effect))

@[simp] theorem actionsOf_entered (s : StateId) :
    actionsOf (.entered s :: trace) = actionsOf trace ++ [.setState s] := by
  unfold actionsOf
  rw [List.reverse_cons, List.filterMap_append]
  rfl

@[simp] theorem actionsOf_exited (s : StateId) :
    actionsOf (.exited s :: trace) = actionsOf trace := by
  unfold actionsOf
  rw [List.reverse_cons, List.filterMap_append]
  exact List.append_nil _

@[simp] theorem actionsOf_act (a : Action) :
    actionsOf (.did (.act a) :: trace) = actionsOf trace ++ [a] := by
  unfold actionsOf
  rw [List.reverse_cons, List.filterMap_append]
  rfl

@[simp] theorem actionsOf_setCurrentStateId (id : StateId) :
    actionsOf (.did (.setCurrentStateId id) :: trace) = actionsOf trace := by
  unfold actionsOf
  rw [List.reverse_cons, List.filterMap_append]
  exact List.append_nil _

end

/-- A transition does the exit actions of the old state and the entry actions of the new one. -/
theorem run_changeTo (fuel : Nat) (new : StateId) {m : Eda.StateMachine StateId Effect}
    {state : StateId} {done : List Action} (h : Refines m state done) :
    ∃ m', behaviour.run (fuel + 2) (changeTo new) m = .ok m' ∧
      Refines m' new (done ++ transitionTo state new) := by
  obtain ⟨current, previous, next, trace⟩ := m
  obtain ⟨rfl, hid, rfl⟩ := h
  cases state <;> cases new <;>
    exact ⟨_, rfl, rfl, rfl, by simp [transitionTo, entry, exit]⟩

theorem settle_transitionTo (state new : StateId) :
    settle state (transitionTo state new) = new := by
  cases state <;> cases new <;> rfl

theorem settle_append (state : StateId) (as as' : List Action) :
    settle state (as ++ as') = settle (settle state as) as' :=
  List.foldl_append

/-- Only a transition changes the state. -/
theorem settle_cons {a : Action} (ha : ∀ s, a ≠ .setState s) (state : StateId) (as : List Action) :
    settle state (a :: as) = settle state as := by
  cases a with
  | setState s => exact absurd rfl (ha s)
  | _ => rfl

/-- An action that is no transition, and what is done behind it. -/
theorem Refines.act {m : Eda.StateMachine StateId Effect} {state : StateId} {done : List Action}
    (h : Refines m state done) (a : Action) :
    Refines (m.mark (.did (.act a))) state (done ++ [a]) :=
  ⟨h.current, h.currentStateId, by simp [h.actions]⟩

/-- Everything a handler is: it ignores the event, acts, makes a transition, or acts first. -/
theorem handlerProg_cases (state : StateId) (e : Option Event) :
    (handlerProg state e = pure () ∧ e.elim [] (dispatchEvent state) = []) ∨
    (∃ a, (∀ s, a ≠ .setState s) ∧ handlerProg state e = act a ∧
      e.elim [] (dispatchEvent state) = [a]) ∨
    (∃ new, handlerProg state e = changeTo new ∧
      e.elim [] (dispatchEvent state) = transitionTo state new) ∨
    ∃ a new, (∀ s, a ≠ .setState s) ∧ handlerProg state e = (do act a; changeTo new) ∧
      e.elim [] (dispatchEvent state) = a :: transitionTo state new := by
  rcases e with _ | e
  · exact .inl ⟨by cases state <;> rfl, rfl⟩
  · cases state <;> cases e <;> first
      | exact .inl ⟨rfl, rfl⟩
      | exact .inr (.inl ⟨_, fun _ => Action.noConfusion, rfl, rfl⟩)
      | exact .inr (.inr (.inl ⟨_, rfl, rfl⟩))
      | exact .inr (.inr (.inr ⟨_, _, fun _ => Action.noConfusion, rfl, rfl⟩))

/-- One event: the machine does what the table says. -/
theorem dispatch_refines (fuel : Nat) (id : UInt32) {m : Eda.StateMachine StateId Effect}
    {state : StateId} {done : List Action} (h : Refines m state done) :
    ∃ m', behaviour.dispatch (fuel + 2) m id = .ok m' ∧
      Refines m' (settle state (dispatchId state id)) (done ++ dispatchId state id) := by
  have hdispatch : behaviour.dispatch (fuel + 2) m id =
      behaviour.run (fuel + 2) (handlerProg state (Event.ofId id)) m := by
    unfold Behaviour.dispatch
    rw [h.current]
    rfl
  have htable : dispatchId state id = (Event.ofId id).elim [] (dispatchEvent state) := by
    unfold dispatchId
    cases Event.ofId id <;> rfl
  rw [hdispatch, htable]
  rcases handlerProg_cases state (Event.ofId id) with
    ⟨hprog, htable⟩ | ⟨a, ha, hprog, htable⟩ | ⟨new, hprog, htable⟩ |
      ⟨a, new, ha, hprog, htable⟩ <;>
    rw [hprog, htable]
  · exact ⟨m, rfl, h.current, h.currentStateId, by rw [List.append_nil, h.actions]⟩
  · rw [settle_cons ha]
    exact ⟨_, rfl, h.act a⟩
  · rw [settle_transitionTo]
    exact run_changeTo fuel new h
  · obtain ⟨m', hm', hrefines⟩ := run_changeTo fuel new (h.act a)
    rw [settle_cons ha, settle_transitionTo]
    refine ⟨m', hm', ?_⟩
    rw [List.append_cons]
    exact hrefines

/-- Any events. The induction is on the events. -/
theorem dispatchAll_refines (fuel : Nat) (ids : List UInt32) {m : Eda.StateMachine StateId Effect}
    {state : StateId} {done : List Action} (h : Refines m state done) :
    ∃ m', behaviour.dispatchAll (fuel + 2) ids m = .ok m' ∧
      Refines m' (settle state (handled state ids)) (done ++ handled state ids) := by
  induction ids generalizing m state done with
  | nil => exact ⟨m, rfl, h.current, h.currentStateId, by simp [handled, h.actions]⟩
  | cons id ids ih =>
    obtain ⟨m₁, hm₁, h₁⟩ := dispatch_refines fuel id h
    obtain ⟨m₂, hm₂, h₂⟩ := ih h₁
    refine ⟨m₂, ?_, ?_⟩
    · show (behaviour.dispatch (fuel + 2) m id >>= behaviour.dispatchAll (fuel + 2) ids) = _
      rw [hm₁]
      exact hm₂
    · rw [handled, settle_append, ← List.append_assoc]
      exact h₂

/-- No exit action makes a transition. -/
theorem exitProg_still (state : StateId) : (exitProg state).Obeys (still StateId Effect) () := by
  cases state with
  | softError => exact ⟨id, fun _ => ⟨id, fun _ => trivial⟩⟩
  | _ => exact trivial

/-- **The table is what the machine does.** Through any events, known to a state or not, the
machine calls through no null pointer and nests no transition in another; it does the actions of the
table, in their order, and stands in the state that these leave, with the identifier of that state.
Every state was left once before the next was entered. -/
theorem session_refines (fuel : Nat) (ids : List UInt32) :
    ∃ m, behaviour.session (fuel + 2) none ids = .ok m ∧
      Refines m (settle .startup (handled .startup ids))
        (.setState .startup :: entry .startup ++ handled .startup ids) ∧
      Alternates (some (settle .startup (handled .startup ids))) m.trace := by
  obtain ⟨m₀, hinit, h₀⟩ : ∃ m₀, behaviour.init (fuel + 2) ⟨none, none, none, []⟩ = .ok m₀ ∧
      Refines m₀ .startup (.setState .startup :: entry .startup) :=
    ⟨_, rfl, rfl, rfl, rfl⟩
  obtain ⟨m, hm, h⟩ := dispatchAll_refines fuel ids h₀
  have hsession : behaviour.session (fuel + 2) none ids = .ok m := by
    unfold Behaviour.session
    rw [hinit]
    exact hm
  refine ⟨m, hsession, h, ?_⟩
  have hstill : behaviour.initAction.Obeys (still StateId Effect) () :=
    ⟨id, fun _ => ⟨id, fun _ => trivial⟩⟩
  have hends := Behaviour.dispatchAll_ends (B := behaviour) exitProg_still (fuel + 2) ids
    (Behaviour.settled_of_init hstill exitProg_still hinit)
  rw [hm] at hends
  obtain ⟨s, hcurrent, hinside⟩ := hends.inside
  cases h.current.symm.trans hcurrent
  exact hinside

end Concentrator.App
