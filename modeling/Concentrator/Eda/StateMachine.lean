import Concentrator.Lib.Monitor

/-!
# The state machine class

`eda::StateMachine` keeps three pointers to states: the current one, the one before it, and one that
may be set to be next. Entry and exit actions and event handlers are code of the states, and any of
them may call the machine again, so a transition can take place inside another. An action is a
program over the machine's operations (`MachineOp`), and a call of the machine runs the actions it
reaches; `fuel` bounds how deep calls are nested.

`session_alternates` says what the class guarantees of all this: as long as exit actions make no
transition, entries and exits alternate, whatever entry actions and handlers do.
-/

namespace Concentrator.Eda

variable {σ ε α : Type}

/-- The operations of a machine with states `σ`, as its states call them; `effect` is anything
outside of the machine. A `none` is a null pointer. Reference:
`eda/state_machine/state_machine.hpp:66 StateMachine`. -/
inductive MachineOp (σ α : Type) where
  | changeState (newState : Option σ)
  | returnToLastState
  | changeToNextState
  | setNextState (nextState : Option σ)
  | getLastState
  | nextStateIsSet
  | effect (a : α)

/-- The answer to each operation. -/
@[reducible] def MachineOp.Res : MachineOp σ α → Type
  | .getLastState => Option σ
  | .nextStateIsSet => Bool
  | .changeState _ | .returnToLastState | .changeToNextState | .setNextState _ | .effect _ => Unit

/-- The operations that make a transition. -/
def MachineOp.Transitions : MachineOp σ α → Prop
  | .changeState _ | .returnToLastState | .changeToNextState => True
  | .setNextState _ | .getLastState | .nextStateIsSet | .effect _ => False

/-- The operations, as a signature. -/
abbrev MachineSig (σ α : Type) : Sig := ⟨MachineOp σ α, MachineOp.Res⟩

/-- A program over the operations: an action or a handler. -/
abbrev MachineProg (σ α β : Type) : Type := Prog (MachineSig σ α) β

/-- Call the machine once. -/
abbrev machineCall (o : MachineOp σ α) : MachineProg σ α o.Res :=
  Prog.op (S := MachineSig σ α) o

/-- What a derived machine and its states define. Reference:
`eda/state_machine/state_machine.hpp:26 State`, `:87 init_action`. -/
structure Behaviour (σ ε α : Type) where
  initAction : MachineProg σ α Unit
  entry : σ → MachineProg σ α Unit
  exit : σ → MachineProg σ α Unit
  dispatchEvent : σ → ε → MachineProg σ α Unit

/-- What a trace keeps: that an entry or an exit action was called, and the effects. -/
inductive Mark (σ α : Type) where
  | entered (s : σ)
  | exited (s : σ)
  | did (a : α)
  deriving DecidableEq

/-- The pointers of a machine, with its trace, the latest mark first. Reference:
`eda/state_machine/state_machine.hpp:131-140`. -/
structure StateMachine (σ α : Type) where
  current : Option σ
  previous : Option σ
  next : Option σ
  trace : List (Mark σ α)
  deriving DecidableEq

/-- Why a call does not return: it is nested too deep, or a null pointer is called through, which is
named by the pointer it was read from. -/
inductive Fault where
  | outOfFuel
  | nullCurrent
  | nullPrevious
  | nullNext
  | nullNew
  deriving DecidableEq

namespace StateMachine

/-- Add a mark to the trace. -/
def mark (item : Mark σ α) (m : StateMachine σ α) : StateMachine σ α :=
  { m with trace := item :: m.trace }

@[simp] theorem mark_trace (item : Mark σ α) (m : StateMachine σ α) :
    (m.mark item).trace = item :: m.trace := rfl

end StateMachine

/-- Run a program whose operations are performed by `perform`. -/
def interpret {M β : Type}
    (perform : (o : MachineOp σ α) → M → Except Fault (o.Res × M)) :
    MachineProg σ α β → M → Except Fault (β × M)
  | .pure b, m => .ok (b, m)
  | .call o k, m =>
    match perform o m with
    | .error fault => .error fault
    | .ok (r, m) => interpret perform (k r) m

namespace Behaviour

variable (B : Behaviour σ ε α)

section
variable (run : MachineProg σ α Unit → StateMachine σ α → Except Fault (StateMachine σ α))

/-- `m_current_state->exit()` -/
def runExit (m : StateMachine σ α) : Except Fault (StateMachine σ α) :=
  match m.current with
  | none => .error .nullCurrent
  | some s => run (B.exit s) (m.mark (.exited s))

/-- `m_current_state->entry()`, where the pointer was read from the one the fault names. -/
def runEntry (fault : Fault) (m : StateMachine σ α) : Except Fault (StateMachine σ α) :=
  match m.current with
  | none => .error fault
  | some s => run (B.entry s) (m.mark (.entered s))

/-- Reference: `eda/state_machine/state_machine.cpp:43 change_state`. -/
def changeState (newState : Option σ) (m : StateMachine σ α) :
    Except Fault (StateMachine σ α) := do
  let m ← B.runExit run m
  B.runEntry run .nullNew { m with previous := m.current, current := newState }

/-- Reference: `eda/state_machine/state_machine.cpp:56 return_to_last_state`. -/
def returnToLastState (m : StateMachine σ α) : Except Fault (StateMachine σ α) := do
  let m ← B.runExit run m
  B.runEntry run .nullPrevious { m with current := m.previous, previous := m.current }

/-- Reference: `eda/state_machine/state_machine.cpp:66 change_to_next_state`. -/
def changeToNextState (m : StateMachine σ α) : Except Fault (StateMachine σ α) := do
  let m ← B.runExit run m
  B.runEntry run .nullNext { m with previous := m.current, current := m.next, next := none }

/-- What an operation does. Reference: `eda/state_machine/state_machine.cpp:51 get_last_state`,
`:75 set_next_state`, `:80 next_state_is_set`. -/
def perform : (o : MachineOp σ α) → StateMachine σ α → Except Fault (o.Res × StateMachine σ α)
  | .changeState newState, m => (B.changeState run newState m).map fun m => ((), m)
  | .returnToLastState, m => (B.returnToLastState run m).map fun m => ((), m)
  | .changeToNextState, m => (B.changeToNextState run m).map fun m => ((), m)
  | .setNextState nextState, m => .ok ((), { m with next := nextState })
  | .getLastState, m => .ok (m.previous, m)
  | .nextStateIsSet, m => .ok (m.next.isSome, m)
  | .effect a, m => .ok ((), m.mark (.did a))

end

/-- Run an action, and the actions of the transitions it makes. -/
def run :
    (fuel : Nat) → MachineProg σ α Unit → StateMachine σ α → Except Fault (StateMachine σ α)
  | 0, _, _ => .error .outOfFuel
  | fuel + 1, p, m => (interpret (B.perform (run fuel)) p m).map Prod.snd

/-- The initial transition. Reference: `eda/state_machine/state_machine.cpp:18 init`. -/
def init (fuel : Nat) (m : StateMachine σ α) : Except Fault (StateMachine σ α) := do
  let m ← B.run fuel B.initAction m
  let m :=
    if m.next.isSome then { m with previous := m.next, current := m.next, next := none } else m
  B.runEntry (B.run fuel) .nullCurrent m

/-- Hand an event to the current state, if there is one. Reference:
`eda/state_machine/state_machine.cpp:35 dispatch_event`. -/
def dispatch (fuel : Nat) (m : StateMachine σ α) (e : ε) : Except Fault (StateMachine σ α) :=
  match m.current with
  | none => .ok m
  | some s => B.run fuel (B.dispatchEvent s e) m

/-- The events dispatched one after the other. -/
def dispatchAll (fuel : Nat) : List ε → StateMachine σ α → Except Fault (StateMachine σ α)
  | [], m => .ok m
  | e :: es, m => do
    let m ← B.dispatch fuel m e
    dispatchAll fuel es m

/-- A machine that is constructed with an initial state or without one, initialised, and handed the
events. Reference: `eda/state_machine/state_machine.hpp:73 StateMachine`. -/
def session (fuel : Nat) (initialState : Option σ) (es : List ε) :
    Except Fault (StateMachine σ α) := do
  let m ← B.init fuel ⟨initialState, none, none, []⟩
  B.dispatchAll fuel es m

end Behaviour

/-! ## Entries and exits -/

/-- Entries and exits alternate, and the machine is in the given state, or between two states. -/
inductive Alternates : Option σ → List (Mark σ α) → Prop
  | start : Alternates none []
  | entered {trace : List (Mark σ α)} (s : σ) : Alternates none trace →
      Alternates (some s) (.entered s :: trace)
  | exited {trace : List (Mark σ α)} {s : σ} : Alternates (some s) trace →
      Alternates none (.exited s :: trace)
  | did {state : Option σ} {trace : List (Mark σ α)} (a : α) : Alternates state trace →
      Alternates state (.did a :: trace)

/-- The state that was left last. -/
def lastExited : List (Mark σ α) → Option σ
  | [] => none
  | .exited s :: _ => some s
  | .entered _ :: trace | .did _ :: trace => lastExited trace

variable (σ α) in
/-- Allows what makes no transition. -/
def still : Monitor (MachineSig σ α) Unit where
  allows _ o := ¬ o.Transitions
  next _ _ _ := ()

/-- What a machine is between two operations; `twoPhase` says that it was initialised with a next
state. -/
structure Settled (twoPhase : Prop) (m : StateMachine σ α) : Prop where
  inside : ∃ s, m.current = some s ∧ Alternates (some s) m.trace
  previous : m.previous = lastExited m.trace ∨
    lastExited m.trace = none ∧ (m.previous = none ∨ m.previous = m.current)
  set : twoPhase → m.previous ≠ none

/-- How a call ends: with `Q`, or with a fault that is not the machine's own. -/
def Ends {γ : Type} (twoPhase : Prop) (Q : γ → Prop) : Except Fault γ → Prop
  | .ok c => Q c
  | .error fault => fault ≠ .nullCurrent ∧ (twoPhase → fault ≠ .nullPrevious)

theorem Ends.bind {γ δ : Type} {twoPhase : Prop} {P : γ → Prop} {Q : δ → Prop}
    {x : Except Fault γ} {f : γ → Except Fault δ} (hx : Ends twoPhase P x)
    (hf : ∀ c, P c → Ends twoPhase Q (f c)) : Ends twoPhase Q (x >>= f) := by
  cases x with
  | error fault => exact hx
  | ok c => exact hf c hx

theorem Ends.map {γ δ : Type} {twoPhase : Prop} {P : γ → Prop} {Q : δ → Prop}
    {x : Except Fault γ} {f : γ → δ} (hx : Ends twoPhase P x) (hf : ∀ c, P c → Q (f c)) :
    Ends twoPhase Q (x.map f) := by
  cases x with
  | error fault => exact hx
  | ok c => exact hf c hx

/-- What a program without transitions leaves of a machine. -/
structure Still (m m' : StateMachine σ α) : Prop where
  current : m'.current = m.current
  previous : m'.previous = m.previous
  alternates : ∀ state, Alternates state m.trace → Alternates state m'.trace
  lastExited : lastExited m'.trace = lastExited m.trace

theorem Still.trans {m m₁ m₂ : StateMachine σ α} (h : Still m m₁) (h' : Still m₁ m₂) :
    Still m m₂ where
  current := h'.current.trans h.current
  previous := h'.previous.trans h.previous
  alternates state ha := h'.alternates state (h.alternates state ha)
  lastExited := h'.lastExited.trans h.lastExited

namespace Behaviour

variable {B : Behaviour σ ε α} {twoPhase : Prop}

/-- One operation that makes no transition. -/
theorem perform_still (run) {o : MachineOp σ α} (ho : ¬ o.Transitions) (m : StateMachine σ α) :
    ∃ r m', B.perform run o m = .ok (r, m') ∧ Still m m' := by
  cases o with
  | changeState | returnToLastState | changeToNextState => exact absurd trivial ho
  | setNextState nextState => exact ⟨_, _, rfl, rfl, rfl, fun _ h => h, rfl⟩
  | getLastState => exact ⟨_, _, rfl, rfl, rfl, fun _ h => h, rfl⟩
  | nextStateIsSet => exact ⟨_, _, rfl, rfl, rfl, fun _ h => h, rfl⟩
  | effect a => exact ⟨_, _, rfl, rfl, rfl, fun _ h => .did a h, rfl⟩

/-- A program that makes no transition. The induction is on the program. -/
theorem interpret_still (run) {p : MachineProg σ α Unit} (hp : p.Obeys (still σ α) ())
    (m : StateMachine σ α) : ∃ m', interpret (B.perform run) p m = .ok ((), m') ∧ Still m m' := by
  induction p generalizing m with
  | pure _ => exact ⟨m, rfl, rfl, rfl, fun _ h => h, rfl⟩
  | call o k ih =>
    obtain ⟨r, m₁, ho, hstill⟩ := perform_still (B := B) run hp.1 m
    obtain ⟨m₂, hk, hstill'⟩ := ih r (hp.2 r) m₁
    refine ⟨m₂, ?_, hstill.trans hstill'⟩
    unfold interpret
    rw [ho]
    exact hk

/-- Such a program returns, unless it is nested too deep. -/
theorem run_still {p : MachineProg σ α Unit} (hp : p.Obeys (still σ α) ()) (fuel : Nat)
    (m : StateMachine σ α) :
    B.run fuel p m = .error .outOfFuel ∨ ∃ m', B.run fuel p m = .ok m' ∧ Still m m' := by
  cases fuel with
  | zero => exact .inl rfl
  | succ fuel =>
    obtain ⟨m', hm', hstill⟩ := interpret_still (B := B) (B.run fuel) hp m
    refine .inr ⟨m', ?_, hstill⟩
    unfold run
    rw [hm']
    rfl

/-- The machine is between two states: it has left the current one. -/
structure Left (twoPhase : Prop) (m : StateMachine σ α) : Prop where
  between : Alternates none m.trace
  left : ∃ s, m.current = some s ∧ lastExited m.trace = some s
  set : twoPhase → m.previous ≠ none

/-- An exit action leaves the current state. -/
theorem runExit_ends (hexit : ∀ s, (B.exit s).Obeys (still σ α) ()) (fuel : Nat)
    {m : StateMachine σ α} (h : Settled twoPhase m) :
    Ends twoPhase (Left twoPhase) (B.runExit (B.run fuel) m) := by
  obtain ⟨s, hcurrent, hinside⟩ := h.inside
  have hrun : B.runExit (B.run fuel) m = B.run fuel (B.exit s) (m.mark (.exited s)) := by
    unfold runExit
    rw [hcurrent]
  rw [hrun]
  rcases run_still (B := B) (hexit s) fuel (m.mark (.exited s)) with hfuel | ⟨m', hm', hstill⟩
  · rw [hfuel]
    exact ⟨Fault.noConfusion, fun _ => Fault.noConfusion⟩
  · rw [hm']
    refine ⟨hstill.alternates none (.exited hinside), ⟨s, ?_, hstill.lastExited⟩, fun hset => ?_⟩
    · exact hstill.current.trans hcurrent
    · rw [hstill.previous]
      exact h.set hset

/-- A state is entered from between two states, if there is one. -/
theorem runEntry_ends
    {run : MachineProg σ α Unit → StateMachine σ α → Except Fault (StateMachine σ α)}
    (hrun : ∀ p m, Settled twoPhase m → Ends twoPhase (Settled twoPhase) (run p m))
    {m : StateMachine σ α} {fault : Fault} (hbetween : Alternates none m.trace)
    (hprevious : m.previous = lastExited m.trace ∨
      lastExited m.trace = none ∧ (m.previous = none ∨ m.previous = m.current))
    (hset : twoPhase → m.previous ≠ none)
    (hfault : m.current = none → fault ≠ .nullCurrent ∧ (twoPhase → fault ≠ .nullPrevious)) :
    Ends twoPhase (Settled twoPhase) (B.runEntry run fault m) := by
  unfold runEntry
  cases hcurrent : m.current with
  | none => exact hfault hcurrent
  | some s =>
    rw [hcurrent] at hprevious
    exact hrun _ _ ⟨⟨s, hcurrent, .entered s hbetween⟩, hcurrent ▸ hprevious, hset⟩

/-- One operation keeps a machine settled. -/
theorem perform_ends (hexit : ∀ s, (B.exit s).Obeys (still σ α) ()) {fuel : Nat}
    (hrun : ∀ p m, Settled twoPhase m → Ends twoPhase (Settled twoPhase) (B.run fuel p m))
    (o : MachineOp σ α) {m : StateMachine σ α} (h : Settled twoPhase m) :
    Ends twoPhase (fun r => Settled twoPhase r.2) (B.perform (B.run fuel) o m) := by
  have hleft := runExit_ends hexit fuel h
  -- Behind an exit, the pointer to the state that was left becomes the previous one.
  have henter {m' : StateMachine σ α} (hm' : Left twoPhase m') (newState next : Option σ)
      {fault : Fault}
      (hfault : newState = none → fault ≠ .nullCurrent ∧ (twoPhase → fault ≠ .nullPrevious)) :
      Ends twoPhase (Settled twoPhase) (B.runEntry (B.run fuel) fault
        { m' with previous := m'.current, current := newState, next := next }) := by
    obtain ⟨s, hcurrent, hlast⟩ := hm'.left
    refine runEntry_ends hrun hm'.between (.inl ?_) (fun _ => ?_) hfault
    · exact hcurrent.trans hlast.symm
    · rw [hcurrent]
      exact Option.some_ne_none s
  cases o with
  | changeState newState =>
    refine Ends.map (hleft.bind fun m' hm' => henter hm' newState m'.next fun _ => ?_) fun _ h => h
    exact ⟨Fault.noConfusion, fun _ => Fault.noConfusion⟩
  | returnToLastState =>
    refine Ends.map (hleft.bind fun m' hm' => henter hm' m'.previous m'.next fun hnone => ?_)
      fun _ h => h
    exact ⟨Fault.noConfusion, fun hset => absurd hnone (hm'.set hset)⟩
  | changeToNextState =>
    refine Ends.map (hleft.bind fun m' hm' => henter hm' m'.next none fun _ => ?_) fun _ h => h
    exact ⟨Fault.noConfusion, fun _ => Fault.noConfusion⟩
  | setNextState nextState => exact ⟨h.inside, h.previous, h.set⟩
  | getLastState => exact h
  | nextStateIsSet => exact h
  | effect a =>
    obtain ⟨s, hcurrent, hinside⟩ := h.inside
    exact ⟨⟨s, hcurrent, .did a hinside⟩, h.previous, h.set⟩

/-- So does a program. The induction is on the program. -/
theorem interpret_ends (hexit : ∀ s, (B.exit s).Obeys (still σ α) ()) {fuel : Nat}
    (hrun : ∀ p m, Settled twoPhase m → Ends twoPhase (Settled twoPhase) (B.run fuel p m))
    (p : MachineProg σ α Unit) {m : StateMachine σ α} (h : Settled twoPhase m) :
    Ends twoPhase (fun r => Settled twoPhase r.2) (interpret (B.perform (B.run fuel)) p m) := by
  induction p generalizing m with
  | pure _ => exact h
  | call o k ih =>
    have ho := perform_ends hexit hrun o h
    unfold interpret
    cases hm : B.perform (B.run fuel) o m with
    | error fault =>
      rw [hm] at ho
      exact ho
    | ok r =>
      rw [hm] at ho
      exact ih r.1 ho

/-- And so do the actions it reaches, however they call each other. The induction is on the
fuel. -/
theorem run_ends (hexit : ∀ s, (B.exit s).Obeys (still σ α) ()) (fuel : Nat)
    (p : MachineProg σ α Unit) {m : StateMachine σ α} (h : Settled twoPhase m) :
    Ends twoPhase (Settled twoPhase) (B.run fuel p m) := by
  induction fuel generalizing p m with
  | zero => exact ⟨Fault.noConfusion, fun _ => Fault.noConfusion⟩
  | succ fuel ih => exact (interpret_ends hexit (fun p m h => ih p h) p h).map fun _ h => h

/-- The events keep it settled as well. The induction is on the events. -/
theorem dispatchAll_ends (hexit : ∀ s, (B.exit s).Obeys (still σ α) ()) (fuel : Nat) (es : List ε)
    {m : StateMachine σ α} (h : Settled twoPhase m) :
    Ends twoPhase (Settled twoPhase) (B.dispatchAll fuel es m) := by
  induction es generalizing m with
  | nil => exact h
  | cons e es ih =>
    obtain ⟨s, hcurrent, -⟩ := h.inside
    have hdispatch : B.dispatch fuel m e = B.run fuel (B.dispatchEvent s e) m := by
      unfold dispatch
      rw [hcurrent]
    show Ends twoPhase _ (B.dispatch fuel m e >>= B.dispatchAll fuel es)
    rw [hdispatch]
    exact (run_ends hexit fuel _ h).bind fun _ hm => ih hm

/-- What the initialisation enters, it enters from outside of any state. -/
theorem settled_of_entry (hexit : ∀ s, (B.exit s).Obeys (still σ α) ()) {fuel : Nat}
    {m m' : StateMachine σ α} (hbetween : Alternates none m.trace)
    (hlast : lastExited m.trace = none) (hprevious : m.previous = none ∨ m.previous = m.current)
    (h : B.runEntry (B.run fuel) .nullCurrent m = .ok m') : Settled False m' := by
  cases hcurrent : m.current with
  | none =>
    unfold runEntry at h
    rw [hcurrent] at h
    cases h
  | some s =>
    have hentry : Ends False (Settled False) (B.runEntry (B.run fuel) .nullCurrent m) :=
      runEntry_ends (fun p _ hm => run_ends hexit fuel p hm) hbetween (.inr ⟨hlast, hprevious⟩)
        False.elim fun hnone => (Option.some_ne_none s (hcurrent.symm.trans hnone)).elim
    rw [h] at hentry
    exact hentry

/-- A machine that comes out of its initialisation is settled, and its previous pointer stays set
where it is. -/
theorem settled_of_init (hinit : B.initAction.Obeys (still σ α) ())
    (hexit : ∀ s, (B.exit s).Obeys (still σ α) ()) {fuel : Nat} {initialState : Option σ}
    {m : StateMachine σ α} (h : B.init fuel ⟨initialState, none, none, []⟩ = .ok m) :
    Settled (m.previous ≠ none) m := by
  suffices hsettled : Settled False m from ⟨hsettled.inside, hsettled.previous, id⟩
  unfold init at h
  rcases run_still (B := B) hinit fuel ⟨initialState, none, none, []⟩ with
    hfuel | ⟨m₁, hm₁, hstill⟩
  · rw [hfuel] at h
    cases h
  · rw [hm₁] at h
    have hbetween : Alternates none m₁.trace := hstill.alternates none .start
    have hlast : lastExited m₁.trace = none := hstill.lastExited
    change B.runEntry (B.run fuel) .nullCurrent (if m₁.next.isSome then _ else m₁) = _ at h
    split at h
    · exact settled_of_entry hexit (m := ⟨m₁.next, m₁.next, none, m₁.trace⟩)
        hbetween hlast (.inr rfl) h
    · exact settled_of_entry hexit hbetween hlast (.inl hstill.previous) h

/-- A machine that any events lead to is settled, and its previous pointer stays set where it is. -/
theorem settled_of_session (hinit : B.initAction.Obeys (still σ α) ())
    (hexit : ∀ s, (B.exit s).Obeys (still σ α) ()) {fuel : Nat} {initialState : Option σ}
    {es : List ε} {m : StateMachine σ α} (h : B.session fuel initialState es = .ok m) :
    Settled (m.previous ≠ none) m := by
  unfold session at h
  cases hm₀ : B.init fuel ⟨initialState, none, none, []⟩ with
  | error fault =>
    rw [hm₀] at h
    cases h
  | ok m₀ =>
    rw [hm₀] at h
    have hends := dispatchAll_ends hexit fuel es (settled_of_init hinit hexit hm₀)
    change B.dispatchAll fuel es m₀ = .ok m at h
    rw [h] at hends
    exact ⟨hends.inside, hends.previous, id⟩

/-- **Entries and exits alternate.** Whatever entry actions and handlers do, and however transitions
are nested in them, as long as exit actions make none: after any events the machine is in the state
that was entered last, every state was left once before the next was entered, and the previous state
is the one that was left last. No further event makes the machine call through a current state that
is null, nor through a previous one if the initialisation or one of the events has set it. -/
theorem session_alternates (hinit : B.initAction.Obeys (still σ α) ())
    (hexit : ∀ s, (B.exit s).Obeys (still σ α) ()) (fuel : Nat) (initialState : Option σ)
    (es : List ε) {m : StateMachine σ α} (h : B.session fuel initialState es = .ok m) :
    (∃ s, m.current = some s ∧ Alternates (some s) m.trace ∧
      (m.previous = lastExited m.trace ∨
        lastExited m.trace = none ∧ (m.previous = none ∨ m.previous = some s))) ∧
    ∀ es', B.dispatchAll fuel es' m ≠ .error .nullCurrent ∧
      (m.previous ≠ none → B.dispatchAll fuel es' m ≠ .error .nullPrevious) := by
  have hsettled := settled_of_session hinit hexit h
  constructor
  · obtain ⟨s, hcurrent, hinside⟩ := hsettled.inside
    exact ⟨s, hcurrent, hinside, hcurrent ▸ hsettled.previous⟩
  · intro es'
    have hends := dispatchAll_ends hexit fuel es' hsettled
    cases hm : B.dispatchAll fuel es' m with
    | error fault =>
      rw [hm] at hends
      exact ⟨fun heq => hends.1 (Except.error.inj heq),
        fun hset heq => hends.2 hset (Except.error.inj heq)⟩
    | ok m' => exact ⟨fun heq => (nomatch heq), fun _ heq => (nomatch heq)⟩

end Behaviour

/-- Two states, of which one is left as soon as it is entered, and an event that goes back to the
state before. -/
def bouncing : Behaviour Bool Bool Unit where
  initAction := .pure ()
  entry s := if s then machineCall (.changeState (some false)) else .pure ()
  exit _ := machineCall (.effect ())
  dispatchEvent _ back :=
    if back then machineCall .returnToLastState else machineCall (.changeState (some true))

/-- A transition inside of another. It sets the previous state, through which the machine then goes
back; before it, there was none to go back to. -/
theorem session_alternates_bouncing :
    bouncing.session 4 (some false) [true] = .error .nullPrevious ∧
    ∃ m, bouncing.session 4 (some false) [false] = .ok m ∧ m.current = some false ∧
      m.previous = some true ∧ Alternates (some false) m.trace ∧
      bouncing.dispatchAll 4 [true, true] m ≠ .error .nullPrevious := by
  have hstill :
      (machineCall (.effect ()) : MachineProg Bool Unit Unit).Obeys (still Bool Unit) () :=
    ⟨id, fun _ => trivial⟩
  refine ⟨rfl, ?_⟩
  obtain ⟨m, hm, hcurrent, hprevious⟩ : ∃ m, bouncing.session 4 (some false) [false] = .ok m ∧
      m.current = some false ∧ m.previous = some true := ⟨_, rfl, rfl, rfl⟩
  obtain ⟨⟨s, hs, hinside, -⟩, hcalls⟩ :=
    bouncing.session_alternates trivial (fun _ => hstill) 4 (some false) [false] hm
  cases hcurrent.symm.trans hs
  have hset : m.previous ≠ none := hprevious ▸ Option.some_ne_none true
  exact ⟨m, hm, hcurrent, hprevious, hinside, (hcalls [true, true]).2 hset⟩

/-- An exit action that makes a transition of its own breaks it: the state that is entered in
between is never left. -/
example :
    let B : Behaviour Nat Unit Unit :=
      { initAction := machineCall (.setNextState (some 0))
        entry := fun _ => .pure ()
        exit := fun _ => do
          let isSet ← machineCall .nextStateIsSet
          if isSet then do
            machineCall (.setNextState none)
            machineCall (.changeState (some 2))
          else .pure ()
        dispatchEvent := fun _ _ => do
          machineCall (.setNextState (some 3))
          machineCall (.changeState (some 1)) }
    (B.session 4 none [()]).toOption.map (·.trace) =
      some [.entered 1, .entered 2, .exited 0, .exited 0, .entered 0] := by rfl

end Concentrator.Eda
