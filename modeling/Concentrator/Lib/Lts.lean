import Mathlib.Tactic.Common

/-!
# Labelled transition systems

A system takes steps, each under a label that says who does what; `step` is a function, so a label
that does not apply has no successor. `Reachable.invariant` is the induction every safety property
rests on.
-/

namespace Concentrator

/-- A system of states and labelled steps. -/
structure Lts where
  State : Type
  Label : Type
  init : State → Prop
  step : Label → State → Option State

namespace Lts

variable {L : Lts}

/-- The states that runs reach. -/
inductive Reachable (L : Lts) : L.State → Prop where
  | init {s : L.State} : L.init s → Reachable L s
  | step {s s' : L.State} (l : L.Label) : Reachable L s → L.step l s = some s' → Reachable L s'

/-- What holds at first and is kept by every step holds in every reachable state. -/
theorem Reachable.invariant {I : L.State → Prop} (hinit : ∀ s, L.init s → I s)
    (hstep : ∀ l s s', I s → L.step l s = some s' → I s') {s : L.State} (h : Reachable L s) :
    I s := by
  induction h with
  | init hs => exact hinit _ hs
  | step l _ hs ih => exact hstep l _ _ ih hs

/-- The state after a list of steps, `none` when one of them does not apply. -/
def run (L : Lts) : List L.Label → L.State → Option L.State
  | [], s => some s
  | l :: ls, s => (L.step l s).bind (L.run ls)

theorem run_append (ls ls' : List L.Label) (s : L.State) :
    L.run (ls ++ ls') s = (L.run ls s).bind (L.run ls') := by
  induction ls generalizing s with
  | nil => rfl
  | cons l ls ih =>
    show (L.step l s).bind (L.run (ls ++ ls')) = ((L.step l s).bind (L.run ls)).bind (L.run ls')
    rw [Option.bind_assoc]
    exact congrArg _ (funext ih)

/-- What every step keeps, a run keeps: the induction is on its labels. -/
theorem run_kept {I : L.State → Prop} (hstep : ∀ l s s', I s → L.step l s = some s' → I s')
    {ls : List L.Label} {s s' : L.State} (hs : I s) (h : L.run ls s = some s') : I s' := by
  induction ls generalizing s with
  | nil =>
    cases h
    exact hs
  | cons l ls ih =>
    obtain ⟨s₁, hl, h⟩ := Option.bind_eq_some_iff.1 h
    exact ih (hstep l s s₁ hs hl) h

/-- A run from a state that runs reach ends in one. -/
theorem Reachable.run {ls : List L.Label} {s s' : L.State} (hs : L.Reachable s)
    (h : L.run ls s = some s') : L.Reachable s' :=
  run_kept (fun l _ _ hs hl => .step l hs hl) hs h

/-- A run whose last state passes a test reaches a state that does. -/
theorem Reachable.exists_of_run (ls : List L.Label) {s : L.State} (p : L.State → Bool)
    (hs : L.Reachable s) (h : (L.run ls s).any p = true) : ∃ s', L.Reachable s' ∧ p s' = true := by
  obtain ⟨s', hrun, hp⟩ := (Option.any_eq_true p _).1 h
  exact ⟨s', hs.run hrun, hp⟩

/-! ## Runs under a guard -/

/-- The states that runs reach when every step is one the guard allows. -/
inductive Within (L : Lts) (G : L.Label → L.State → Prop) : L.State → Prop where
  | init {s : L.State} : L.init s → Within L G s
  | step {s s' : L.State} (l : L.Label) : Within L G s → G l s → L.step l s = some s' →
      Within L G s'

variable {G : L.Label → L.State → Prop}

theorem Within.reachable {s : L.State} (h : L.Within G s) : L.Reachable s := by
  induction h with
  | init hs => exact .init hs
  | step l _ _ hs ih => exact .step l ih hs

/-- What holds at first and is kept by every allowed step holds in every state that guarded runs
reach. -/
theorem Within.invariant {I : L.State → Prop} (hinit : ∀ s, L.init s → I s)
    (hstep : ∀ l s s', L.Reachable s → G l s → I s → L.step l s = some s' → I s') {s : L.State}
    (h : L.Within G s) : I s := by
  induction h with
  | init hs => exact hinit _ hs
  | step l hreach hl hs ih => exact hstep l _ _ hreach.reachable hl ih hs

/-- The state after a list of steps that all pass a test, `none` when one of them does not or does
not apply. -/
def runWithin (L : Lts) (allows : L.Label → L.State → Bool) :
    List L.Label → L.State → Option L.State
  | [], s => some s
  | l :: ls, s => if allows l s then (L.step l s).bind (L.runWithin allows ls) else none

/-- A run within a test that the guard passes, and whose last state passes another, reaches a state
that does. -/
theorem Within.exists_of_runWithin {allows : L.Label → L.State → Bool}
    (hallows : ∀ l s, allows l s = true → G l s) (ls : List L.Label) {s : L.State}
    (p : L.State → Bool) (hs : L.Within G s) (h : (L.runWithin allows ls s).any p = true) :
    ∃ s', L.Within G s' ∧ p s' = true := by
  induction ls generalizing s with
  | nil => exact ⟨s, hs, h⟩
  | cons l ls ih =>
    unfold runWithin at h
    split at h
    · next hl =>
      cases hstep : L.step l s with
      | none =>
        rw [hstep] at h
        cases h
      | some s₁ =>
        rw [hstep] at h
        exact ih (.step l hs (hallows l s hl) hstep) h
    · cases h

end Lts

end Concentrator
