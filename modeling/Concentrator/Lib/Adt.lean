import Mathlib.Tactic.Common

/-!
# Data refinement

A data type has operations that answer and move a state; an operation that is not defined in a state
has no successor. One data type refines another when a relation between their states holds at first
and is kept by every operation, which answers the same in both. Then they answer the same in every
sequence of operations (`Adt.Refines.run`), so nobody who uses the one can tell that it is not the
other.
-/

namespace Concentrator

/-- A data type with operations `Op` that answer a `Res`. -/
structure Adt (Op Res : Type) where
  State : Type
  init : State
  step : Op → State → Option (Res × State)

namespace Adt

variable {Op Res : Type}

/-- The answers to a sequence of operations and the state after it, `none` when one of them is not
defined. -/
def run (A : Adt Op Res) : List Op → A.State → Option (List Res × A.State)
  | [], s => some ([], s)
  | o :: os, s =>
    match A.step o s with
    | none => none
    | some (r, s') => (A.run os s').map fun done => (r :: done.1, done.2)

/-- `C` refines `A` by the relation `R`: where `A` is defined, `C` is, answers the same and keeps
the relation. -/
structure Refines (C A : Adt Op Res) (R : C.State → A.State → Prop) : Prop where
  init : R C.init A.init
  step : ∀ {o c a r a'}, R c a → A.step o a = some (r, a') →
    ∃ c', C.step o c = some (r, c') ∧ R c' a'

variable {C A : Adt Op Res} {R : C.State → A.State → Prop}

/-- Where every operation is defined, every sequence of them is. -/
theorem run_defined (h : ∀ o s, ∃ r s', A.step o s = some (r, s')) (os : List Op) (s : A.State) :
    ∃ rs s', A.run os s = some (rs, s') := by
  induction os generalizing s with
  | nil => exact ⟨[], s, rfl⟩
  | cons o os ih =>
    obtain ⟨r, s₁, hstep⟩ := h o s
    obtain ⟨rs, s', hrest⟩ := ih s₁
    refine ⟨r :: rs, s', ?_⟩
    unfold Adt.run
    rw [hstep]
    exact Option.map_eq_some_iff.2 ⟨_, hrest, rfl⟩

/-- **The refinement rule.** The induction is on the operations. -/
theorem Refines.run (h : C.Refines A R) {os : List Op} {c : C.State} {a a' : A.State}
    {rs : List Res} (hR : R c a) (hrun : A.run os a = some (rs, a')) :
    ∃ c', C.run os c = some (rs, c') ∧ R c' a' := by
  induction os generalizing c a rs with
  | nil =>
    cases hrun
    exact ⟨c, rfl, hR⟩
  | cons o os ih =>
    unfold Adt.run at hrun ⊢
    split at hrun
    · cases hrun
    · next r a₁ hstep =>
      obtain ⟨⟨rs', a₂⟩, hrest, heq⟩ := Option.map_eq_some_iff.1 hrun
      cases heq
      obtain ⟨c₁, hc₁, hR₁⟩ := h.step hR hstep
      obtain ⟨c', hc', hR'⟩ := ih hR₁ hrest
      refine ⟨c', ?_, hR'⟩
      rw [hc₁]
      exact Option.map_eq_some_iff.2 ⟨_, hc', rfl⟩

end Adt

end Concentrator
