import Mathlib.Tactic.Common

/-!
# Bounded queues

A first-in first-out queue of bounded capacity. A queue over its capacity cannot be built.
-/

namespace Concentrator

/-- A queue of at most `cap` elements, the oldest first. -/
structure Fifo (α : Type) (cap : Nat) where
  items : List α
  fits : items.length ≤ cap

namespace Fifo

variable {α : Type} {cap : Nat}

/-- The queue with nothing in it. -/
def empty : Fifo α cap := ⟨[], Nat.zero_le _⟩

/-- Put an element behind the others. `none` when the queue is full. -/
def put (q : Fifo α cap) (a : α) : Option (Fifo α cap) :=
  if h : q.items.length < cap then
    some ⟨q.items ++ [a], by rw [List.length_append]; exact h⟩
  else none

/-- Take the oldest element. `none` when the queue is empty. -/
def tryGet (q : Fifo α cap) : Option (α × Fifo α cap) :=
  match q with
  | ⟨[], _⟩ => none
  | ⟨a :: items, h⟩ => some (a, ⟨items, Nat.le_of_succ_le h⟩)

theorem put_eq_some {q q' : Fifo α cap} {a : α} (h : q.put a = some q') :
    q'.items = q.items ++ [a] := by
  unfold put at h
  split at h
  · cases h
    rfl
  · cases h

theorem put_eq_none {q : Fifo α cap} {a : α} (h : q.put a = none) : q.items.length = cap := by
  unfold put at h
  split at h
  · cases h
  · have := q.fits
    omega

theorem tryGet_eq_some {q q' : Fifo α cap} {a : α} (h : q.tryGet = some (a, q')) :
    q.items = a :: q'.items := by
  unfold tryGet at h
  split at h
  · cases h
  · cases h
    rfl

theorem tryGet_eq_none {q : Fifo α cap} (h : q.tryGet = none) : q.items = [] := by
  unfold tryGet at h
  split at h
  · rfl
  · cases h

end Fifo

end Concentrator
