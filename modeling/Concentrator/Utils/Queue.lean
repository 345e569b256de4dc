import Concentrator.Lib.Adt
import Concentrator.Lib.Fifo

/-!
# The fixed-capacity queue

`utils::Queue` keeps its elements in a ring: `m_head` is where the front is, `m_tail` where the next
element goes, and `m_count` tells the empty ring from the full one, which share the other two. For
every capacity from one on it is a bounded queue (`queue_refines_fifo`): the elements are read off
the ring from the head on, and no access is out of range.

`size_t` has `w` bits here, and an access out of range is undefined.
-/

namespace Concentrator.Utils

/-- The queue. Reference: `utils/queue/queue.hpp:28 Queue`. -/
structure Queue (α : Type) {w : Nat} (CAPACITY : BitVec w) where
  storage : Vector α CAPACITY.toNat
  head : BitVec w
  tail : BitVec w
  count : BitVec w

namespace Queue

variable {α : Type} {w : Nat} {CAPACITY : BitVec w}

/-- A queue whose cells hold what `T{}` is. Reference: `utils/queue/queue.hpp:32 Queue`. -/
def constructed (value : α) : Queue α CAPACITY := ⟨.replicate _ value, 0, 0, 0⟩

/-- Reference: `utils/queue/queue.hpp:80 is_empty`. -/
def isEmpty (q : Queue α CAPACITY) : Bool := q.count == 0

/-- Reference: `utils/queue/queue.hpp:86 is_full`. -/
def isFull (q : Queue α CAPACITY) : Bool := q.count == CAPACITY

/-- Reference: `utils/queue/queue.hpp:92 size`. -/
def size (q : Queue α CAPACITY) : BitVec w := q.count

/-- Advance a ring index, wrapping at capacity. Reference: `utils/queue/queue.hpp:108
next_index`. -/
def nextIndex (CAPACITY index : BitVec w) : BitVec w := (index + 1) % CAPACITY

/-- Push an element to the back. Reference: `utils/queue/queue.hpp:39 push`. -/
def push (item : α) (q : Queue α CAPACITY) : Option (Bool × Queue α CAPACITY) :=
  if q.isFull then some (false, q)
  else if h : q.tail.toNat < CAPACITY.toNat then
    some (true,
      { q with
        storage := q.storage.set q.tail.toNat item h
        tail := nextIndex CAPACITY q.tail
        count := q.count + 1 })
  else none

/-- Pop the element at the front, to where `outItem` is. Reference: `utils/queue/queue.hpp:57
pop`. -/
def pop (outItem : α) (q : Queue α CAPACITY) : Option (Bool × α × Queue α CAPACITY) :=
  if q.isEmpty then some (false, outItem, q)
  else if h : q.head.toNat < CAPACITY.toNat then
    some (true, q.storage[q.head.toNat],
      { q with
        head := nextIndex CAPACITY q.head
        count := q.count - 1 })
  else none

/-- Discard every element. Reference: `utils/queue/queue.hpp:72 clear`. -/
def clear (q : Queue α CAPACITY) : Queue α CAPACITY := { q with head := 0, tail := 0, count := 0 }

end Queue

/-- The operations. -/
inductive Op (α : Type) where
  | push (item : α)
  | pop (outItem : α)
  | clear

/-- The answers; after a pop, what `out_item` holds is part of it. -/
inductive Res (α : Type) where
  | pushed (stored : Bool)
  | popped (returned : Bool) (outItem : α)
  | cleared
  deriving DecidableEq

variable {α : Type} {w : Nat}

/-- The queue as a data type. -/
def queue (CAPACITY : BitVec w) (value : α) : Adt (Op α) (Res α) where
  State := Queue α CAPACITY
  init := .constructed value
  step
    | .push item, q => (q.push item).map fun done => (.pushed done.1, done.2)
    | .pop outItem, q => (q.pop outItem).map fun done => (.popped done.1 done.2.1, done.2.2)
    | .clear, q => some (.cleared, q.clear)

/-- What it is for: a list of at most `capacity` elements, the front first. -/
def fifo (α : Type) (capacity : Nat) : Adt (Op α) (Res α) where
  State := Fifo α capacity
  init := .empty
  step
    | .push item, f =>
      match f.put item with
      | none => some (.pushed false, f)
      | some f' => some (.pushed true, f')
    | .pop outItem, f =>
      match f.tryGet with
      | none => some (.popped false outItem, f)
      | some (item, f') => some (.popped true item, f')
    | .clear, _ => some (.cleared, .empty)

/-! ## The ring

The `i`-th cell from the head on is `(head + i) % n`.
-/

/-- Two cells less than a round apart are different. -/
theorem ring_ne {n head i j : Nat} (hi : i < n) (hj : j < n) (hne : i ≠ j) :
    (head + i) % n ≠ (head + j) % n := by
  intro heq
  have hij := Nat.sub_mod_eq_zero_of_mod_eq heq
  have hji := Nat.sub_mod_eq_zero_of_mod_eq heq.symm
  rw [Nat.add_sub_add_left, Nat.mod_eq_of_lt (by omega)] at hij hji
  omega

/-- What is below another value does not overflow when it is advanced. -/
theorem toNat_add_one {index bound : BitVec w} (h : index.toNat < bound.toNat) :
    (index + 1).toNat = index.toNat + 1 := by
  have hlt := bound.isLt
  have hone : (1 : BitVec w).toNat = 1 :=
    (BitVec.toNat_ofNat 1 w).trans (Nat.mod_eq_of_lt (by omega))
  rw [BitVec.toNat_add_of_lt (by omega), hone]

/-- And what is not zero does not when it is put back. -/
theorem toNat_sub_one {index : BitVec w} (h : 0 < index.toNat) :
    (index - 1).toNat = index.toNat - 1 := by
  have hlt := index.isLt
  have hone : (1 : BitVec w).toNat = 1 :=
    (BitVec.toNat_ofNat 1 w).trans (Nat.mod_eq_of_lt (by omega))
  rw [BitVec.toNat_sub_of_le (BitVec.le_def.2 (by omega)), hone]

namespace Queue

variable {CAPACITY : BitVec w} {q : Queue α CAPACITY} {xs : List α} {item : α}

theorem toNat_nextIndex {index : BitVec w} (h : index.toNat < CAPACITY.toNat) :
    (nextIndex CAPACITY index).toNat = (index.toNat + 1) % CAPACITY.toNat := by
  unfold nextIndex
  rw [BitVec.toNat_umod, toNat_add_one h]

/-- The elements `xs`, the front first, lie in the ring from the head on. -/
structure Represents (q : Queue α CAPACITY) (xs : List α) : Prop where
  fits : xs.length ≤ CAPACITY.toNat
  head_lt : q.head.toNat < CAPACITY.toNat
  tail_eq : q.tail.toNat = (q.head.toNat + xs.length) % CAPACITY.toNat
  count_eq : q.count.toNat = xs.length
  items : ∀ i item, xs[i]? = some item →
    q.storage[(q.head.toNat + i) % CAPACITY.toNat]? = some item

theorem Represents.tail_lt (h : q.Represents xs) : q.tail.toNat < CAPACITY.toNat := by
  rw [h.tail_eq]
  exact Nat.mod_lt _ (Nat.zero_lt_of_lt h.head_lt)

theorem Represents.isEmpty_iff (h : q.Represents xs) : q.isEmpty = true ↔ xs = [] := by
  unfold isEmpty
  rw [beq_iff_eq, ← BitVec.toNat_inj, h.count_eq]
  exact List.length_eq_zero_iff

theorem Represents.isFull_iff (h : q.Represents xs) :
    q.isFull = true ↔ xs.length = CAPACITY.toNat := by
  unfold isFull
  rw [beq_iff_eq, ← BitVec.toNat_inj, h.count_eq]

/-- A queue with the indices of a fresh one holds nothing, whatever its cells hold. -/
theorem represents_nil (hcap : 0 < CAPACITY) {storage : Vector α CAPACITY.toNat} :
    Represents (⟨storage, 0, 0, 0⟩ : Queue α CAPACITY) [] where
  fits := Nat.zero_le _
  head_lt := BitVec.lt_def.1 hcap
  tail_eq := (Nat.zero_mod _).symm
  count_eq := rfl
  items := fun _ _ h => nomatch h

/-- A push into a queue that is not full. -/
theorem Represents.push (h : q.Represents xs) (hlt : xs.length < CAPACITY.toNat) (item : α) :
    ∃ q', q.push item = some (true, q') ∧ q'.Represents (xs ++ [item]) := by
  have hfull : ¬q.isFull = true := fun hfull => Nat.ne_of_lt hlt (h.isFull_iff.1 hfull)
  refine ⟨_, (if_neg hfull).trans (dif_pos h.tail_lt), ?_⟩
  constructor
  case fits =>
    rw [List.length_append]
    exact hlt
  case head_lt => exact h.head_lt
  case tail_eq =>
    rw [List.length_append]
    show (nextIndex CAPACITY q.tail).toNat = (q.head.toNat + (xs.length + 1)) % _
    rw [toNat_nextIndex h.tail_lt, h.tail_eq, Nat.mod_add_mod, Nat.add_assoc]
  case count_eq =>
    rw [List.length_append, ← h.count_eq]
    exact toNat_add_one (h.count_eq.symm ▸ hlt)
  case items =>
    intro i x hx
    show (q.storage.set q.tail.toNat item h.tail_lt)[(q.head.toNat + i) % CAPACITY.toNat]? = some x
    -- the new element is at the tail, and no other element is
    rcases Nat.lt_trichotomy i xs.length with hi | rfl | hi
    · rw [List.getElem?_append_left hi] at hx
      have hne : q.tail.toNat ≠ (q.head.toNat + i) % CAPACITY.toNat := by
        rw [h.tail_eq]
        exact ring_ne hlt (Nat.lt_trans hi hlt) (Nat.ne_of_gt hi)
      rw [Vector.getElem?_set_ne h.tail_lt hne]
      exact h.items i x hx
    · rw [List.getElem?_concat_length] at hx
      rw [← h.tail_eq, ← hx]
      exact Vector.getElem?_set_self h.tail_lt
    · rw [List.getElem?_eq_none (by rw [List.length_append]; exact hi)] at hx
      cases hx

/-- A pop from a queue that is not empty. -/
theorem Represents.pop {x : α} (h : q.Represents (x :: xs)) (outItem : α) :
    ∃ q', q.pop outItem = some (true, x, q') ∧ q'.Represents xs := by
  have hempty : ¬q.isEmpty = true := fun hempty => nomatch h.isEmpty_iff.1 hempty
  have hlt := h.head_lt
  have hfront : q.storage[q.head.toNat] = x := by
    have hfront := h.items 0 x rfl
    rw [Nat.add_zero, Nat.mod_eq_of_lt hlt] at hfront
    exact (Vector.getElem_of_getElem? hfront).2
  have hcount : q.count.toNat = xs.length + 1 := h.count_eq
  have hhead := toNat_nextIndex h.head_lt
  refine ⟨_, ((if_neg hempty).trans (dif_pos h.head_lt)).trans (by rw [hfront]), ?_⟩
  constructor
  case fits => exact Nat.le_of_succ_le h.fits
  case head_lt =>
    show (nextIndex CAPACITY q.head).toNat < _
    rw [hhead]
    exact Nat.mod_lt _ (Nat.zero_lt_of_lt h.head_lt)
  case tail_eq =>
    show q.tail.toNat = ((nextIndex CAPACITY q.head).toNat + _) % _
    rw [hhead, Nat.mod_add_mod, Nat.add_right_comm]
    exact h.tail_eq
  case count_eq =>
    show (q.count - 1).toNat = _
    rw [toNat_sub_one (by omega), hcount]
    rfl
  case items =>
    intro i y hy
    show q.storage[((nextIndex CAPACITY q.head).toNat + i) % CAPACITY.toNat]? = _
    rw [hhead, Nat.mod_add_mod, Nat.add_assoc, Nat.add_comm 1]
    exact h.items (i + 1) y hy

end Queue

/-! ## The refinement -/

theorem fifo_defined {capacity : Nat} (o : Op α) (f : Fifo α capacity) :
    ∃ r f', (fifo α capacity).step o f = some (r, f') := by
  cases o with
  | push item =>
    cases hput : f.put item with
    | none => exact ⟨.pushed false, f, by simp only [fifo, hput]⟩
    | some f' => exact ⟨.pushed true, f', by simp only [fifo, hput]⟩
  | pop outItem =>
    cases hget : f.tryGet with
    | none => exact ⟨.popped false outItem, f, by simp only [fifo, hget]⟩
    | some got => exact ⟨.popped true got.1, got.2, by simp only [fifo, hget]⟩
  | clear => exact ⟨.cleared, .empty, rfl⟩

section

variable {CAPACITY : BitVec w} {q : Queue α CAPACITY} {xs : List α}

/-- A push into a full queue changes nothing. -/
theorem Queue.Represents.push_full (h : q.Represents xs) (hfull : xs.length = CAPACITY.toNat)
    (item : α) : q.push item = some (false, q) :=
  if_pos (h.isFull_iff.2 hfull)

/-- A pop from an empty queue changes nothing. -/
theorem Queue.Represents.pop_nil (h : q.Represents []) (outItem : α) :
    q.pop outItem = some (false, outItem, q) :=
  if_pos (h.isEmpty_iff.2 rfl)

end

/-- Operation by operation, the queue is a bounded one. -/
theorem queue_refines {CAPACITY : BitVec w} (hcap : 0 < CAPACITY) (value : α) :
    (queue CAPACITY value).Refines (fifo α CAPACITY.toNat) fun q f => q.Represents f.items where
  init := Queue.represents_nil hcap
  step := by
    intro o q f r f' h hstep
    cases o with
    | push item =>
      simp only [fifo] at hstep
      split at hstep <;> cases hstep
      case h_1 hput =>
        have hq := h.push_full (Fifo.put_eq_none hput) item
        exact ⟨q, by simp only [queue, hq, Option.map_some], h⟩
      case h_2 hput =>
        have hitems := Fifo.put_eq_some hput
        have hlt : f.items.length < CAPACITY.toNat := by
          have hfits := Fifo.fits f'
          rw [hitems, List.length_append] at hfits
          exact hfits
        obtain ⟨q', hq, h'⟩ := h.push hlt item
        rw [← hitems] at h'
        exact ⟨q', by simp only [queue, hq, Option.map_some], h'⟩
    | pop outItem =>
      simp only [fifo] at hstep
      split at hstep <;> cases hstep
      case h_1 hget =>
        rw [Fifo.tryGet_eq_none hget] at h
        have hq := h.pop_nil outItem
        refine ⟨q, by simp only [queue, hq, Option.map_some], ?_⟩
        rwa [Fifo.tryGet_eq_none hget]
      case h_2 hget =>
        rw [Fifo.tryGet_eq_some hget] at h
        obtain ⟨q', hq, h'⟩ := h.pop outItem
        exact ⟨q', by simp only [queue, hq, Option.map_some], h'⟩
    | clear =>
      cases hstep
      exact ⟨q.clear, rfl, Queue.represents_nil hcap⟩

/-- **The queue refines a bounded FIFO.** From a fresh queue, any sequence of operations answers
what it answers on a list of at most `CAPACITY` elements; no access is out of range; and the
counters tell the list's length, emptiness and fullness, the tail lying `m_count` cells from the
head. -/
theorem queue_refines_fifo {CAPACITY : BitVec w} (hcap : 0 < CAPACITY) (value : α)
    (ops : List (Op α)) :
    ∃ answers q contents,
      (fifo α CAPACITY.toNat).run ops .empty = some (answers, contents) ∧
      (queue CAPACITY value).run ops (.constructed value) = some (answers, q) ∧
      q.size.toNat = contents.items.length ∧
      (q.isEmpty = true ↔ contents.items = []) ∧
      (q.isFull = true ↔ contents.items.length = CAPACITY.toNat) ∧
      (contents.items.length = CAPACITY.toNat → ∀ item, q.push item = some (false, q)) ∧
      (contents.items = [] → ∀ outItem, q.pop outItem = some (false, outItem, q)) ∧
      q.head < CAPACITY ∧ q.tail < CAPACITY ∧
      q.tail.toNat = (q.head.toNat + q.count.toNat) % CAPACITY.toNat := by
  have href := queue_refines hcap value
  obtain ⟨answers, contents, hfifo⟩ := Adt.run_defined (A := fifo α CAPACITY.toNat)
    fifo_defined ops .empty
  obtain ⟨q, hqueue, h⟩ := href.run href.init hfifo
  refine ⟨answers, q, contents, hfifo, hqueue, h.count_eq, h.isEmpty_iff, h.isFull_iff,
    h.push_full, fun hnil => ?_, BitVec.lt_def.2 h.head_lt, BitVec.lt_def.2 h.tail_lt, ?_⟩
  · rw [hnil] at h
    exact h.pop_nil
  · rw [h.tail_eq, h.count_eq]

/-- Two elements fill a ring of two cells; the third comes when the first is gone, and goes
round. -/
theorem queue_refines_fifo_round :
    ∃ answers q contents,
      (fifo UInt8 2).run [.push 1, .push 2, .push 3, .pop 0, .push 4] .empty =
        some (answers, contents) ∧
      (queue (2#32) (0 : UInt8)).run [.push 1, .push 2, .push 3, .pop 0, .push 4]
        (.constructed 0) = some (answers, q) ∧
      answers = [.pushed true, .pushed true, .pushed false, .popped true 1, .pushed true] ∧
      contents.items = [2, 4] ∧ q.isFull = true ∧ q.tail = q.head ∧ q.head = 1 := by
  have hcap : 0 < 2#32 := by decide
  obtain ⟨answers, q, contents, hfifo, hqueue, -, -, hfull, -⟩ :=
    queue_refines_fifo hcap (0 : UInt8) [.push 1, .push 2, .push 3, .pop 0, .push 4]
  refine ⟨answers, q, contents, hfifo, hqueue, ?_⟩
  cases hfifo
  cases hqueue
  exact ⟨rfl, rfl, hfull.2 rfl, rfl, rfl⟩

end Concentrator.Utils
