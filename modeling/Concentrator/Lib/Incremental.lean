import Mathlib.Tactic.Common

/-!
# Decoders of a stream that arrives in pieces

A decoder takes one item at a time off the front of a buffer, asks for more input, or fails. A
reader appends each piece it receives to its buffer and takes items until the decoder asks for more
or fails (`Decoder.feed`). When what the decoder does with a buffer is not changed by what comes
after it (`Decoder.Incremental`), the reader's result does not depend on how the stream was cut
(`Decoder.Incremental.feed_eq`).
-/

namespace Concentrator

/-- A decoder of items `β` from symbols `α`, with failures `ε`: it takes an item and leaves the
rest, or asks for more input and leaves the buffer. -/
structure Decoder (α β ε : Type) where
  take : List α → Except ε (Option β × List α)
  take_lt : ∀ buffer item rest, take buffer = .ok (some item, rest) → rest.length < buffer.length

namespace Decoder

variable {α β ε : Type} {D : Decoder α β ε}

/-- What a reader has made of a stream: the items it took, and the failure that ended it or the
buffer that is left. -/
structure Reading (α β ε : Type) where
  items : List β
  outcome : Except ε (List α)
  deriving DecidableEq

/-- A reading after some items. -/
def Reading.after (items : List β) (r : Reading α β ε) : Reading α β ε :=
  ⟨items ++ r.items, r.outcome⟩

theorem Reading.after_after (first second : List β) (r : Reading α β ε) :
    (r.after second).after first = r.after (first ++ second) := by
  unfold after
  rw [List.append_assoc]

variable (D) in
/-- Take items until the decoder asks for more or fails. -/
def drain (buffer : List α) : Reading α β ε :=
  match h : D.take buffer with
  | .error e => ⟨[], .error e⟩
  | .ok (none, rest) => ⟨[], .ok rest⟩
  | .ok (some item, rest) =>
    have := D.take_lt buffer item rest h
    (drain rest).after [item]
termination_by buffer.length

variable (D) in
/-- Receive pieces one after the other: append each to the buffer, and drain it. A failure ends the
reading. -/
def feed : (pieces : List (List α)) → (buffer : List α) → Reading α β ε
  | [], buffer => ⟨[], .ok buffer⟩
  | piece :: pieces, buffer =>
    match D.drain (buffer ++ piece) with
    | ⟨items, .error e⟩ => ⟨items, .error e⟩
    | ⟨items, .ok rest⟩ => (feed pieces rest).after items

/-- Everything a drain can do: the decoder fails, asks for more, or takes an item and goes on. -/
theorem drain_cases (buffer : List α) :
    (∃ e, D.take buffer = .error e ∧ D.drain buffer = ⟨[], .error e⟩) ∨
    (∃ rest, D.take buffer = .ok (none, rest) ∧ D.drain buffer = ⟨[], .ok rest⟩) ∨
    (∃ item rest, D.take buffer = .ok (some item, rest) ∧ rest.length < buffer.length ∧
      D.drain buffer = (D.drain rest).after [item]) := by
  rw [drain]
  split
  · next e h => exact .inl ⟨e, h, rfl⟩
  · next rest h => exact .inr (.inl ⟨rest, h, rfl⟩)
  · next item rest h => exact .inr (.inr ⟨item, rest, h, D.take_lt _ _ _ h, rfl⟩)

theorem drain_error {buffer : List α} {e : ε} (h : D.take buffer = .error e) :
    D.drain buffer = ⟨[], .error e⟩ := by
  rcases D.drain_cases buffer with ⟨e', htake, hdrain⟩ | ⟨_, htake, -⟩ | ⟨_, _, htake, -⟩
  · cases h.symm.trans htake
    exact hdrain
  · cases h.symm.trans htake
  · cases h.symm.trans htake

theorem drain_item {buffer rest : List α} {item : β} (h : D.take buffer = .ok (some item, rest)) :
    D.drain buffer = (D.drain rest).after [item] := by
  rcases D.drain_cases buffer with ⟨_, htake, -⟩ | ⟨_, htake, -⟩ | ⟨_, _, htake, -, hdrain⟩
  · cases h.symm.trans htake
  · cases h.symm.trans htake
  · cases h.symm.trans htake
    exact hdrain

/-- What the decoder does with a buffer is not changed by what comes after it; when it asks for
more, it leaves the buffer as it is. -/
structure Incremental (D : Decoder α β ε) : Prop where
  item : ∀ {buffer item rest} (more : List α), D.take buffer = .ok (some item, rest) →
    D.take (buffer ++ more) = .ok (some item, rest ++ more)
  failure : ∀ {buffer e} (more : List α), D.take buffer = .error e →
    D.take (buffer ++ more) = .error e
  waits : ∀ {buffer rest}, D.take buffer = .ok (none, rest) → rest = buffer

namespace Incremental

/-- The items of a buffer come first when more follows it, and a failure is final: the induction is
on the length of the buffer, of which every item takes some. -/
theorem drain_append (P : Incremental D) (buffer more : List α) :
    D.drain (buffer ++ more) =
      match D.drain buffer with
      | ⟨items, .error e⟩ => ⟨items, .error e⟩
      | ⟨items, .ok rest⟩ => (D.drain (rest ++ more)).after items := by
  induction hn : buffer.length using Nat.strongRecOn generalizing buffer with
  | ind n ih =>
  subst hn
  rcases D.drain_cases buffer with ⟨e, htake, hdrain⟩ | ⟨rest, htake, hdrain⟩ |
    ⟨item, rest, htake, hlt, hdrain⟩
  · rw [hdrain, drain_error (P.failure more htake)]
  · rw [hdrain, P.waits htake]
    rfl
  · have hrest := ih rest.length hlt rest rfl
    rw [hdrain, drain_item (P.item more htake), hrest]
    cases D.drain rest with
    | mk items outcome =>
      cases outcome with
      | error e => rfl
      | ok rest' => exact Reading.after_after _ _ _

/-- A buffer that was drained has nothing left to take: a drain ends where the decoder asks for
more. -/
theorem drain_drained (P : Incremental D) {buffer rest : List α} {items : List β}
    (h : D.drain buffer = ⟨items, .ok rest⟩) : D.drain rest = ⟨[], .ok rest⟩ := by
  induction hn : buffer.length using Nat.strongRecOn generalizing buffer items with
  | ind n ih =>
  subst hn
  rcases D.drain_cases buffer with ⟨e, -, hdrain⟩ | ⟨rest', htake, hdrain⟩ |
    ⟨item, rest', htake, hlt, hdrain⟩
  · cases hdrain.symm.trans h
  · cases hdrain.symm.trans h
    obtain rfl := P.waits htake
    exact hdrain
  · cases hr : D.drain rest' with
    | mk items' outcome =>
      rw [hr] at hdrain
      cases hdrain.symm.trans h
      exact ih _ hlt hr rfl

/-- **The cuts do not matter.** What a reader makes of a stream that arrives in pieces, with a
buffer that has nothing to take, is what a drain of the whole makes of it. The induction is on the
pieces. -/
theorem feed_eq (P : Incremental D) (pieces : List (List α)) {buffer : List α}
    (h : D.drain buffer = ⟨[], .ok buffer⟩) :
    D.feed pieces buffer = D.drain (buffer ++ pieces.flatten) := by
  induction pieces generalizing buffer with
  | nil =>
    rw [List.flatten_nil, List.append_nil, h]
    rfl
  | cons piece pieces ih =>
    rw [List.flatten_cons, ← List.append_assoc, P.drain_append (buffer ++ piece)]
    unfold feed
    cases hd : D.drain (buffer ++ piece) with
    | mk items outcome =>
      cases outcome with
      | error e => rfl
      | ok rest =>
        show (D.feed pieces rest).after items = (D.drain (rest ++ pieces.flatten)).after items
        rw [ih (P.drain_drained hd)]

end Incremental

end Decoder

end Concentrator
