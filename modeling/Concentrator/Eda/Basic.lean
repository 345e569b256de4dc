import Concentrator.Lib.Fifo

/-!
# Events, their queues and the fault latch

An active object is one thread and one queue of events. Posting never blocks: an event that does not
fit is dropped and counted, and a one-shot event that is dropped, or has no port to go to, latches a
fault. A call is one step here; `Eda.Posting` takes it one access at a time.
-/

namespace Concentrator.Eda

/-- Events per queue of an active object. Reference:
`eda/active_object/active_object.hpp:72 s_queue_length`. -/
abbrev QUEUE_LENGTH : Nat := 20

/-- What became of a post. Reference: `eda/active_object/active_object.hpp:21 PostResult`. -/
inductive PostResult where
  | ok
  | queueFull
  | portNotReady
  deriving DecidableEq

/-- The event queue of an active object. -/
abbrev EventQueue (ε : Type) : Type := Fifo ε QUEUE_LENGTH

/-- Post an event to a queue; `dropped` counts the events lost to full queues, over all active
objects. `post_event()` and `post_event_from_isr()` differ in the log line only. Reference:
`eda/active_object/active_object.cpp:37 post_event`, `:52 post_event_from_isr`. -/
def postEvent {ε : Type} (q : EventQueue ε) (dropped : UInt32) (e : ε) :
    PostResult × EventQueue ε × UInt32 :=
  match q.put e with
  | some q' => (.ok, q', dropped)
  | none => (.queueFull, q, dropped + 1)

/-- Everything a post can do: the event is the last of the queue, or the queue was full. -/
theorem postEvent_cases {ε : Type} (q : EventQueue ε) (dropped : UInt32) (e : ε) :
    (∃ q', postEvent q dropped e = (.ok, q', dropped) ∧ q'.items = q.items ++ [e]) ∨
    (postEvent q dropped e = (.queueFull, q, dropped + 1) ∧ q.items.length = QUEUE_LENGTH) := by
  unfold postEvent
  cases h : q.put e with
  | some q' => exact .inl ⟨q', rfl, Fifo.put_eq_some h⟩
  | none => exact .inr ⟨rfl, Fifo.put_eq_none h⟩

/-- There is room: the event is the last of the queue. -/
theorem postEvent_room {ε : Type} {q : EventQueue ε} (dropped : UInt32) (e : ε)
    (h : q.items.length < QUEUE_LENGTH) :
    ∃ q', postEvent q dropped e = (.ok, q', dropped) ∧ q'.items = q.items ++ [e] := by
  rcases postEvent_cases q dropped e with hposted | ⟨-, hfull⟩
  · exact hposted
  · exact absurd hfull (Nat.ne_of_lt h)

/-- Whatever becomes of an event, the queue holds what it held, and perhaps the event. -/
theorem postEvent_items {ε : Type} (q : EventQueue ε) (dropped : UInt32) (e : ε) :
    (postEvent q dropped e).2.1.items = q.items ∨
      (postEvent q dropped e).2.1.items = q.items ++ [e] := by
  rcases postEvent_cases q dropped e with ⟨q', hp, hq⟩ | ⟨hp, -⟩
  · rw [hp]
    exact .inr hq
  · rw [hp]
    exact .inl rfl

/-! ## The fault latch and the senders -/

/-- Why the device is at fault. `NONE` is a latch that holds nothing. Reference:
`utils/fault/fault.hpp:20 Reason`. -/
inductive Reason where
  | eventLost
  | portNotReady
  | unrecoverable
  deriving DecidableEq

/-- Latch a fault: the first reason wins. The test and the two writes are taken as one step.
Reference: `utils/fault/fault.cpp:23 report`. -/
def report (reason : Reason) : Option Reason → Option Reason
  | none => some reason
  | some first => some first

/-- What posting leaves behind besides the queues: the number of dropped events and the latch.
Reference: `eda/active_object/active_object.cpp:20 s_dropped_event_count`,
`utils/fault/fault.cpp:16-19`. -/
structure Ledger where
  dropped : UInt32
  fault : Option Reason
  deriving DecidableEq

section
variable {ε : Type}

/-- Send an event to a port, which is registered or not, in a release build: an event that is lost
latches a fault. Reference: `eda/port/port.cpp:75 send_event`. -/
def sendEvent (registered : Bool) (e : ε) (q : EventQueue ε) (ledger : Ledger) :
    EventQueue ε × Ledger :=
  if registered then
    match postEvent q ledger.dropped e with
    | (.ok, q', dropped) => (q', { ledger with dropped := dropped })
    | (_, q', dropped) => (q', ⟨dropped, report .eventLost ledger.fault⟩)
  else (q, { ledger with fault := report .portNotReady ledger.fault })

/-- Send an event from an interrupt, where a loss is counted at most. Reference:
`eda/port/port.cpp:108 send_event_from_isr`. -/
def sendEventFromIsr (registered : Bool) (e : ε) (q : EventQueue ε) (ledger : Ledger) :
    EventQueue ε × Ledger :=
  if registered then
    let (_, q', dropped) := postEvent q ledger.dropped e
    (q', { ledger with dropped := dropped })
  else (q, ledger)

variable {q : EventQueue ε} (e : ε) (ledger : Ledger)

/-- An event sent to a registered port with room in its queue is the last of the queue, and nothing
else changes. -/
theorem sendEvent_room (h : q.items.length < QUEUE_LENGTH) :
    (sendEvent true e q ledger).1.items = q.items ++ [e] ∧
      (sendEvent true e q ledger).2 = ledger := by
  obtain ⟨q', hp, hq⟩ := postEvent_room ledger.dropped e h
  unfold sendEvent
  rw [if_pos rfl, hp]
  exact ⟨hq, rfl⟩

theorem sendEventFromIsr_room (h : q.items.length < QUEUE_LENGTH) :
    (sendEventFromIsr true e q ledger).1.items = q.items ++ [e] ∧
      (sendEventFromIsr true e q ledger).2 = ledger := by
  obtain ⟨q', hp, hq⟩ := postEvent_room ledger.dropped e h
  unfold sendEventFromIsr
  rw [if_pos rfl, hp]
  exact ⟨hq, rfl⟩

/-- Whatever becomes of an event, the queue holds what it held, and perhaps the event. -/
theorem sendEvent_items (registered : Bool) :
    (sendEvent registered e q ledger).1.items = q.items ∨
      (sendEvent registered e q ledger).1.items = q.items ++ [e] := by
  unfold sendEvent
  split
  · rcases postEvent_cases q ledger.dropped e with ⟨q', hp, hq⟩ | ⟨hp, -⟩
    · rw [hp]
      exact .inr hq
    · rw [hp]
      exact .inl rfl
  · exact .inl rfl

theorem sendEventFromIsr_items (registered : Bool) :
    (sendEventFromIsr registered e q ledger).1.items = q.items ∨
      (sendEventFromIsr registered e q ledger).1.items = q.items ++ [e] := by
  unfold sendEventFromIsr
  split
  · exact postEvent_items q ledger.dropped e
  · exact .inl rfl

/-- A send takes nothing out of the queue, and a latched fault stays latched. -/
theorem sendEvent_prefix (registered : Bool) :
    q.items <+: (sendEvent registered e q ledger).1.items := by
  rcases sendEvent_items (q := q) e ledger registered with hq | hq
  · exact ⟨[], (List.append_nil _).trans hq.symm⟩
  · exact ⟨[e], hq.symm⟩

theorem sendEvent_fault (registered : Bool) (h : ledger.fault ≠ none) :
    (sendEvent registered e q ledger).2.fault ≠ none := by
  obtain ⟨reason, hfault⟩ := Option.ne_none_iff_exists'.1 h
  have hreport (new : Reason) : report new ledger.fault ≠ none := by
    rw [hfault]
    exact Option.some_ne_none reason
  unfold sendEvent
  split
  · split
    · exact h
    · exact hreport _
  · exact hreport _

/-- What an interrupt does to the queue of a registered port does not depend on the ledger. -/
theorem sendEventFromIsr_queue : (sendEventFromIsr true e q ledger).1 = (q.put e).getD q := by
  unfold sendEventFromIsr postEvent
  cases q.put e <;> rfl

/-- A registered port has an event queued after a send: this one, or those that fill the queue. -/
theorem sendEventFromIsr_ne_nil : (sendEventFromIsr true e q ledger).1.items ≠ [] := by
  unfold sendEventFromIsr
  rw [if_pos rfl]
  rcases postEvent_cases q ledger.dropped e with ⟨q', hp, hq⟩ | ⟨hp, hfull⟩
  · rw [hp]
    show q'.items ≠ []
    rw [hq]
    exact List.append_ne_nil_of_right_ne_nil _ (List.cons_ne_nil _ _)
  · rw [hp]
    show q.items ≠ []
    rintro hnil
    rw [hnil] at hfull
    cases hfull

theorem sendEventFromIsr_prefix (registered : Bool) :
    q.items <+: (sendEventFromIsr registered e q ledger).1.items := by
  rcases sendEventFromIsr_items (q := q) e ledger registered with hq | hq
  · exact ⟨[], (List.append_nil _).trans hq.symm⟩
  · exact ⟨[e], hq.symm⟩

/-- A loss in an interrupt is counted, and latches nothing. -/
theorem sendEventFromIsr_fault (registered : Bool) :
    (sendEventFromIsr registered e q ledger).2.fault = ledger.fault := by
  unfold sendEventFromIsr
  split <;> rfl

/-- What a queue holds after a send was there before, or is the event. -/
theorem mem_sendEvent {registered : Bool} {e' : ε}
    (h : e' ∈ (sendEvent registered e q ledger).1.items) : e' ∈ q.items ∨ e' = e := by
  rcases sendEvent_items (q := q) e ledger registered with hq | hq
  · exact .inl (hq ▸ h)
  · exact (List.mem_append.1 (hq ▸ h)).imp_right List.mem_singleton.1

theorem mem_sendEventFromIsr {registered : Bool} {e' : ε}
    (h : e' ∈ (sendEventFromIsr registered e q ledger).1.items) : e' ∈ q.items ∨ e' = e := by
  rcases sendEventFromIsr_items (q := q) e ledger registered with hq | hq
  · exact .inl (hq ▸ h)
  · exact (List.mem_append.1 (hq ▸ h)).imp_right List.mem_singleton.1

end

end Concentrator.Eda
