import Concentrator.Eda.Basic
import Concentrator.Lib.Contexts

/-!
# The posting of events, one access at a time

The port registry, the queues of the active objects, the dropped-event count and the fault latch, as
any number of contexts use them: threads and interrupts initialise ports and send, and the thread of
each active object takes its events one by one. Only a queue and the report of a fault are atomic.
Everything else is a load or a store, between which the other contexts come; `++` on the count is
one of each. A call that nobody interrupts is what `Eda.sendEvent` makes of it (`sendEvent_alone`).

Beside the code's variables the memory keeps, for each active object, the events its queue accepted
and those its thread has executed, and how many events the queues refused.
-/

namespace Concentrator.Eda.Delivery

/-- No port. Reference: `eda_config/port_list.hpp:22 PortList`. -/
def INVALID_PORT : UInt8 := 0

/-- The size of the registry. Reference: `eda_config/port_list.hpp:22 PortList`. -/
def PORT_COUNT : UInt8 := 5

/-- An event in a queue: the port it is for, its id and its data. Reference:
`eda/active_object/active_object.hpp:59 Event`. -/
structure Event (P : Type) where
  port : P
  eventId : UInt32
  optDataAddress : UInt32
  deriving DecidableEq

/-! ## The memory -/

/-- An access to what the contexts share. `P` are the port objects and `A` the active objects. A
pointer to an active object may be null where it is posted to; `nullDereference` follows a null
pointer to a port. -/
inductive Access (P A : Type) where
  | storePort (id : UInt8) (port : P)
  | loadPort (id : UInt8)
  | storeActiveObject (port : P) (activeObject : A)
  | loadActiveObject (port : P)
  | put (activeObject : Option A) (e : Event P)
  | get (activeObject : A)
  | execute (activeObject : A) (e : Event P)
  | loadDropped
  | storeDropped (count : UInt32)
  | report (reason : Reason)
  | nullDereference
  deriving DecidableEq

/-- The accesses and their answers. -/
abbrev accesses (P A : Type) : Sig where
  Op := Access P A
  Res
    | .loadPort _ => Option P
    | .loadActiveObject _ => Option A
    | .put _ _ => Bool
    | .get _ => Option (Event P)
    | .loadDropped => UInt32
    | _ => Unit

/-- What the contexts share. -/
structure Memory (P A : Type) where
  /-- Reference: `eda/port/port.cpp:26 m_active_ports_list`. -/
  activePortsList : UInt8 → Option P
  /-- `m_active_object` of each port. -/
  activeObject : P → Option A
  queue : A → EventQueue (Event P)
  /-- Reference: `eda/active_object/active_object.cpp:20 s_dropped_event_count`. -/
  dropped : UInt32
  /-- Reference: `utils/fault/fault.cpp:16-19`. -/
  fault : Option Reason
  /-- The events the queue of an active object accepted, the oldest first. -/
  accepted : A → List (Event P)
  /-- The events the thread of an active object has executed, the oldest first. -/
  executed : A → List (Event P)
  /-- How many events the queues refused. -/
  refused : Nat
  /-- A null pointer was followed: what the program does from there on is not defined. -/
  undefined : Bool

section
variable {P A C : Type}

/-- Before any port is initialised. -/
def Memory.initial : Memory P A where
  activePortsList _ := none
  activeObject _ := none
  queue _ := .empty
  dropped := 0
  fault := none
  accepted _ := []
  executed _ := []
  refused := 0
  undefined := false

/-- What an access answers and does. Reference: `hal/os/os.hpp:152 put`, `:158 get`,
`utils/fault/fault.cpp:23 report`. -/
def Memory.access [DecidableEq P] [DecidableEq A] :
    (x : Access P A) → Memory P A → (accesses P A).Res x × Memory P A
  | .storePort id port, m =>
    ((), { m with activePortsList := Function.update m.activePortsList id (some port) })
  | .loadPort id, m => (m.activePortsList id, m)
  | .storeActiveObject port a, m =>
    ((), { m with activeObject := Function.update m.activeObject port (some a) })
  | .loadActiveObject port, m => (m.activeObject port, m)
  | .put (some a) e, m =>
    match (m.queue a).put e with
    | some q =>
      (true, { m with
        queue := Function.update m.queue a q
        accepted := Function.update m.accepted a (m.accepted a ++ [e]) })
    | none => (false, { m with refused := m.refused + 1 })
  | .put none _, m => (false, { m with undefined := true })
  | .get a, m =>
    match (m.queue a).tryGet with
    | some (e, q) => (some e, { m with queue := Function.update m.queue a q })
    | none => (none, m)
  | .execute a e, m =>
    ((), { m with executed := Function.update m.executed a (m.executed a ++ [e]) })
  | .loadDropped, m => (m.dropped, m)
  | .storeDropped count, m => ((), { m with dropped := count })
  | .report reason, m => ((), { m with fault := Eda.report reason m.fault })
  | .nullDereference, m => ((), { m with undefined := true })

/-! ## The functions -/

/-- Make one access. -/
abbrev makes (x : Access P A) : Prog (accesses P A) ((accesses P A).Res x) :=
  .op (S := accesses P A) x

/-- Whether a port is registered under an id, and has its active object. The registry is read twice.
Reference: `eda/port/port.cpp:32 is_registered`. -/
def isRegistered (id : UInt8) : Prog (accesses P A) Bool :=
  if id ≠ INVALID_PORT ∧ id < PORT_COUNT then do
    match ← makes (.loadPort id) with
    | none => return false
    | some _ =>
      match ← makes (.loadPort id) with
      | none =>
        makes .nullDereference
        return false
      | some port => return (← makes (.loadActiveObject port)).isSome
  else return false

/-- Register a port. Reference: `eda/port/port.cpp:51 init`. -/
def init (port : P) (id : UInt8) (a : A) : Prog (accesses P A) Unit :=
  if id ≠ INVALID_PORT ∧ id < PORT_COUNT then do
    makes (.storePort id port)
    makes (.storeActiveObject port a)
  else return

/-- Post an event to an active object. `post_event()` and `post_event_from_isr()` differ in the log
line only. Reference: `eda/active_object/active_object.cpp:37 post_event`, `:52
post_event_from_isr`. -/
def postEvent (activeObject : Option A) (e : Event P) : Prog (accesses P A) PostResult := do
  if ← makes (.put activeObject e) then
    return .ok
  else
    let count ← makes .loadDropped
    makes (.storeDropped (count + 1))
    return .queueFull

/-- Post an event to the port under an id, where one is registered. -/
def post (id : UInt8) (eventId optDataAddress : UInt32) : Prog (accesses P A) PostResult := do
  if ← isRegistered id then
    match ← makes (.loadPort id) with
    | none =>
      makes .nullDereference
      return .portNotReady
    | some port =>
      let activeObject ← makes (.loadActiveObject port)
      postEvent activeObject ⟨port, eventId, optDataAddress⟩
  else return .portNotReady

/-- What a thread reports of a post. Reference: `eda/port/port.cpp:91-103`. -/
def reasonOf : PostResult → Option Reason
  | .ok => none
  | .queueFull => some .eventLost
  | .portNotReady => some .portNotReady

/-- A thread sends an event, in a release build. Reference: `eda/port/port.cpp:75 send_event`. -/
def sendEvent (id : UInt8) (eventId optDataAddress : UInt32) : Prog (accesses P A) Unit := do
  let result ← post id eventId optDataAddress
  match reasonOf result with
  | none => return
  | some reason => makes (.report reason)

/-- An interrupt sends an event. Reference: `eda/port/port.cpp:108 send_event_from_isr`. -/
def sendEventFromIsr (id : UInt8) (eventId optDataAddress : UInt32) :
    Prog (accesses P A) Unit := do
  let _ ← post id eventId optDataAddress

/-- One round of an active object's loop: it takes the oldest event of its queue, if there is one,
and executes it. Reference: `eda/active_object/active_object.cpp:70 process_events`. -/
def processEvents (a : A) : Prog (accesses P A) Unit := do
  match ← makes (.get a) with
  | none => return
  | some e => makes (.execute a e)

/-- Who runs: the thread of an active object, or one of the contexts `C`, in which ports are
initialised and events are sent. The handlers of an active object send in one of the latter. -/
inductive Context (A C : Type) where
  | object (a : A)
  | sender (c : C)
  deriving DecidableEq

/-- What a sender calls. -/
inductive Send (P A : Type) where
  | init (port : P) (id : UInt8) (activeObject : A)
  | sendEvent (id : UInt8) (eventId optDataAddress : UInt32)
  | sendEventFromIsr (id : UInt8) (eventId optDataAddress : UInt32)

/-- What a call runs. -/
def Send.body : Send P A → Prog (accesses P A) Unit
  | .init port id a => Delivery.init port id a
  | .sendEvent id eventId optDataAddress => Delivery.sendEvent id eventId optDataAddress
  | .sendEventFromIsr id eventId optDataAddress =>
    Delivery.sendEventFromIsr id eventId optDataAddress

variable (P A C) in
/-- The contexts, over any ports and active objects. -/
abbrev contexts [DecidableEq P] [DecidableEq A] : Contexts (accesses P A) (Context A C) where
  Mem := Memory P A
  Method
    | .object _ => Unit
    | .sender _ => Send P A
  access := Memory.access
  body
    | .object a, _ => processEvents a
    | .sender _, call => call.body

variable [DecidableEq P] [DecidableEq A]

/-! ## What the queues do -/

theorem Memory.access_put_some {a : A} {e : Event P} {m : Memory P A} {q : EventQueue (Event P)}
    (h : (m.queue a).put e = some q) : m.access (.put (some a) e) = (true, { m with
      queue := Function.update m.queue a q
      accepted := Function.update m.accepted a (m.accepted a ++ [e]) }) := by
  simp only [Memory.access, h]

theorem Memory.access_put_none {a : A} {e : Event P} {m : Memory P A}
    (h : (m.queue a).put e = none) :
    m.access (.put (some a) e) = (false, { m with refused := m.refused + 1 }) := by
  simp only [Memory.access, h]

/-- What a post to an active object does: the event is the last of the queue, or it is refused. -/
theorem Memory.access_put (a : A) (e : Event P) (m : Memory P A) :
    (∃ q, q.items = (m.queue a).items ++ [e] ∧ m.access (.put (some a) e) = (true, { m with
      queue := Function.update m.queue a q
      accepted := Function.update m.accepted a (m.accepted a ++ [e]) })) ∨
    m.access (.put (some a) e) = (false, { m with refused := m.refused + 1 }) := by
  cases hput : (m.queue a).put e with
  | some q => exact .inl ⟨q, Fifo.put_eq_some hput, Memory.access_put_some hput⟩
  | none => exact .inr (Memory.access_put_none hput)

/-- What taking an event does. -/
theorem Memory.access_get (a : A) (m : Memory P A) :
    (∃ e q, (m.queue a).items = e :: q.items ∧
      m.access (.get a) = (some e, { m with queue := Function.update m.queue a q })) ∨
    m.access (.get a) = (none, m) := by
  cases hget : (m.queue a).tryGet with
  | some taken =>
    obtain ⟨e, q⟩ := taken
    refine .inl ⟨e, q, Fifo.tryGet_eq_some hget, ?_⟩
    simp only [Memory.access, hget]
  | none =>
    refine .inr ?_
    simp only [Memory.access, hget]

/-! ## One call alone -/

/-- The port object registered under an id, and the active object it belongs to. -/
def registered (m : Memory P A) (id : UInt8) : Option (P × A) :=
  if id ≠ INVALID_PORT ∧ id < PORT_COUNT then
    (m.activePortsList id).bind fun port => (m.activeObject port).map fun a => (port, a)
  else none

omit [DecidableEq P] [DecidableEq A] in
/-- A registered port is in range, in the registry, and has its active object. -/
theorem registered_eq_some {m : Memory P A} {id : UInt8} {port : P} {a : A}
    (h : registered m id = some (port, a)) :
    (id ≠ INVALID_PORT ∧ id < PORT_COUNT) ∧ m.activePortsList id = some port ∧
      m.activeObject port = some a := by
  unfold registered at h
  split at h
  · next hid =>
    obtain ⟨port', hport, h⟩ := Option.bind_eq_some_iff.1 h
    obtain ⟨a', ha, h⟩ := Option.map_eq_some_iff.1 h
    cases h
    exact ⟨hid, hport, ha⟩
  · cases h

theorem makes_alone {α : Type} (x : Access P A) (f : (accesses P A).Res x → Prog (accesses P A) α)
    (m : Memory P A) : (makes x >>= f).exec Memory.access m =
      (f (m.access x).1).exec Memory.access (m.access x).2 := rfl

/-- A lookup with nobody else about. -/
theorem isRegistered_alone (m : Memory P A) (id : UInt8) :
    (isRegistered id).exec Memory.access m = ((registered m id).isSome, m) := by
  unfold isRegistered registered
  split
  · rw [makes_alone]
    dsimp only [Memory.access]
    cases hport : m.activePortsList id with
    | none => rfl
    | some port =>
      dsimp only
      rw [makes_alone]
      dsimp only [Memory.access]
      rw [hport]
      dsimp only
      rw [makes_alone]
      dsimp only [Memory.access, Option.bind_some]
      rw [Option.isSome_map]
      rfl
  · rfl

/-- A post with nobody else about. -/
theorem post_alone {m : Memory P A} {id : UInt8} {port : P} {a : A}
    (eventId optDataAddress : UInt32) (hreg : registered m id = some (port, a)) :
    (post id eventId optDataAddress).exec Memory.access m =
      match (m.queue a).put ⟨port, eventId, optDataAddress⟩ with
      | some q => (.ok, { m with
          queue := Function.update m.queue a q
          accepted := Function.update m.accepted a
            (m.accepted a ++ [⟨port, eventId, optDataAddress⟩]) })
      | none => (.queueFull, { m with refused := m.refused + 1, dropped := m.dropped + 1 }) := by
  obtain ⟨-, hport, ha⟩ := registered_eq_some hreg
  unfold post
  rw [Prog.exec_bind, isRegistered_alone, hreg]
  show (makes (.loadPort id) >>= _).exec Memory.access m = _
  rw [makes_alone]
  dsimp only [Memory.access]
  rw [hport]
  dsimp only
  rw [makes_alone]
  dsimp only [Memory.access]
  rw [ha, postEvent, makes_alone]
  cases hput : (m.queue a).put ⟨port, eventId, optDataAddress⟩ with
  | some q =>
    rw [Memory.access_put_some hput]
    rfl
  | none =>
    rw [Memory.access_put_none hput]
    rfl

/-- With nobody else about, a thread's call is `Eda.sendEvent` on the queue of the active object
and on the ledger. -/
theorem sendEvent_alone {m : Memory P A} {id : UInt8} {port : P} {a : A}
    (eventId optDataAddress : UInt32) (hreg : registered m id = some (port, a)) :
    let m' := ((sendEvent id eventId optDataAddress).exec Memory.access m).2
    (m'.queue a, (⟨m'.dropped, m'.fault⟩ : Ledger)) =
      Eda.sendEvent true ⟨port, eventId, optDataAddress⟩ (m.queue a) ⟨m.dropped, m.fault⟩ := by
  intro m'
  unfold m' sendEvent Eda.sendEvent Eda.postEvent
  rw [Prog.exec_bind, post_alone eventId optDataAddress hreg, if_pos rfl]
  cases (m.queue a).put ⟨port, eventId, optDataAddress⟩ with
  | some q => exact Prod.ext (Function.update_self ..) rfl
  | none => rfl

/-- With nobody else about, an interrupt's call is `Eda.sendEventFromIsr`. -/
theorem sendEventFromIsr_alone {m : Memory P A} {id : UInt8} {port : P} {a : A}
    (eventId optDataAddress : UInt32) (hreg : registered m id = some (port, a)) :
    let m' := ((sendEventFromIsr id eventId optDataAddress).exec Memory.access m).2
    (m'.queue a, (⟨m'.dropped, m'.fault⟩ : Ledger)) =
      Eda.sendEventFromIsr true ⟨port, eventId, optDataAddress⟩ (m.queue a)
        ⟨m.dropped, m.fault⟩ := by
  intro m'
  unfold m' sendEventFromIsr Eda.sendEventFromIsr Eda.postEvent
  rw [Prog.exec_bind, post_alone eventId optDataAddress hreg, if_pos rfl]
  cases (m.queue a).put ⟨port, eventId, optDataAddress⟩ with
  | some q => exact Prod.ext (Function.update_self ..) rfl
  | none => rfl

end

end Concentrator.Eda.Delivery
