import Concentrator.Eda.Posting

/-!
# A call among others

What each call by itself comes to, whatever the other contexts do between two of its accesses
(`body_ensures`). It relies on little: what is registered stays registered, and a latched fault
keeps its reason (`Kept`).
-/

namespace Concentrator.Eda.Delivery

section
variable {P A C : Type}

/-! ## What a call has made -/

/-- An access with its answer. -/
abbrev Entry (P A : Type) : Type := (accesses P A).Entry

/-- Where a context is in a post, or in a round of its loop, after its latest access. -/
inductive Place (P : Type) where
  | free
  /-- The queue has refused an event, which is not counted yet. -/
  | refused
  /-- The count was loaded, and is not stored yet. -/
  | counting (count : UInt32)
  /-- An event was taken, and is not executed yet. -/
  | holding (e : Event P)

/-- Where a context is that has made these accesses. -/
def place : List (Entry P A) → Place P
  | ⟨.put _ _, false⟩ :: _ => .refused
  | ⟨.loadDropped, count⟩ :: _ => .counting count
  | ⟨.get _, some e⟩ :: _ => .holding e
  | _ => .free

/-- What a context may do next: an event that was refused is counted, and one that was taken is
executed. Nothing else touches the count or executes, and no null pointer is followed to a port. -/
def Fits (c : Context A C) : Place P → Access P A → Prop
  | .refused, x => x = .loadDropped
  | .counting count, x => x = .storeDropped (count + 1)
  | .holding e, x => ∃ a, c = .object a ∧ x = .execute a e
  | .free, .get a => c = .object a
  | .free, .execute _ _ | .free, .loadDropped | .free, .storeDropped _
  | .free, .nullDereference => False
  | .free, _ => True

/-- The posts among the accesses: to which active object, of which event, and whether the queue
accepted it. -/
def posts (trace : List (Entry P A)) : List (Option A × Event P × Bool) :=
  trace.filterMap fun
    | ⟨.put activeObject e, accepted⟩ => some (activeObject, e, accepted)
    | _ => none

/-- What the accesses stored in the count. -/
def counts (trace : List (Entry P A)) : List UInt32 :=
  trace.filterMap fun
    | ⟨.storeDropped count, _⟩ => some count
    | _ => none

/-- One event is appended to the queue of the active object that the port under the id belongs
to. -/
def Appended (id : UInt8) (eventId optDataAddress : UInt32) (trace : List (Entry P A)) : Prop :=
  ∃ port a, ⟨.loadPort id, some port⟩ ∈ trace ∧ ⟨.loadActiveObject port, some a⟩ ∈ trace ∧
    posts trace = [(some a, ⟨port, eventId, optDataAddress⟩, true)] ∧ counts trace = []

/-- The queue refuses the event, and the count is stored once. -/
def Refused (id : UInt8) (eventId optDataAddress : UInt32) (trace : List (Entry P A)) : Prop :=
  ∃ port activeObject count, ⟨.loadPort id, some port⟩ ∈ trace ∧
    ⟨.loadActiveObject port, activeObject⟩ ∈ trace ∧
    posts trace = [(activeObject, ⟨port, eventId, optDataAddress⟩, false)] ∧ counts trace = [count]

/-- No port is registered under the id, or it has no active object; and nothing is posted or
counted. -/
def Unregistered (id : UInt8) (trace : List (Entry P A)) : Prop :=
  (¬ (id ≠ INVALID_PORT ∧ id < PORT_COUNT) ∨ ⟨.loadPort id, none⟩ ∈ trace ∨
    ∃ port, ⟨.loadPort id, some port⟩ ∈ trace ∧ ⟨.loadActiveObject port, none⟩ ∈ trace) ∧
  posts trace = [] ∧ counts trace = []

/-- What a post comes to. -/
def Posted (id : UInt8) (eventId optDataAddress : UInt32) :
    PostResult → List (Entry P A) → Prop
  | .ok => Appended id eventId optDataAddress
  | .queueFull => Refused id eventId optDataAddress
  | .portNotReady => Unregistered id

/-- The accesses only read the registry. -/
def Lookups (trace : List (Entry P A)) : Prop :=
  place trace = .free ∧ posts trace = [] ∧ counts trace = []

/-- What the contexts keep: a registered port, and the reason of a fault. -/
structure Kept (m m' : Memory P A) : Prop where
  registered : ∀ id, m.activePortsList id ≠ none → m'.activePortsList id ≠ none
  fault : ∀ reason, m.fault = some reason → m'.fault = some reason

theorem Kept.refl (m : Memory P A) : Kept m m := ⟨fun _ h => h, fun _ h => h⟩

theorem Kept.trans (m₁ m₂ m₃ : Memory P A) (h : Kept m₁ m₂) (h' : Kept m₂ m₃) : Kept m₁ m₃ :=
  ⟨fun id hm => h'.registered id (h.registered id hm),
    fun reason hm => h'.fault reason (h.fault reason hm)⟩

variable [DecidableEq P] [DecidableEq A]

/-- Every access keeps the registered ports and the reason of a fault. -/
theorem Kept.access (x : Access P A) (m : Memory P A) : Kept m (m.access x).2 := by
  cases x with
  | storePort id port =>
    refine ⟨fun id' h => ?_, fun _ h => h⟩
    show Function.update m.activePortsList id (some port) id' ≠ none
    by_cases hid : id' = id
    · subst hid
      rw [Function.update_self]
      exact Option.some_ne_none port
    · rwa [Function.update_of_ne hid]
  | report reason =>
    refine ⟨fun _ h => h, fun reason' h => ?_⟩
    show Eda.report reason m.fault = some reason'
    rw [h]
    rfl
  | put activeObject e =>
    cases activeObject with
    | none => exact ⟨fun _ h => h, fun _ h => h⟩
    | some a =>
      rcases m.access_put a e with ⟨q, -, hput⟩ | hput <;> rw [hput] <;>
        exact ⟨fun _ h => h, fun _ h => h⟩
  | get a =>
    rcases m.access_get a with ⟨e, q, -, hget⟩ | hget <;> rw [hget] <;>
      exact ⟨fun _ h => h, fun _ h => h⟩
  | _ => exact ⟨fun _ h => h, fun _ h => h⟩

/-! ## The functions -/

/-- What every access of a context relies on. -/
abbrev Proper (c : Context A C) (x : Access P A) (trace : List (Entry P A)) (_ : Memory P A) :
    Prop :=
  Fits c (place trace) x

variable {α : Type} {c : C} {id : UInt8} {eventId optDataAddress : UInt32}
  {trace : List (Entry P A)} {m : Memory P A} {Q : α → List (Entry P A) → Memory P A → Prop}

/-- A read of the registry. -/
theorem loadPort_ensures {f : Option P → Prog (accesses P A) α} (htrace : Lookups trace)
    (h : ∀ port m', m'.activePortsList id = port → Kept m m' →
      Lookups (⟨.loadPort id, port⟩ :: trace) →
      (contexts P A C).Ensures Kept (Proper (.sender c)) Q (f port) (⟨.loadPort id, port⟩ :: trace)
        m') :
    (contexts P A C).Ensures Kept (Proper (.sender c)) Q (makes (.loadPort id) >>= f) trace m := by
  intro m' hm'
  refine ⟨?_, h _ m' rfl hm' ⟨rfl, htrace.2⟩⟩
  rw [Proper, htrace.1]
  trivial

/-- A read of the active object that a port belongs to. -/
theorem loadActiveObject_ensures {port : P} {f : Option A → Prog (accesses P A) α}
    (htrace : Lookups trace)
    (h : ∀ a m', Kept m m' → Lookups (⟨.loadActiveObject port, a⟩ :: trace) →
      (contexts P A C).Ensures Kept (Proper (.sender c)) Q (f a)
        (⟨.loadActiveObject port, a⟩ :: trace) m') :
    (contexts P A C).Ensures Kept (Proper (.sender c)) Q (makes (.loadActiveObject port) >>= f)
      trace m := by
  intro m' hm'
  refine ⟨?_, h _ m' hm' ⟨rfl, htrace.2⟩⟩
  rw [Proper, htrace.1]
  trivial

/-- A lookup changes no queue and no count. It finds a port that stays registered, or none. -/
theorem isRegistered_ensures (htrace : Lookups trace) :
    (contexts P A C).Ensures Kept (Proper (.sender c)) (fun found trace m => Lookups trace ∧
      if found then m.activePortsList id ≠ none else Unregistered id trace)
      (isRegistered id) trace m := by
  unfold isRegistered
  split
  · refine loadPort_ensures htrace ?_
    rintro (_ | port) m₁ hport - htrace₁
    · exact fun m' _ => ⟨htrace₁, .inr (.inl (.head _)), htrace₁.2⟩
    · -- the port stays registered, so the second read finds one too
      refine loadPort_ensures htrace₁ ?_
      rintro (_ | port') m₂ hport₂ hkept htrace₂
      · exact absurd hport₂ (hkept.registered id (hport ▸ Option.some_ne_none port))
      · refine loadActiveObject_ensures htrace₂ ?_
        rintro (_ | a) m₃ hkept₃ htrace₃ m' hm'
        · exact ⟨htrace₃, .inr (.inr ⟨port', .tail _ (.head _), .head _⟩), htrace₃.2⟩
        · have hport₃ := hkept₃.registered id (hport₂ ▸ Option.some_ne_none port')
          exact ⟨htrace₃, hm'.registered id hport₃⟩
  · next hid => exact fun m' _ => ⟨htrace, .inl hid, htrace.2⟩

/-- A post to an active object, which accepts the event or refuses it. -/
theorem put_ensures {activeObject : Option A} {e : Event P}
    {f : Bool → Prog (accesses P A) α} (htrace : Lookups trace)
    (haccepted : ∀ a m', activeObject = some a → (contexts P A C).Ensures Kept
      (Proper (.sender c)) Q (f true) (⟨.put activeObject e, true⟩ :: trace) m')
    (hrefused : ∀ m', (contexts P A C).Ensures Kept (Proper (.sender c)) Q (f false)
      (⟨.put activeObject e, false⟩ :: trace) m') :
    (contexts P A C).Ensures Kept (Proper (.sender c)) Q (makes (.put activeObject e) >>= f) trace
      m := by
  intro m' _
  refine ⟨by rw [Proper, htrace.1]; trivial, ?_⟩
  show (contexts P A C).Ensures Kept (Proper (.sender c)) Q
    (f (m'.access (.put activeObject e)).1)
    (⟨.put activeObject e, (m'.access (.put activeObject e)).1⟩ :: trace)
    (m'.access (.put activeObject e)).2
  cases activeObject with
  | none => exact hrefused _
  | some a =>
    rcases m'.access_put a e with ⟨q, -, hput⟩ | hput
    · rw [hput]
      exact haccepted a _ rfl
    · rw [hput]
      exact hrefused _

/-- A post that looked its port up is accepted, or refused and counted. -/
theorem postEvent_ensures {port : P} {activeObject : Option A} (htrace : Lookups trace)
    (hport : ⟨.loadPort id, some port⟩ ∈ trace)
    (hobject : ⟨.loadActiveObject port, activeObject⟩ ∈ trace) :
    (contexts P A C).Ensures Kept (Proper (.sender c))
      (fun result trace _ => place trace = .free ∧ Posted id eventId optDataAddress result trace)
      (postEvent activeObject ⟨port, eventId, optDataAddress⟩) trace m := by
  refine put_ensures htrace ?_ ?_
  · rintro a m₁ rfl m₂ -
    refine ⟨rfl, port, a, .tail _ hport, .tail _ hobject, ?_, htrace.2.2⟩
    show _ :: posts trace = _
    rw [htrace.2.1]
  · -- the event is refused: the count is loaded, and stored
    refine fun m₁ m₂ _ => ⟨rfl, fun m₃ _ => ⟨rfl, fun m₄ _ => ⟨rfl, port, activeObject,
      m₂.dropped + 1, .tail _ (.tail _ (.tail _ hport)), .tail _ (.tail _ (.tail _ hobject)), ?_,
      ?_⟩⟩⟩
    · show _ :: posts trace = _
      rw [htrace.2.1]
    · show _ :: counts trace = _
      rw [htrace.2.2]
      rfl

/-- What a post comes to, among the others. -/
theorem post_ensures : (contexts P A C).Ensures Kept (Proper (.sender c))
    (fun result trace _ => place trace = .free ∧ Posted id eventId optDataAddress result trace)
    (post id eventId optDataAddress) [] m := by
  refine (isRegistered_ensures ⟨rfl, rfl, rfl⟩).bind Kept.refl ?_
  rintro (_ | _) trace₁ m₁ ⟨htrace₁, hfound⟩
  · exact fun m' _ => ⟨htrace₁.1, hfound⟩
  · refine loadPort_ensures htrace₁ ?_
    rintro (_ | port) m₂ hport hkept htrace₂
    · exact absurd hport (hkept.registered id hfound)
    · refine loadActiveObject_ensures htrace₂ fun activeObject m₃ _ htrace₃ => ?_
      exact postEvent_ensures htrace₃ (.tail _ (.head _)) (.head _)

/-- What a thread's call comes to: it appends one event, or it changes no queue and the latch is
active. -/
def Sent (id : UInt8) (eventId optDataAddress : UInt32) (trace : List (Entry P A))
    (m : Memory P A) : Prop :=
  Appended id eventId optDataAddress trace ∨
    (∀ p ∈ posts trace, p.2.2 = false) ∧ m.fault ≠ none

/-- What an interrupt's call comes to: it appends one event, or counts one loss, or finds no port
registered. -/
def SentFromIsr (id : UInt8) (eventId optDataAddress : UInt32) (trace : List (Entry P A)) : Prop :=
  Appended id eventId optDataAddress trace ∨ Refused id eventId optDataAddress trace ∨
    Unregistered id trace

/-- What a call comes to. -/
def Done : (c : Context A C) → (contexts P A C).Method c → List (Entry P A) → Memory P A → Prop
  | .sender _, .sendEvent id eventId optDataAddress, trace, m =>
    Sent id eventId optDataAddress trace m
  | .sender _, .sendEventFromIsr id eventId optDataAddress, trace, _ =>
    SentFromIsr id eventId optDataAddress trace
  | _, _, _, _ => True

/-- The report of a post that failed leaves the latch active. -/
theorem report_ensures {reason : Reason} (hplace : place trace = .free)
    (hposts : ∀ p ∈ posts trace, p.2.2 = false) :
    (contexts P A C).Ensures Kept (Proper (.sender c))
      (fun _ trace m => place trace = .free ∧ Sent id eventId optDataAddress trace m)
      (makes (.report reason)) trace m := by
  intro m₁ _
  refine ⟨by rw [Proper, hplace]; trivial, fun m₂ hm₂ => ⟨rfl, .inr ⟨hposts, ?_⟩⟩⟩
  obtain ⟨first, hfirst⟩ : ∃ first, Eda.report reason m₁.fault = some first := by
    cases m₁.fault with
    | none => exact ⟨reason, rfl⟩
    | some first => exact ⟨first, rfl⟩
  rw [hm₂.fault first hfirst]
  exact Option.some_ne_none first

theorem sendEvent_ensures : (contexts P A C).Ensures Kept (Proper (.sender c))
    (fun _ trace m => place trace = .free ∧ Sent id eventId optDataAddress trace m)
    (sendEvent id eventId optDataAddress) [] m := by
  refine post_ensures.bind Kept.refl ?_
  rintro (_ | _ | _) trace₁ m₁ ⟨hplace, hposted⟩
  · exact fun m' _ => ⟨hplace, .inl hposted⟩
  · obtain ⟨port, activeObject, count, -, -, hposts, -⟩ := hposted
    refine report_ensures hplace fun p hp => ?_
    rw [hposts] at hp
    rw [List.mem_singleton.1 hp]
  · refine report_ensures hplace fun p hp => ?_
    rw [hposted.2.1] at hp
    cases hp

theorem sendEventFromIsr_ensures : (contexts P A C).Ensures Kept (Proper (.sender c))
    (fun _ trace _ => place trace = .free ∧ SentFromIsr id eventId optDataAddress trace)
    (sendEventFromIsr id eventId optDataAddress) [] m := by
  refine post_ensures.bind Kept.refl ?_
  rintro (_ | _ | _) trace₁ m₁ ⟨hplace, hposted⟩ m' -
  · exact ⟨hplace, .inl hposted⟩
  · exact ⟨hplace, .inr (.inl hposted)⟩
  · exact ⟨hplace, .inr (.inr hposted)⟩

theorem init_ensures {port : P} {a : A} : (contexts P A C).Ensures Kept (Proper (.sender c))
    (fun _ trace _ => place trace = .free) (init port id a) [] m := by
  unfold init
  split
  · exact fun _ _ => ⟨trivial, fun _ _ => ⟨trivial, fun _ _ => rfl⟩⟩
  · exact fun _ _ => rfl

theorem processEvents_ensures {a : A} : (contexts P A C).Ensures Kept
    (Proper (.object a : Context A C)) (fun _ trace _ => place trace = .free) (processEvents a) []
    m := by
  refine fun m₁ _ => ⟨rfl, ?_⟩
  rcases m₁.access_get a with ⟨e, q, -, hget⟩ | hget
  · have hget : (contexts P A C).access (.get a) m₁ = _ := hget
    rw [hget]
    exact fun _ _ => ⟨⟨a, rfl, rfl⟩, fun _ _ => rfl⟩
  · have hget : (contexts P A C).access (.get a) m₁ = _ := hget
    rw [hget]
    exact fun _ _ => rfl

/-- Each call by itself is as it should be, whatever the others do. -/
theorem body_ensures (c : Context A C) (method : (contexts P A C).Method c) (m : Memory P A) :
    (contexts P A C).Ensures Kept (Proper c)
      (fun _ trace m => place trace = .free ∧ Done c method trace m)
      ((contexts P A C).body c method) [] m := by
  cases c with
  | object a => exact processEvents_ensures.mono fun _ _ _ h => ⟨h, trivial⟩
  | sender c =>
    cases method with
    | init port id a => exact init_ensures.mono fun _ _ _ h => ⟨h, trivial⟩
    | sendEvent id eventId optDataAddress => exact sendEvent_ensures
    | sendEventFromIsr id eventId optDataAddress => exact sendEventFromIsr_ensures
end

end Concentrator.Eda.Delivery
