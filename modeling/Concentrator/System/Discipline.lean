import Concentrator.Comms.ServiceRule
import Concentrator.System.Basic

/-!
# The discipline of the comms service

The invariants of the composed system are kept by the acts of the others, and by the calls of the
comms thread at the moment it makes them: a connect and the report of its outcome while it handles a
join, the calls of a cycle while it handles a dispatch with dispatching enabled, the flag and the
timer while it is told to start or to stop. `Discipline` lists these duties, and `Discipline.reach`
turns them into an invariant of every run, by the rule of the comms service.
-/

namespace Concentrator.System

open Threaded

variable {T : Transport} {ρ : Type} {cfg : Config}

/-! ## What each act does -/

theorem postBringUp_cases (s : State T ρ cfg) : s.postBringUp = s ∨
    ∃ e, s.bringUp = some e ∧ s.postBringUp = { s.sendToApp e with bringUp := none } := by
  unfold State.postBringUp
  split
  · exact .inl rfl
  · next e he => exact .inr ⟨e, he, rfl⟩

theorem handleEvent_cases (s : State T ρ cfg) : s.appQueue.items = [] ∧ s.handleEvent = s ∨
    ∃ (e : App.Event) (q : Eda.EventQueue App.Event), s.appQueue.items = e :: q.items ∧
      s.handleEvent =
        (App.dispatchEvent s.state e).foldl State.carryOut { s with appQueue := q } := by
  unfold State.handleEvent
  split
  · next hget => exact .inl ⟨Fifo.tryGet_eq_none hget, rfl⟩
  · next e q hget => exact .inr ⟨e, q, Fifo.tryGet_eq_some hget, rfl⟩

theorem expireRetryTimer_cases (s : State T ρ cfg) :
    let sent :=
      Eda.sendEventFromIsr (s.registered .appPort) App.Event.retryTimeout s.appQueue s.ledger
    s.expireRetryTimer = s ∨ s.expireRetryTimer =
      { s with retryTimer := none, appQueue := sent.1, ledger := sent.2 } := by
  unfold State.expireRetryTimer
  split
  · exact .inl rfl
  · exact .inr rfl

theorem expireDispatchTimer_cases (s : State T ρ cfg) :
    let sent :=
      Eda.sendEventFromIsr (s.registered .commsPort) Comms.Event.dispatchDue s.commsQueue s.ledger
    s.expireDispatchTimer = s ∨ s.dispatchTimer = true ∧
      s.expireDispatchTimer = { s with commsQueue := sent.1, ledger := sent.2 } := by
  unfold State.expireDispatchTimer
  split
  · next hrunning => exact .inr ⟨hrunning, rfl⟩
  · exact .inl rfl

/-- The acquisition thread takes an event. -/
theorem executeCommand_taken {s : State T ρ cfg} {e : Acquisition.Event}
    {q : Eda.EventQueue Acquisition.Event} (hget : s.acquisitionQueue.tryGet = some (e, q))
    (result : Int) : ∃ isScanning, s.executeCommand result =
      { s with acquisitionQueue := q, isScanning := isScanning } := by
  unfold State.executeCommand
  rw [hget]
  cases e <;> exact ⟨_, rfl⟩

theorem executeCommand_cases (result : Int) (s : State T ρ cfg) : s.executeCommand result = s ∨
    ∃ q isScanning, s.executeCommand result =
      { s with acquisitionQueue := q, isScanning := isScanning } := by
  cases hget : s.acquisitionQueue.tryGet with
  | none =>
    unfold State.executeCommand
    rw [hget]
    exact .inl rfl
  | some p => exact .inr ⟨p.2, executeCommand_taken hget result⟩

/-! ## What the others leave alone -/

/-- The part of the state that the comms thread alone writes. -/
def State.own (s : State T ρ cfg) : Option Comms.Event × Bool × Bool × T.State :=
  (s.executing, s.dispatchEnabled, s.dispatchTimer, s.link)

/-- The part of the state that posting an event does not touch. -/
def State.unposted (s : State T ρ cfg) :
    (Option Comms.Event × Bool × Bool × T.State) × App.StateId × Comms.World ρ cfg :=
  (s.own, s.state, s.world)

/-- What every action of the application leaves alone, its handlers leave alone. -/
theorem foldl_carryOut {α : Type} (f : State T ρ cfg → α) (h : ∀ s a, f (s.carryOut a) = f s)
    (actions : List App.Action) (s : State T ρ cfg) : f (actions.foldl State.carryOut s) = f s := by
  induction actions generalizing s with
  | nil => rfl
  | cons a actions ih => exact (ih _).trans (h s a)

/-- Where a handler leaves the state machine. The induction is on its actions. -/
theorem foldl_carryOut_state (actions : List App.Action) (s : State T ρ cfg) :
    (actions.foldl State.carryOut s).state = App.settle s.state actions := by
  induction actions generalizing s with
  | nil => rfl
  | cons a actions ih =>
    refine (ih _).trans ?_
    cases a <;> rfl

theorem carryOut_own (s : State T ρ cfg) (a : App.Action) : (s.carryOut a).own = s.own := by
  cases a <;> rfl

theorem carryOut_world (s : State T ρ cfg) (a : App.Action) : (s.carryOut a).world = s.world := by
  cases a <;> rfl

theorem handleEvent_own (s : State T ρ cfg) : s.handleEvent.own = s.own := by
  rcases handleEvent_cases s with ⟨-, hs⟩ | ⟨e, q, -, hs⟩ <;> rw [hs]
  exact foldl_carryOut State.own carryOut_own _ _

theorem handleEvent_world (s : State T ρ cfg) : s.handleEvent.world = s.world := by
  rcases handleEvent_cases s with ⟨-, hs⟩ | ⟨e, q, -, hs⟩ <;> rw [hs]
  exact foldl_carryOut State.world carryOut_world _ _

/-- The application posts nothing to itself. -/
theorem mem_handleEvent {s : State T ρ cfg} {e : App.Event}
    (h : e ∈ s.handleEvent.appQueue.items) : e ∈ s.appQueue.items := by
  rcases handleEvent_cases s with ⟨-, hs⟩ | ⟨e', q, hpop, hs⟩
  · rwa [hs] at h
  · rw [hs, foldl_carryOut (fun s => s.appQueue) fun s a => by cases a <;> rfl] at h
    rw [hpop]
    exact .tail _ h

/-- What a handler posts to comms goes behind the others, as far as there is room. The induction is
on its actions. -/
theorem foldl_carryOut_commsQueue (actions : List App.Action) (s : State T ρ cfg) :
    ∃ l, l.Sublist (App.commsPosts actions) ∧
      (actions.foldl State.carryOut s).commsQueue.items = s.commsQueue.items ++ l := by
  induction actions generalizing s with
  | nil => exact ⟨[], .refl _, (List.append_nil _).symm⟩
  | cons a actions ih =>
    obtain ⟨l, hl, hq⟩ := ih (s.carryOut a)
    cases a with
    | sendToComms e =>
      have hsent := Eda.sendEvent_items (q := s.commsQueue) e s.ledger (s.registered .commsPort)
      rcases hsent with hsent | hsent
      · exact ⟨l, hl.cons e, hq.trans (congrArg (· ++ l) hsent)⟩
      · refine ⟨e :: l, hl.cons_cons e, (hq.trans (congrArg (· ++ l) hsent)).trans ?_⟩
        rw [List.append_assoc]
        rfl
    | _ => exact ⟨l, hl, hq⟩

/-- The application posts an event to comms at most, and moves its state machine. -/
theorem handleEvent_commsQueue (s : State T ρ cfg) :
    ∃ l, s.handleEvent.commsQueue.items = s.commsQueue.items ++ l ∧ l.length ≤ 1 ∧
      (.stopDispatch ∈ l → s.handleEvent.state = .hardError) ∧
      (s.state = .hardError → l = [] ∧ s.handleEvent.state = .hardError) := by
  rcases handleEvent_cases s with ⟨-, hs⟩ | ⟨e, q, -, hs⟩ <;> rw [hs]
  · exact ⟨[], (List.append_nil _).symm, Nat.zero_le _, fun h => (nomatch h), fun h => ⟨rfl, h⟩⟩
  · obtain ⟨l, hl, hq⟩ :=
      foldl_carryOut_commsQueue (App.dispatchEvent s.state e) { s with appQueue := q }
    obtain ⟨hlength, hstop, hterminal⟩ := App.commsPosts_dispatchEvent s.state e
    refine ⟨l, hq, Nat.le_trans hl.length_le hlength, fun hmem => ?_, fun hstate => ?_⟩
    · exact (foldl_carryOut_state _ _).trans (hstop (hl.subset hmem))
    · rw [hterminal hstate] at hl ⊢
      exact ⟨List.sublist_nil.1 hl, hstate⟩

/-- Comms is sent an event at most: a start only from another state than `HARD_ERROR`, and a stop
only where that state is entered. -/
def CommsPost (s s' : State T ρ cfg) : Prop :=
  ∃ l, s'.commsQueue.items = s.commsQueue.items ++ l ∧ l.length ≤ 1 ∧
    (.stopDispatch ∈ l → s'.state = .hardError) ∧
    (s.state = .hardError → .startDispatch ∉ l ∧ s'.state = .hardError)

namespace CommsPost

variable {s s' : State T ρ cfg}

theorem none (hq : s'.commsQueue.items = s.commsQueue.items) (hstate : s'.state = s.state) :
    CommsPost s s' :=
  ⟨[], hq.trans (List.append_nil _).symm, Nat.zero_le _, fun h => (nomatch h),
    fun h => ⟨List.not_mem_nil, hstate.trans h⟩⟩

/-- An event that comes from elsewhere than the application, and that may be lost. -/
theorem sent {e : Comms.Event} (hstop : e ≠ .stopDispatch) (hstart : e ≠ .startDispatch)
    (hq : s'.commsQueue.items = s.commsQueue.items ∨
      s'.commsQueue.items = s.commsQueue.items ++ [e])
    (hstate : s'.state = s.state) : CommsPost s s' := by
  rcases hq with hq | hq
  · exact none hq hstate
  · refine ⟨[e], hq, Nat.le_refl _, fun hmem => ?_, fun h => ⟨fun hmem => ?_, hstate.trans h⟩⟩
    · exact absurd (List.mem_singleton.1 hmem).symm hstop
    · exact absurd (List.mem_singleton.1 hmem).symm hstart

end CommsPost

section
variable [AsReading ρ]

/-- The main thread, the timers and the acquisition thread post events, and write nothing of
this. -/
theorem run_unposted (x : Act) (s : State T ρ cfg) (happ : x ≠ .handleEvent)
    (hworld : ∀ y, x ≠ .world y) : (x.run s).unposted = s.unposted := by
  cases x with
  | handleEvent => exact absurd rfl happ
  | world y => exact absurd rfl (hworld y)
  | postBringUp =>
    show s.postBringUp.unposted = s.unposted
    rcases postBringUp_cases s with hs | ⟨e, -, hs⟩ <;> rw [hs]
    rfl
  | expireRetryTimer =>
    show s.expireRetryTimer.unposted = s.unposted
    rcases expireRetryTimer_cases s with hs | hs <;> rw [hs]
    rfl
  | expireDispatchTimer =>
    show s.expireDispatchTimer.unposted = s.unposted
    rcases expireDispatchTimer_cases s with hs | ⟨-, hs⟩ <;> rw [hs]
    rfl
  | executeCommand result =>
    show (s.executeCommand result).unposted = s.unposted
    rcases executeCommand_cases result s with hs | ⟨q, isScanning, hs⟩ <;> rw [hs]
    rfl

/-- The others leave to the comms thread what is its own. -/
theorem run_own (x : Act) (s : State T ρ cfg) : (x.run s).own = s.own := by
  cases x with
  | handleEvent => exact handleEvent_own s
  | world x => rfl
  | _ => exact congrArg Prod.fst (run_unposted _ s Act.noConfusion fun _ => Act.noConfusion)

/-- What the dispatch cycles work on is left alone by all but the acts upon it. -/
theorem run_world (x : Act) (s : State T ρ cfg) (hworld : ∀ y, x ≠ .world y) :
    (x.run s).world = s.world := by
  by_cases happ : x = .handleEvent
  · rw [happ]
    exact handleEvent_world s
  · exact congrArg (fun kept => kept.2.2) (run_unposted x s happ hworld)

/-- The application alone moves its state machine. -/
theorem run_state (x : Act) (s : State T ρ cfg) (happ : x ≠ .handleEvent) :
    (x.run s).state = s.state := by
  cases x with
  | world y => rfl
  | _ => exact congrArg (fun kept => kept.2.1) (run_unposted _ s happ fun _ => Act.noConfusion)

/-- The others send comms an event at most. -/
theorem run_commsQueue (x : Act) (s : State T ρ cfg) : CommsPost s (x.run s) := by
  cases x with
  | handleEvent =>
    obtain ⟨l, hq, hlength, hstop, hterminal⟩ := handleEvent_commsQueue s
    refine ⟨l, hq, hlength, hstop, fun hstate => ⟨?_, (hterminal hstate).2⟩⟩
    rw [(hterminal hstate).1]
    exact List.not_mem_nil
  | expireDispatchTimer =>
    have hstate := run_state .expireDispatchTimer s nofun
    rcases expireDispatchTimer_cases s with hs | ⟨-, hs⟩
    · exact .none (congrArg (·.commsQueue.items) hs) hstate
    · have hdue := congrArg (fun s : State T ρ cfg => s.commsQueue.items) hs
      refine .sent (e := .dispatchDue) nofun nofun ?_ hstate
      exact (Eda.sendEventFromIsr_items _ s.ledger (s.registered .commsPort)).imp
        hdue.trans hdue.trans
  | world y => exact .none rfl rfl
  | postBringUp =>
    refine .none ?_ (run_state .postBringUp s nofun)
    show s.postBringUp.commsQueue.items = _
    rcases postBringUp_cases s with hs | ⟨e, -, hs⟩ <;> rw [hs]
    rfl
  | expireRetryTimer =>
    refine .none ?_ (run_state .expireRetryTimer s nofun)
    show s.expireRetryTimer.commsQueue.items = _
    rcases expireRetryTimer_cases s with hs | hs <;> rw [hs]
  | executeCommand result =>
    refine .none ?_ (run_state (.executeCommand result) s nofun)
    show (s.executeCommand result).commsQueue.items = _
    rcases executeCommand_cases result s with hs | ⟨q, isScanning, hs⟩ <;> rw [hs]

/-- The comms thread takes the next event of its queue, and what it is to do with it. -/
theorem start_eq_some {s s' : State T ρ cfg} {p : Comms.ServiceProg ρ Unit}
    (h : (system T ρ cfg).start s = some (p, s')) :
    ∃ e q, s.commsQueue.tryGet = some (e, q) ∧ p = Comms.executeEvent cfg e ∧
      s' = { s with commsQueue := q, executing := some e } := by
  dsimp only at h
  split at h
  · cases h
  · next e q hget =>
    cases h
    exact ⟨e, q, hget, rfl, rfl⟩

theorem run_executing (x : Act) (s : State T ρ cfg) : (x.run s).executing = s.executing :=
  congrArg Prod.fst (run_own x s)

theorem run_dispatchEnabled (x : Act) (s : State T ρ cfg) :
    (x.run s).dispatchEnabled = s.dispatchEnabled :=
  congrArg (fun own => own.2.1) (run_own x s)

theorem run_link (x : Act) (s : State T ρ cfg) : (x.run s).link = s.link :=
  congrArg (fun own => own.2.2.2) (run_own x s)

/-! ## The rule -/

/-- The service is handling a dispatch that it has found to be allowed. -/
def State.InCycle (s : State T ρ cfg) : Prop :=
  (s.executing = some .dispatchDue ∨ s.executing = some .dispatchNow) ∧ s.dispatchEnabled = true

/-- What keeps `I` in every run of the system whose steps the guard allows, where `C result` is
known between a connect and the report of its result. -/
structure Discipline (G : (system T ρ cfg).Guard) (I : State T ρ cfg → Prop)
    (C : LinkError → State T ρ cfg → Prop) : Prop where
  other : ∀ x s, G.other x s → I s → I (x.run s)
  /-- What is known of the connect stays known. -/
  known : ∀ result x s, G.other x s → I s → C result s → C result (x.run s)
  start : ∀ s e q, I s → s.executing = none → s.commsQueue.tryGet = some (e, q) →
    I { s with commsQueue := q, executing := some e }
  connect : ∀ ans s, G.call .connect ans s → I s → s.executing = some .joinNetwork →
    I { s with link := (T.connect ans s.link).2 } ∧
      C (T.connect ans s.link).1 { s with link := (T.connect ans s.link).2 }
  outcome : ∀ result s, I s → C result s → s.executing = some .joinNetwork →
    I { s.sendToApp (Comms.joinOutcome result) with executing := none }
  cycle : ∀ o ans s, G.call (.cycle o) ans s → I s → s.InCycle → I (perform (.cycle o) ans s).2
  enable : ∀ s, I s → s.executing = some .startDispatch → I { s with dispatchEnabled := true }
  startTimer : ∀ s, I s → s.executing = some .startDispatch → I { s with dispatchTimer := true }
  disable : ∀ s, I s → s.executing = some .stopDispatch → I { s with dispatchEnabled := false }
  stopTimer : ∀ s, I s → s.executing = some .stopDispatch → I { s with dispatchTimer := false }
  finish : ∀ s, I s → s.executing ≠ some .joinNetwork → I { s with executing := none }

variable (T ρ cfg) in
/-- The composed system runs the comms service. -/
def host : Comms.Host cfg (system T ρ cfg) where
  executing s := s.executing
  enabled s := s.dispatchEnabled
  timer s := s.dispatchTimer
  other_executing := run_executing
  other_enabled := run_dispatchEnabled
  start s p s' hstart := by
    obtain ⟨e, q, -, hp, rfl⟩ := start_eq_some hstart
    exact ⟨e, hp, rfl⟩
  finish _ := rfl
  perform_executing o ans s ho := by
    cases o with
    | sendToApp e => exact absurd rfl (ho e)
    | _ => rfl
  perform_sendToApp _ _ _ := rfl
  perform_cycle _ _ _ := rfl
  perform_dispatchEnabled _ _ := rfl
  perform_setDispatchEnabled _ _ _ := rfl
  perform_startDispatchTimer _ _ := ⟨rfl, rfl⟩
  perform_stopDispatchTimer _ _ := ⟨rfl, rfl⟩

namespace Discipline

variable {G : (system T ρ cfg).Guard} {I : State T ρ cfg → Prop}
  {C : LinkError → State T ρ cfg → Prop}

/-- The duties of the service are those of its rule. -/
theorem duties (D : Discipline G I C) : Comms.Duties (host T ρ cfg) G I C where
  other := D.other
  known := D.known
  start s p s' hI hexecuting hstart := by
    obtain ⟨e, q, hget, -, rfl⟩ := start_eq_some hstart
    exact D.start s e q hI hexecuting hget
  connect := D.connect
  outcome result _ := D.outcome result
  cycle := D.cycle
  enable _ := D.enable
  startTimer _ := D.startTimer
  disable _ := D.disable
  stopTimer _ := D.stopTimer
  finish s hI hexecuting _ := D.finish s hI hexecuting

/-- **The rule.** What the discipline keeps holds in every configuration that runs reach from one
where the service waits. -/
theorem reach (D : Discipline G I C) {c₀ c : (system T ρ cfg).Conf} (hidle : c₀.running = none)
    (h₀ : I c₀.state) (hexecuting : c₀.state.executing = none) (h : Reach G c₀ c) : I c.state :=
  D.duties.reach hidle h₀ hexecuting h

end Discipline

end

end Concentrator.System
