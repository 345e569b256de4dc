import Concentrator.System.Tokens

/-!
# The join loop loses nothing

The join token passes through two queues, a blocking call and a one-shot timer, and each hand-over
is a post. `OneToken` bounds both queues, so no post of the loop fails: the ledger of losses stays
clean (`Unlost`), in every run, until the network is joined. From then on only the dispatch timer
can find its queue full.
-/

namespace Concentrator.System

open Threaded

variable {T : Transport} {ρ : Type} {cfg : Config}

/-- What every step keeps of the ledger: no post of a thread fails, and none of a timer before the
network is joined. -/
structure Unlost (s : State T ρ cfg) : Prop where
  one : OneToken s
  fault : s.ledger.fault = none
  dropped : s.state ≠ .listening → s.ledger.dropped = 0

namespace Unlost

variable {s : State T ρ cfg}

/-- A step that leaves the ledger alone, and `LISTENING` where it is. -/
theorem frame (h : Unlost s) {s' : State T ρ cfg} (hone : OneToken s')
    (hledger : s'.ledger = s.ledger) (hstate : s'.state ≠ .listening → s.state ≠ .listening) :
    Unlost s' where
  one := hone
  fault := by rw [hledger, h.fault]
  dropped hne := by rw [hledger, h.dropped (hstate hne)]

/-- The dispatch timer runs in `LISTENING` only, and what it loses is counted. -/
theorem expireDispatchTimer (h : Unlost s) : Unlost s.expireDispatchTimer := by
  have hone := h.one.expireDispatchTimer
  rcases expireDispatchTimer_cases s with hs | ⟨hrunning, hs⟩ <;> rw [hs] at hone ⊢
  · exact h
  · refine ⟨hone, ?_, fun hne => ?_⟩
    · show (Eda.sendEventFromIsr _ _ _ _).2.fault = none
      rw [Eda.sendEventFromIsr_fault, h.fault]
    · rw [(h.one.quiet hne).2.2.1] at hrunning
      cases hrunning

/-- The outcome of a join is never lost. -/
theorem outcome (h : Unlost s) (result : LinkError) (hexecuting : s.executing = some .joinNetwork) :
    Unlost { s.sendToApp (Comms.joinOutcome result) with executing := none } := by
  have hone := h.one.outcome result hexecuting
  obtain ⟨q, hs, -⟩ :=
    sendToApp_room (e := Comms.joinOutcome result) h.one.appPort h.one.app_room
  rw [hs] at hone ⊢
  exact h.frame hone rfl id

end Unlost

section
variable [AsReading ρ]

/-- Each act of the others finds room for its post, but for the dispatch timer. -/
theorem OneToken.run_ledger {s : State T ρ cfg} (h : OneToken s) (x : Act)
    (hx : x ≠ .expireDispatchTimer) : (x.run s).ledger = s.ledger := by
  cases x with
  | postBringUp =>
    show s.postBringUp.ledger = s.ledger
    rcases postBringUp_cases s with hposted | ⟨e, -, hposted⟩ <;> rw [hposted]
    obtain ⟨q, hs, -⟩ := sendToApp_room (e := e) h.appPort h.app_room
    show (s.sendToApp e).ledger = s.ledger
    rw [hs]
  | handleEvent => exact h.handleEvent_ledger
  | expireRetryTimer =>
    show s.expireRetryTimer.ledger = s.ledger
    cases harmed : s.retryTimer with
    | none =>
      unfold State.expireRetryTimer
      rw [harmed]
    | some delayMs =>
      obtain ⟨q, hs, -⟩ := expireRetryTimer_room harmed h.appPort h.app_room
      rw [hs]
  | expireDispatchTimer => exact absurd rfl hx
  | executeCommand result =>
    show (s.executeCommand result).ledger = s.ledger
    rcases executeCommand_cases result s with hs | ⟨q, isScanning, hs⟩ <;> rw [hs]
  | world x => rfl

/-- The acts of the others keep the ledger clean. No event leads out of `LISTENING`. -/
theorem Unlost.run {s : State T ρ cfg} (h : Unlost s) (x : Act) : Unlost (x.run s) := by
  by_cases hx : x = .expireDispatchTimer
  · rw [hx]
    exact h.expireDispatchTimer
  · refine h.frame ((tokenDiscipline .all).other x s trivial h.one) (h.one.run_ledger x hx) ?_
    intro hne hstate
    by_cases happ : x = .handleEvent
    · rw [happ] at hne
      exact hne (h.one.handleEvent_state.2 (.inl hstate))
    · exact hne ((run_state x s happ).trans hstate)

/-- The discipline of the ledger. -/
theorem unlostDiscipline (G : (system T ρ cfg).Guard) :
    Discipline G Unlost fun _ _ => True where
  other x _ _ h := h.run x
  known _ _ _ _ _ _ := trivial
  start s e q h hw hget := h.frame ((tokenDiscipline G).start s e q h.one hw hget) rfl id
  connect ans s hg h he :=
    ⟨h.frame ((tokenDiscipline G).connect ans s hg h.one he).1 rfl id, trivial⟩
  outcome result _ h _ := h.outcome result
  cycle o ans s hg h hin := h.frame ((tokenDiscipline G).cycle o ans s hg h.one hin) rfl id
  enable s h he := h.frame ((tokenDiscipline G).enable s h.one he) rfl id
  startTimer s h he := h.frame ((tokenDiscipline G).startTimer s h.one he) rfl id
  disable s h he := h.frame ((tokenDiscipline G).disable s h.one he) rfl id
  stopTimer s h he := h.frame ((tokenDiscipline G).stopTimer s h.one he) rfl id
  finish s h he := h.frame ((tokenDiscipline G).finish s h.one he) rfl id

/-- A handler that goes on, or ends, leaves the application's state machine alone. -/
theorem resume_state (p : Comms.ServiceProg ρ Unit) (s : State T ρ cfg) :
    (resume (M := system T ρ cfg) p s).state.state = s.state := by
  cases p <;> rfl

/-- The step into `LISTENING` is the application's, and finds room for its post. -/
theorem step_listening {l : (system T ρ cfg).Label} {c c' : (system T ρ cfg).Conf}
    (h : Unlost c.state) (hs : step l c = some c') (hne : c.state.state ≠ .listening)
    (hstate : c'.state.state = .listening) : c'.state.ledger = c.state.ledger := by
  rcases step_cases hs with ⟨p, s', rfl, -, hp, rfl⟩ | ⟨ans, o, k, rfl, -, rfl⟩ | ⟨x, rfl, rfl⟩
  · rw [resume_state] at hstate
    dsimp only at hp
    split at hp
    · cases hp
    · cases hp
      exact absurd hstate hne
  · rw [resume_state] at hstate
    have hkept : (perform o ans c.state).2.state = c.state.state := by cases o <;> rfl
    exact absurd (hkept.symm.trans hstate) hne
  · by_cases happ : x = .handleEvent
    · rw [happ]
      exact h.one.handleEvent_ledger
    · exact absurd ((run_state x c.state happ).symm.trans hstate) hne

theorem unlost_broughtUp : Unlost (.broughtUp true true : State T ρ cfg) :=
  ⟨oneToken_broughtUp, rfl, fun _ => rfl⟩

theorem unlost_reach {c : (system T ρ cfg).Conf}
    (h : Threaded.Reach .all (booted T ρ cfg true true) c) : Unlost c.state :=
  (unlostDiscipline _).reach rfl unlost_broughtUp rfl h

/-- **The join loop neither dies nor doubles.** In every run after a bring-up in which every service
came up, whatever the connects answer: there is exactly one join token in `STARTUP` and
`SOFT_ERROR`, and none in `LISTENING`; the application's queue is never full, nor is that of comms
before the network is joined; no thread loses a post, and no timer does up to the step that enters
`LISTENING`. -/
theorem joinLoop_lives {c : (system T ρ cfg).Conf}
    (h : Reach .all (booted T ρ cfg true true) c) :
    (c.state.state = .startup ∨ c.state.state = .softError ∨ c.state.state = .listening) ∧
    (c.state.state = .startup ∨ c.state.state = .softError → c.state.tokens = 1) ∧
    (c.state.state = .listening → c.state.tokens = 0) ∧
    c.state.appQueue.items.length < Eda.QUEUE_LENGTH ∧
    (c.state.state ≠ .listening → c.state.commsQueue.items.length < Eda.QUEUE_LENGTH) ∧
    c.state.ledger.fault = none ∧
    ∀ l c', step l c = some c' → c.state.state ≠ .listening → c'.state.ledger = ⟨0, none⟩ := by
  have hlost := unlost_reach h
  have hone := hlost.one
  refine ⟨hone.state.imp_right Or.symm, fun hstate => ?_, fun hstate => ?_, hone.app_room,
    hone.comms_room, hlost.fault, fun l c' hs hne => ?_⟩
  · rw [hone.tokens, if_neg]
    intro hlistening
    rw [hlistening] at hstate
    rcases hstate with hstate | hstate <;> cases hstate
  · rw [hone.tokens, if_pos hstate]
  · have hclean : c.state.ledger = ⟨0, none⟩ := by
      rw [← hlost.dropped hne, ← hlost.fault]
    by_cases hstate : c'.state.state = .listening
    · rw [step_listening hlost hs hne hstate, hclean]
    · have hlost' := unlost_reach (h.step (Guard.all_allows l c) hs)
      rw [← hlost'.dropped hstate, ← hlost'.fault]

end

/-- The first failed join of a device leaves one token, the armed retry timer, and loses nothing. -/
theorem joinLoop_lives_failed :
    ∃ c : (system (socketLink 242) Reading (.ofDevices 1)).Conf,
      c.state.state = .softError ∧ c.state.retryTimer = some 30000 ∧ c.state.tokens = 1 ∧
      c.state.appQueue.items.length < Eda.QUEUE_LENGTH ∧ c.state.ledger.fault = none := by
  let refuse : SocketAnswer := ⟨0, 3, -1, fun _ => 0⟩
  let c₀ := booted (socketLink 242) Reading (.ofDevices 1) true true
  obtain ⟨c, hrun, hstate, hretry⟩ : ∃ c, run [.start, .call refuse, .call refuse,
      .other Act.handleEvent] c₀ = some c ∧ c.state.state = .softError ∧
      c.state.retryTimer = some 30000 := ⟨_, rfl, rfl, rfl⟩
  obtain ⟨-, htokens, -, hroom, -, hfault, -⟩ := joinLoop_lives (.of_run hrun)
  exact ⟨c, hstate, hretry, htokens (.inr hstate), hroom, hfault⟩

end Concentrator.System
