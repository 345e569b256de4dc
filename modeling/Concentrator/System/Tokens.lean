import Concentrator.System.Discipline

/-!
# The join token

Until the network is joined, one thing at a time says that it still has to be: a join that comms has
to do, its outcome on the way to the application, the armed retry timer or its expiry on the way.
`OneToken` counts these tokens: there is exactly one in `STARTUP` and `SOFT_ERROR`, and none in
`LISTENING`, on any transport. No other state is ever entered after a bring-up in which every
service came up.
-/

namespace Concentrator.System

variable {T : Transport} {ρ : Type} {cfg : Config}

/-! ## Sends into a queue with room -/

theorem sendToApp_room {s : State T ρ cfg} {e : App.Event} (hreg : s.registered .appPort = true)
    (hroom : s.appQueue.items.length < Eda.QUEUE_LENGTH) :
    ∃ q, s.sendToApp e = { s with appQueue := q } ∧ q.items = s.appQueue.items ++ [e] := by
  obtain ⟨hitems, hledger⟩ := Eda.sendEvent_room e s.ledger hroom
  refine ⟨(Eda.sendEvent true e s.appQueue s.ledger).1, ?_, hitems⟩
  simp only [State.sendToApp, hreg, hledger]

theorem sendToComms_room {s : State T ρ cfg} {e : Comms.Event}
    (hreg : s.registered .commsPort = true)
    (hroom : s.commsQueue.items.length < Eda.QUEUE_LENGTH) :
    ∃ q, s.sendToComms e = { s with commsQueue := q } ∧ q.items = s.commsQueue.items ++ [e] := by
  obtain ⟨hitems, hledger⟩ := Eda.sendEvent_room e s.ledger hroom
  refine ⟨(Eda.sendEvent true e s.commsQueue s.ledger).1, ?_, hitems⟩
  simp only [State.sendToComms, hreg, hledger]

/-- A retry timer that expires leaves its event behind, in a queue with room. -/
theorem expireRetryTimer_room {s : State T ρ cfg} {delayMs : UInt32}
    (harmed : s.retryTimer = some delayMs) (hreg : s.registered .appPort = true)
    (hroom : s.appQueue.items.length < Eda.QUEUE_LENGTH) :
    ∃ q, s.expireRetryTimer = { s with retryTimer := none, appQueue := q } ∧
      q.items = s.appQueue.items ++ [.retryTimeout] := by
  obtain ⟨hitems, hledger⟩ :=
    Eda.sendEventFromIsr_room App.Event.retryTimeout s.ledger hroom
  refine ⟨(Eda.sendEventFromIsr true .retryTimeout s.appQueue s.ledger).1, ?_, hitems⟩
  simp only [State.expireRetryTimer, harmed, hreg, hledger]

/-! ## The invariant -/

/-- An event that says the network is still to be joined, or has just been. -/
def isToken : App.Event → Bool
  | .networkJoined | .networkJoinFailed | .retryTimeout => true
  | _ => false

/-- The outstanding join tokens. -/
def State.tokens (s : State T ρ cfg) : Nat :=
  s.commsQueue.items.count .joinNetwork + (if s.executing = some .joinNetwork then 1 else 0) +
    (s.appQueue.items.countP isToken + if s.retryTimer.isSome then 1 else 0)

/-- What every step keeps, on any transport, after a bring-up in which every service came up. -/
structure OneToken (s : State T ρ cfg) : Prop where
  appPort : s.registered .appPort = true
  commsPort : s.registered .commsPort = true
  state : s.state = .startup ∨ s.state = .listening ∨ s.state = .softError
  tokens : s.tokens = if s.state = .listening then 0 else 1
  appEvents : ∀ e ∈ s.appQueue.items, e = .servicesReady ∨ isToken e = true
  /-- The outcome of bring-up is posted once, and says that every service came up. -/
  ready : s.appQueue.items.count .servicesReady + (if s.bringUp.isSome then 1 else 0) ≤ 1
  bringUp : ∀ e, s.bringUp = some e → e = .servicesReady
  /-- Only `SOFT_ERROR` waits for the retry timer. -/
  retry : s.retryTimer.isSome = true ∨ .retryTimeout ∈ s.appQueue.items → s.state = .softError
  /-- Before the network is joined, comms joins and does nothing else. -/
  quiet : s.state ≠ .listening →
    (∀ e ∈ s.commsQueue.items, e = .joinNetwork) ∧ s.dispatchEnabled = false ∧
      s.dispatchTimer = false ∧ (s.executing = none ∨ s.executing = some .joinNetwork)

namespace OneToken

variable {s : State T ρ cfg}

/-- The events of the application's queue, counted by kind. -/
theorem length_eq (h : OneToken s) : s.appQueue.items.length =
    s.appQueue.items.countP isToken + s.appQueue.items.count .servicesReady := by
  have hevents := h.appEvents
  generalize s.appQueue.items = items at hevents
  induction items with
  | nil => rfl
  | cons e items ih =>
    have ih := ih fun e he => hevents e (List.mem_cons_of_mem _ he)
    rcases hevents e (.head _) with rfl | htoken
    · simp [ih, isToken]
      omega
    · have hne : e ≠ .servicesReady := by
        rintro rfl
        cases htoken
      simp [ih, htoken, hne]
      omega

/-- The application's queue never fills up: it holds one token at most, and the outcome of
bring-up. -/
theorem app_room (h : OneToken s) : s.appQueue.items.length < Eda.QUEUE_LENGTH := by
  have hlen := h.length_eq
  have htokens := h.tokens
  have hready := h.ready
  have hle : (if s.state = .listening then 0 else 1) ≤ 1 := by split <;> omega
  have hcap : Eda.QUEUE_LENGTH = 20 := rfl
  unfold State.tokens at htokens
  omega

/-- Before the network is joined, neither does the queue of comms. -/
theorem comms_room (h : OneToken s) (hstate : s.state ≠ .listening) :
    s.commsQueue.items.length < Eda.QUEUE_LENGTH := by
  have hall := (h.quiet hstate).1
  have hlen : s.commsQueue.items.count .joinNetwork = s.commsQueue.items.length :=
    List.count_eq_length.2 fun e he => (hall e he).symm
  have htokens := h.tokens
  have hcap : Eda.QUEUE_LENGTH = 20 := rfl
  rw [if_neg hstate] at htokens
  unfold State.tokens at htokens
  omega

section
variable {q : Eda.EventQueue App.Event}

/-- The application's queue with an event behind the others. -/
theorem appEvents_put (h : OneToken s) {e : App.Event} (hq : q.items = s.appQueue.items ++ [e])
    (he : e = .servicesReady ∨ isToken e = true) :
    ∀ e' ∈ q.items, e' = .servicesReady ∨ isToken e' = true := by
  intro e' he'
  rw [hq] at he'
  rcases List.mem_append.1 he' with he' | he'
  · exact h.appEvents e' he'
  · rw [List.mem_singleton.1 he']
    exact he

/-- Only the retry timer says that a retry is due. -/
theorem retry_put (h : OneToken s) {e : App.Event} (hq : q.items = s.appQueue.items ++ [e])
    (he : e ≠ .retryTimeout)
    (hr : s.retryTimer.isSome = true ∨ .retryTimeout ∈ q.items) : s.state = .softError := by
  refine h.retry (hr.imp_right fun hmem => ?_)
  rw [hq] at hmem
  exact (List.mem_append.1 hmem).resolve_right fun hmem => he (List.mem_singleton.1 hmem).symm

end

/-! ## Each step keeps it -/

/-- The main thread posts the outcome of bring-up, which is no token. -/
theorem postBringUp (h : OneToken s) : OneToken s.postBringUp := by
  rcases postBringUp_cases s with hposted | ⟨e, he, hposted⟩ <;> rw [hposted]
  · exact h
  · cases h.bringUp e he
    obtain ⟨q, hs, hq⟩ := sendToApp_room (e := .servicesReady) h.appPort h.app_room
    have hready := h.ready
    rw [he] at hready
    rw [hs]
    exact
      { appPort := h.appPort
        commsPort := h.commsPort
        state := h.state
        tokens := by
          have htokens := h.tokens
          unfold State.tokens at htokens ⊢
          simpa [hq, isToken] using htokens
        appEvents := h.appEvents_put hq (.inl rfl)
        ready := by
          simp only [Option.isSome_some, if_true] at hready
          simp [hq]
          omega
        bringUp := by
          intro e' he'
          cases he'
        retry := h.retry_put hq App.Event.noConfusion
        quiet := h.quiet }

/-- The retry timer's token goes into the application's queue. -/
theorem expireRetryTimer (h : OneToken s) : OneToken s.expireRetryTimer := by
  cases harmed : s.retryTimer with
  | none =>
    unfold State.expireRetryTimer
    rw [harmed]
    exact h
  | some delayMs =>
    obtain ⟨q, hs, hq⟩ := expireRetryTimer_room harmed h.appPort h.app_room
    have hstate : s.state = .softError := h.retry (.inl (by simp [harmed]))
    rw [hs]
    exact
      { appPort := h.appPort
        commsPort := h.commsPort
        state := h.state
        tokens := by
          have htokens := h.tokens
          unfold State.tokens at htokens ⊢
          simp [harmed] at htokens
          simp [hq, isToken]
          omega
        appEvents := h.appEvents_put hq (.inr rfl)
        ready := by
          have hready := h.ready
          simpa [hq] using hready
        bringUp := h.bringUp
        retry := fun _ => hstate
        quiet := h.quiet }

/-- The dispatch timer runs in `LISTENING` only, and its event is no token. -/
theorem expireDispatchTimer (h : OneToken s) : OneToken s.expireDispatchTimer := by
  rcases expireDispatchTimer_cases s with hs | ⟨hrunning, hs⟩
  · rw [hs]
    exact h
  · have hstate : s.state = .listening := by
      by_contra hne
      rw [(h.quiet hne).2.2.1] at hrunning
      cases hrunning
    rw [hs]
    refine { h with tokens := ?_, quiet := fun hne => absurd hstate hne }
    have hcount : (Eda.sendEventFromIsr (s.registered .commsPort) Comms.Event.dispatchDue
        s.commsQueue s.ledger).1.items.count .joinNetwork =
        s.commsQueue.items.count .joinNetwork := by
      rcases Eda.sendEventFromIsr_items (q := s.commsQueue) Comms.Event.dispatchDue s.ledger
        (s.registered .commsPort) with hq | hq <;> simp [hq]
    have htokens := h.tokens
    unfold State.tokens at htokens ⊢
    rw [hcount]
    exact htokens

section
variable {q : Eda.EventQueue App.Event}

/-- What is left of the application's queue when its first event is taken. -/
theorem rest_appEvents (h : OneToken s) {e : App.Event} (hpop : s.appQueue.items = e :: q.items) :
    ∀ e ∈ q.items, e = .servicesReady ∨ isToken e = true :=
  fun e' he' => h.appEvents e' (by rw [hpop]; exact .tail _ he')

/-- Taking a token leaves no other behind. -/
theorem rest_tokens (h : OneToken s) {e : App.Event} (hpop : s.appQueue.items = e :: q.items)
    (htoken : isToken e = true) :
    s.state ≠ .listening ∧ s.commsQueue.items.count .joinNetwork = 0 ∧
      s.executing ≠ some .joinNetwork ∧ q.items.countP isToken = 0 ∧ s.retryTimer = none := by
  have htokens := h.tokens
  unfold State.tokens at htokens
  rw [hpop, List.countP_cons, if_pos htoken] at htokens
  have hstate : s.state ≠ .listening := by
    intro hstate
    rw [if_pos hstate] at htokens
    omega
  rw [if_neg hstate] at htokens
  refine ⟨hstate, by omega, ?_, by omega, ?_⟩
  · intro hexecuting
    rw [if_pos hexecuting] at htokens
    omega
  · cases harmed : s.retryTimer with
    | none => rfl
    | some delayMs =>
      rw [harmed, Option.isSome_some, if_pos rfl] at htokens
      omega

theorem rest_ready (h : OneToken s) {e : App.Event} (hpop : s.appQueue.items = e :: q.items) :
    q.items.count .servicesReady + (if s.bringUp.isSome then 1 else 0) ≤ 1 := by
  have hready := h.ready
  have hle : q.items.count .servicesReady ≤ s.appQueue.items.count .servicesReady := by
    rw [hpop]
    exact List.count_le_count_cons
  omega

/-- No `RETRY_TIMEOUT` is left where no token is. -/
theorem not_retryTimeout (hnone : q.items.countP isToken = 0) : .retryTimeout ∉ q.items := by
  intro hmem
  exact absurd rfl (List.countP_eq_zero.1 hnone _ hmem)

/-- The network is joined: the token is used up. -/
theorem joined (h : OneToken s) (hpop : s.appQueue.items = .networkJoined :: q.items)
    {commsQueue : Eda.EventQueue Comms.Event}
    (hcomms : commsQueue.items = s.commsQueue.items ++ [.startDispatch])
    (led : Bool) (delayMs : UInt32) :
    OneToken
      { s with
        appQueue := q
        commsQueue := commsQueue
        state := .listening
        errorLed := led
        retryTimer := none
        retryDelayMs := delayMs } := by
  obtain ⟨-, hjoin, hexec, hnone, -⟩ := h.rest_tokens hpop rfl
  exact
    { appPort := h.appPort
      commsPort := h.commsPort
      state := .inr (.inl rfl)
      tokens := by
        unfold State.tokens
        simp [hexec, hcomms, hjoin, hnone]
      appEvents := h.rest_appEvents hpop
      ready := h.rest_ready hpop
      bringUp := h.bringUp
      retry := by
        rintro (harmed | hmem)
        · cases harmed
        · exact absurd hmem (not_retryTimeout hnone)
      quiet := fun hne => absurd rfl hne }

/-- The join failed: the token is the retry timer. -/
theorem failed (h : OneToken s) (hpop : s.appQueue.items = .networkJoinFailed :: q.items)
    (delayMs nextMs : UInt32) (led : Bool) :
    OneToken
      { s with
        appQueue := q
        state := .softError
        errorLed := led
        retryTimer := some delayMs
        retryDelayMs := nextMs } := by
  obtain ⟨hstate, hjoin, hexec, hnone, -⟩ := h.rest_tokens hpop rfl
  exact
    { appPort := h.appPort
      commsPort := h.commsPort
      state := .inr (.inr rfl)
      tokens := by
        unfold State.tokens
        simp [hexec, hjoin, hnone]
      appEvents := h.rest_appEvents hpop
      ready := h.rest_ready hpop
      bringUp := h.bringUp
      retry := fun _ => rfl
      quiet := fun _ => h.quiet hstate }

/-- The retry is due: the token is the join that comms is asked for. -/
theorem retried (h : OneToken s) (hpop : s.appQueue.items = .retryTimeout :: q.items)
    (hsoft : s.state = .softError) {commsQueue : Eda.EventQueue Comms.Event}
    (hcomms : commsQueue.items = s.commsQueue.items ++ [.joinNetwork]) :
    OneToken { s with appQueue := q, commsQueue := commsQueue } := by
  obtain ⟨hstate, hjoin, hexec, hnone, harmed⟩ := h.rest_tokens hpop rfl
  exact
    { appPort := h.appPort
      commsPort := h.commsPort
      state := h.state
      tokens := by
        unfold State.tokens
        simp [hsoft, hexec, hcomms, hjoin, hnone, harmed]
      appEvents := h.rest_appEvents hpop
      ready := h.rest_ready hpop
      bringUp := h.bringUp
      retry := fun _ => hsoft
      quiet := by
        refine fun _ => ⟨fun e he => ?_, (h.quiet hstate).2⟩
        rw [hcomms] at he
        rcases List.mem_append.1 he with he | he
        · exact (h.quiet hstate).1 e he
        · exact List.mem_singleton.1 he }

/-- The outcome of bring-up is of no interest to any state. -/
theorem servicesReady (h : OneToken s) (hpop : s.appQueue.items = .servicesReady :: q.items) :
    OneToken { s with appQueue := q } :=
  { appPort := h.appPort
    commsPort := h.commsPort
    state := h.state
    tokens := by
      have htokens := h.tokens
      unfold State.tokens at htokens ⊢
      rw [hpop, List.countP_cons_of_neg (by simp [isToken])] at htokens
      exact htokens
    appEvents := h.rest_appEvents hpop
    ready := h.rest_ready hpop
    bringUp := h.bringUp
    retry := fun hr => h.retry (hr.imp_right fun hmem => by rw [hpop]; exact .tail _ hmem)
    quiet := h.quiet }

end

/-- Everything the application does with an event: nothing is said of the ledger, since every post
finds room. -/
theorem handleEvent_cases (h : OneToken s) :
    (s.appQueue.items = [] ∧ s.handleEvent = s) ∨ ∃ q : Eda.EventQueue App.Event,
      (s.appQueue.items = .servicesReady :: q.items ∧ s.handleEvent = { s with appQueue := q }) ∨
      (s.appQueue.items = .networkJoined :: q.items ∧
        ∃ (commsQueue : Eda.EventQueue Comms.Event) (led : Bool) (delayMs : UInt32),
          commsQueue.items = s.commsQueue.items ++ [.startDispatch] ∧
          s.handleEvent =
            { s with
              appQueue := q
              commsQueue := commsQueue
              state := .listening
              errorLed := led
              retryTimer := none
              retryDelayMs := delayMs }) ∨
      (s.appQueue.items = .networkJoinFailed :: q.items ∧
        ∃ (led : Bool) (delayMs nextMs : UInt32), s.handleEvent =
          { s with
            appQueue := q
            state := .softError
            errorLed := led
            retryTimer := some delayMs
            retryDelayMs := nextMs }) ∨
      (s.appQueue.items = .retryTimeout :: q.items ∧ s.state = .softError ∧
        ∃ commsQueue : Eda.EventQueue Comms.Event,
          commsQueue.items = s.commsQueue.items ++ [.joinNetwork] ∧
          s.handleEvent = { s with appQueue := q, commsQueue := commsQueue }) := by
  unfold State.handleEvent
  cases hget : s.appQueue.tryGet with
  | none => exact .inl ⟨Fifo.tryGet_eq_none hget, rfl⟩
  | some p =>
    obtain ⟨e, q⟩ := p
    have hpop := Fifo.tryGet_eq_some hget
    refine .inr ⟨q, ?_⟩
    dsimp only
    rcases h.appEvents e (by rw [hpop]; exact .head _) with rfl | htoken
    · have hnothing : App.dispatchEvent s.state .servicesReady = [] := by cases s.state <;> rfl
      rw [hnothing]
      exact .inl ⟨hpop, rfl⟩
    obtain ⟨hstate, -, -, -, harmed⟩ := h.rest_tokens hpop htoken
    have hroom := h.comms_room hstate
    rcases h.state with hs | hs | hs
    · rw [hs]
      cases e with
      | networkJoined =>
        let s₁ : State T ρ cfg := { s with appQueue := q, state := .listening }
        obtain ⟨commsQueue, hsend, hcomms⟩ :=
          sendToComms_room (s := s₁) (e := .startDispatch) h.commsPort hroom
        refine .inr (.inl ⟨hpop, commsQueue, s.errorLed, s.retryDelayMs, hcomms, ?_⟩)
        rw [← harmed]
        exact hsend
      | networkJoinFailed => exact .inr (.inr (.inl ⟨hpop, _, _, _, rfl⟩))
      | retryTimeout =>
        have hsoft := h.retry (.inr (by rw [hpop]; exact .head _))
        rw [hs] at hsoft
        cases hsoft
      | _ => cases htoken
    · exact absurd hs hstate
    · have hevent : App.dispatchEvent s.state e = App.dispatchEvent .softError e := by rw [hs]
      rw [hevent]
      cases e with
      | networkJoined =>
        let s₁ : State T ρ cfg :=
          { s with
            appQueue := q
            state := .listening
            errorLed := false
            retryTimer := none
            retryDelayMs := App.SOFT_ERROR_RETRY_MS }
        obtain ⟨commsQueue, hsend, hcomms⟩ :=
          sendToComms_room (s := s₁) (e := .startDispatch) h.commsPort hroom
        exact .inr (.inl ⟨hpop, commsQueue, _, _, hcomms, hsend⟩)
      | networkJoinFailed =>
        refine .inr (.inr (.inl ⟨hpop, s.errorLed, s.retryDelayMs,
          App.nextRetryDelayMs s.retryDelayMs, ?_⟩))
        show { s with
          appQueue := q
          retryTimer := some s.retryDelayMs
          retryDelayMs := App.nextRetryDelayMs s.retryDelayMs } = _
        rw [hs]
      | retryTimeout =>
        obtain ⟨commsQueue, hsend, hcomms⟩ := sendToComms_room (s := { s with appQueue := q })
          (e := .joinNetwork) h.commsPort hroom
        exact .inr (.inr (.inr ⟨hpop, hs, commsQueue, hcomms, hsend⟩))
      | _ => cases htoken

/-- The application handles an event: the token changes its form, or is used up by the transition
to `LISTENING`. -/
theorem handleEvent (h : OneToken s) : OneToken s.handleEvent := by
  rcases h.handleEvent_cases with ⟨-, hs⟩ | ⟨q, ⟨hpop, hs⟩ | ⟨hpop, _, led, delayMs, hcomms, hs⟩ |
    ⟨hpop, led, delayMs, nextMs, hs⟩ | ⟨hpop, hsoft, _, hcomms, hs⟩⟩
  · rwa [hs]
  · rw [hs]
    exact h.servicesReady hpop
  · rw [hs]
    exact h.joined hpop hcomms led delayMs
  · rw [hs]
    exact h.failed hpop delayMs nextMs led
  · rw [hs]
    exact h.retried hpop hsoft hcomms

/-- Handling an event leads to `LISTENING` exactly from there, or when the network was joined. -/
theorem handleEvent_state (h : OneToken s) : s.handleEvent.state = .listening ↔
    s.state = .listening ∨ s.appQueue.items.head? = some .networkJoined := by
  rcases h.handleEvent_cases with ⟨hnil, hs⟩ | ⟨q, ⟨hpop, hs⟩ | ⟨hpop, _, _, _, -, hs⟩ |
    ⟨hpop, _, _, _, hs⟩ | ⟨hpop, hsoft, _, -, hs⟩⟩
  · simp [hs, hnil]
  · simp [hs, hpop]
  · simp [hs, hpop]
  · simp [hs, hpop, (h.rest_tokens hpop rfl).1]
  · simp [hs, hpop, hsoft]

/-- Every post of the application finds room. -/
theorem handleEvent_ledger (h : OneToken s) : s.handleEvent.ledger = s.ledger := by
  rcases h.handleEvent_cases with ⟨-, hs⟩ | ⟨q, ⟨-, hs⟩ | ⟨-, _, _, _, -, hs⟩ | ⟨-, _, _, _, hs⟩ |
    ⟨-, -, _, -, hs⟩⟩ <;> rw [hs]

/-- Comms takes an event: a join is a token still while it is being done. -/
theorem start (h : OneToken s) {e : Comms.Event} {q : Eda.EventQueue Comms.Event}
    (hwaiting : s.executing = none) (hget : s.commsQueue.tryGet = some (e, q)) :
    OneToken { s with commsQueue := q, executing := some e } := by
  have hitems := Fifo.tryGet_eq_some hget
  refine { h with tokens := ?_, quiet := fun hne => ?_ }
  · have htokens := h.tokens
    unfold State.tokens at htokens ⊢
    rw [hitems, hwaiting, List.count_cons] at htokens
    rw [← htokens]
    simp only [reduceCtorEq, if_false, Option.some.injEq, beq_iff_eq]
    omega
  · have hquiet := h.quiet hne
    rw [hitems] at hquiet
    exact ⟨fun e' he' => hquiet.1 e' (.tail _ he'), hquiet.2.1, hquiet.2.2.1,
      .inr (congrArg some (hquiet.1 e (.head _)))⟩

/-- Comms reports the outcome of a join: the token goes into the application's queue. -/
theorem outcome (h : OneToken s) (result : LinkError)
    (hexecuting : s.executing = some .joinNetwork) :
    OneToken { s.sendToApp (Comms.joinOutcome result) with executing := none } := by
  obtain ⟨q, hs, hq⟩ := sendToApp_room (e := Comms.joinOutcome result) h.appPort h.app_room
  have htoken : isToken (Comms.joinOutcome result) = true ∧
      Comms.joinOutcome result ≠ .servicesReady ∧ Comms.joinOutcome result ≠ .retryTimeout := by
    rcases Comms.joinOutcome_cases result with ⟨-, ho⟩ | ⟨-, ho⟩ <;> simp [ho, isToken]
  obtain ⟨htoken, hready, hretry⟩ := htoken
  rw [hs]
  refine
    { h with
      tokens := ?_
      appEvents := h.appEvents_put hq (.inr htoken)
      ready := ?_
      retry := h.retry_put hq hretry
      quiet := fun hne => ⟨(h.quiet hne).1, (h.quiet hne).2.1, (h.quiet hne).2.2.1, .inl rfl⟩ }
  · have htokens := h.tokens
    unfold State.tokens at htokens ⊢
    rw [hexecuting, if_pos rfl] at htokens
    rw [← htokens]
    simp [hq, htoken]
    omega
  · simpa [hq, hready] using h.ready

/-- Comms does what it is not asked to do before the network is joined. -/
theorem state_of_executing (h : OneToken s) {e : Comms.Event} (hexecuting : s.executing = some e)
    (he : e ≠ .joinNetwork) : s.state = .listening := by
  by_contra hne
  rcases (h.quiet hne).2.2.2 with hexec | hexec
  · rw [hexecuting] at hexec
    cases hexec
  · rw [hexecuting] at hexec
    exact he (Option.some.inj hexec)

end OneToken

section
variable [AsReading ρ]

/-- The token discipline: the link plays no part in it. -/
theorem tokenDiscipline (G : (system T ρ cfg).Guard) :
    Discipline G OneToken fun _ _ => True where
  other x s _ h := by
    cases x with
    | postBringUp => exact h.postBringUp
    | handleEvent => exact h.handleEvent
    | expireRetryTimer => exact h.expireRetryTimer
    | expireDispatchTimer => exact h.expireDispatchTimer
    | executeCommand result =>
      show OneToken (s.executeCommand result)
      rcases executeCommand_cases result s with hs | ⟨q, isScanning, hs⟩ <;> rw [hs]
      · exact h
      · exact { h with }
    | world x => exact { h with }
  known _ _ _ _ _ _ := trivial
  start _ _ _ h := h.start
  connect _ _ _ h _ := ⟨{ h with }, trivial⟩
  outcome result _ h _ := h.outcome result
  cycle _ _ _ _ h _ := { h with }
  enable _ h he := { h with quiet := fun hne => absurd (h.state_of_executing he (by simp)) hne }
  startTimer _ h he := { h with quiet := fun hne => absurd (h.state_of_executing he (by simp)) hne }
  disable _ h he := { h with quiet := fun hne => absurd (h.state_of_executing he (by simp)) hne }
  stopTimer _ h he := { h with quiet := fun hne => absurd (h.state_of_executing he (by simp)) hne }
  finish s h he :=
    { h with
      tokens := by
        have htokens := h.tokens
        unfold State.tokens at htokens ⊢
        rw [if_neg he] at htokens
        exact htokens
      quiet := fun hne =>
        ⟨(h.quiet hne).1, (h.quiet hne).2.1, (h.quiet hne).2.2.1, .inl rfl⟩ }

/-- After a bring-up in which every service came up, the token is the first join. -/
theorem oneToken_broughtUp : OneToken (.broughtUp true true : State T ρ cfg) where
  appPort := rfl
  commsPort := rfl
  state := .inl rfl
  tokens := rfl
  appEvents _ he := nomatch he
  ready := Nat.le_refl _
  bringUp _ he := (Option.some.inj he).symm
  retry h := by rcases h with h | h <;> cases h
  quiet _ := ⟨fun _ he => List.mem_singleton.1 he, rfl, rfl, .inl rfl⟩

/-- **The join token.** In every run after a bring-up in which every service came up. -/
theorem oneToken_reach {c : (system T ρ cfg).Conf}
    (h : Threaded.Reach .all (booted T ρ cfg true true) c) : OneToken c.state :=
  (tokenDiscipline _).reach rfl oneToken_broughtUp rfl h

end

end Concentrator.System
