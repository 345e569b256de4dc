import Concentrator.System.Tokens

/-!
# What follows the loss of the link

On a socket link, a connection is lost in one way: `zsock_send()` refuses during a send, and the
link closes the socket. Until the network is joined, the join token is the recovery. Afterwards
there is no token, and nothing in the code makes one: `dispatch()` reports a failed fragment to
nobody, and `LISTENING` waits for events that no module posts. So the link recovers as long as no
send was refused, and never again once one was (`linkLoss_recovers`).
-/

namespace Concentrator.System

open Threaded

variable {ρ : Type} {cfg : Config}

/-- Something will connect the link: a join that comms has to do, its outcome on the way to the
application, or a retry that `SOFT_ERROR` waits for. -/
def State.RecoveryUnderWay {T : Transport} (s : State T ρ cfg) : Prop :=
  (.joinNetwork ∈ s.commsQueue.items ∨ s.executing = some .joinNetwork) ∨
  (.networkJoined ∈ s.appQueue.items ∨ .networkJoinFailed ∈ s.appQueue.items) ∨
  (s.state = .softError ∧ (s.retryTimer.isSome = true ∨ .retryTimeout ∈ s.appQueue.items))

/-- A link that is down is being recovered, unless the device has stopped. -/
def State.Recovers {T : Transport} (s : State T ρ cfg) : Prop :=
  T.isConnected s.link = false → s.state ≠ .hardError → s.RecoveryUnderWay

/-- Some send of the run was refused by the socket library. -/
def State.Refused {T : Transport} (s : State T ρ cfg) : Prop :=
  ∃ uplink, .sent uplink .sendError ∈ s.world.log

/-- Where the token is, there is a recovery. -/
theorem OneToken.recoveryUnderWay {T : Transport} {s : State T ρ cfg} (h : OneToken s)
    (hstate : s.state ≠ .listening) : s.RecoveryUnderWay := by
  by_cases hjoin : .joinNetwork ∈ s.commsQueue.items
  · exact .inl (.inl hjoin)
  by_cases hexecuting : s.executing = some .joinNetwork
  · exact .inl (.inr hexecuting)
  by_cases harmed : s.retryTimer.isSome = true
  · exact .inr (.inr ⟨h.retry (.inl harmed), .inl harmed⟩)
  have htokens := h.tokens
  unfold State.tokens at htokens
  rw [if_neg hstate, if_neg hexecuting, if_neg harmed, List.count_eq_zero.2 hjoin] at htokens
  obtain ⟨e, he, htoken⟩ := List.countP_pos_iff.1 (by omega : 0 < s.appQueue.items.countP isToken)
  cases e with
  | networkJoined => exact .inr (.inl (.inl he))
  | networkJoinFailed => exact .inr (.inl (.inr he))
  | retryTimeout => exact .inr (.inr ⟨h.retry (.inr he), .inr he⟩)
  | _ => cases htoken

/-- In `LISTENING` there is none. -/
theorem OneToken.not_recoveryUnderWay {T : Transport} {s : State T ρ cfg} (h : OneToken s)
    (hstate : s.state = .listening) : ¬ s.RecoveryUnderWay := by
  have htokens := h.tokens
  unfold State.tokens at htokens
  rw [if_pos hstate] at htokens
  have hjoin : .joinNetwork ∉ s.commsQueue.items := List.count_eq_zero.1 (by omega)
  have happ : ∀ e ∈ s.appQueue.items, ¬ isToken e = true := List.countP_eq_zero.1 (by omega)
  rintro ((hmem | hexecuting) | (hmem | hmem) | ⟨hsoft, -⟩)
  · exact hjoin hmem
  · rw [if_pos hexecuting] at htokens
    omega
  · exact happ _ hmem rfl
  · exact happ _ hmem rfl
  · rw [hstate] at hsoft
    cases hsoft

/-- A join that is being done is the only token. -/
theorem OneToken.joining {T : Transport} {s : State T ρ cfg} (h : OneToken s)
    (hexecuting : s.executing = some .joinNetwork) :
    s.state ≠ .listening ∧ .networkJoined ∉ s.appQueue.items := by
  have htokens := h.tokens
  unfold State.tokens at htokens
  rw [if_pos hexecuting] at htokens
  have hstate : s.state ≠ .listening := by
    intro hstate
    rw [if_pos hstate] at htokens
    omega
  rw [if_neg hstate] at htokens
  refine ⟨hstate, fun hmem => ?_⟩
  exact List.countP_eq_zero.1 (by omega : s.appQueue.items.countP isToken = 0) _ hmem rfl

/-- The others send nothing. -/
theorem run_refused [AsReading ρ] {T : Transport} (x : Act) (s : State T ρ cfg) :
    (x.run s).Refused ↔ s.Refused := by
  unfold State.Refused
  cases x with
  | world x => cases x <;> simp [Act.run, Comms.Act.run]
  | _ => rw [run_world _ s fun _ => Act.noConfusion]

/-- None of them brings news of a join. -/
theorem OneToken.mem_run [AsReading ρ] {T : Transport} {s : State T ρ cfg} (h : OneToken s)
    (x : Act) (hmem : .networkJoined ∈ (x.run s).appQueue.items) :
    .networkJoined ∈ s.appQueue.items := by
  cases x with
  | handleEvent => exact mem_handleEvent hmem
  | world x => exact hmem
  | postBringUp =>
    replace hmem : .networkJoined ∈ s.postBringUp.appQueue.items := hmem
    rcases postBringUp_cases s with hs | ⟨e, he, hs⟩ <;> rw [hs] at hmem
    · exact hmem
    · cases h.bringUp e he
      exact (Eda.mem_sendEvent _ _ hmem).resolve_right App.Event.noConfusion
  | expireRetryTimer =>
    replace hmem : .networkJoined ∈ s.expireRetryTimer.appQueue.items := hmem
    rcases expireRetryTimer_cases s with hs | hs <;> rw [hs] at hmem
    · exact hmem
    · exact (Eda.mem_sendEventFromIsr _ _ hmem).resolve_right App.Event.noConfusion
  | expireDispatchTimer =>
    replace hmem : .networkJoined ∈ s.expireDispatchTimer.appQueue.items := hmem
    rcases expireDispatchTimer_cases s with hs | ⟨-, hs⟩ <;> rw [hs] at hmem <;> exact hmem
  | executeCommand result =>
    replace hmem : .networkJoined ∈ (s.executeCommand result).appQueue.items := hmem
    rcases executeCommand_cases result s with hs | ⟨q, isScanning, hs⟩ <;> rw [hs] at hmem <;>
      exact hmem

/-! ## The socket link -/

section
variable {maxFragment : UInt8}

/-- What every step keeps, beside the token: the link is up once it is joined and as long as no send
was refused, and none is before. -/
structure Linked (s : State (socketLink maxFragment) ρ cfg) : Prop where
  one : OneToken s
  joined : .networkJoined ∈ s.appQueue.items → s.link.isConnected = true
  before : s.state ≠ .listening → ¬ s.Refused
  listening : s.state = .listening → (s.link.isConnected = true ↔ ¬ s.Refused)

namespace Linked

variable {s : State (socketLink maxFragment) ρ cfg}

/-- **What the invariant says of a link that is down.** -/
theorem recovers_iff (h : Linked s) : s.Recovers ↔ ¬ s.Refused := by
  by_cases hstate : s.state = .listening
  · rw [← h.listening hstate]
    constructor
    · intro hrecovers
      by_contra hdown
      exact h.one.not_recoveryUnderWay hstate
        (hrecovers (Bool.eq_false_iff.2 hdown) (by rw [hstate]; exact App.StateId.noConfusion))
    · intro hup hdown
      exact absurd (hup.symm.trans hdown) Bool.noConfusion
  · exact ⟨fun _ => h.before hstate, fun _ _ _ => h.one.recoveryUnderWay hstate⟩

/-- A step that leaves the link and the log alone, and brings no news of a join. -/
theorem frame (h : Linked s) {s' : State (socketLink maxFragment) ρ cfg} (hone : OneToken s')
    (hlink : s'.link = s.link) (hlog : s'.Refused ↔ s.Refused) (hstate : s'.state = s.state)
    (hq : .networkJoined ∈ s'.appQueue.items → .networkJoined ∈ s.appQueue.items) : Linked s' where
  one := hone
  joined hmem := by rw [hlink]; exact h.joined (hq hmem)
  before hne := by rw [hlog]; exact h.before (hstate ▸ hne)
  listening he := by rw [hlink, hlog]; exact h.listening (hstate ▸ he)

/-- An event of the application leads to `LISTENING` with the link up and no send made. -/
theorem handleEvent (h : Linked s) : Linked s.handleEvent := by
  have hlink : s.handleEvent.link = s.link := congrArg (fun own => own.2.2.2) (handleEvent_own s)
  have hlog : s.handleEvent.Refused ↔ s.Refused := by
    unfold State.Refused
    rw [handleEvent_world]
  have hstate := h.one.handleEvent_state
  refine ⟨h.one.handleEvent, fun hmem => ?_, fun hne => ?_, fun he => ?_⟩
  · rw [hlink]
    exact h.joined (mem_handleEvent hmem)
  · rw [hlog]
    exact h.before fun hs => hne (hstate.2 (.inl hs))
  · rw [hlink, hlog]
    by_cases hs : s.state = .listening
    · exact h.listening hs
    · have hhead := (hstate.1 he).resolve_left hs
      exact iff_of_true (h.joined (List.mem_of_mem_head? hhead)) (h.before hs)

/-- A connect while comms handles a join. -/
theorem connect (h : Linked s) (ans : SocketAnswer) (hexecuting : s.executing = some .joinNetwork) :
    Linked ({ s with link := (SocketLink.connect ans s.link).2 } :
      State (socketLink maxFragment) ρ cfg) := by
  obtain ⟨hstate, hnone⟩ := h.one.joining hexecuting
  exact
    { one := { h.one with }
      joined := fun hmem => absurd hmem hnone
      before := h.before
      listening := fun he => absurd he hstate }

/-- The report of its outcome. -/
theorem outcome (h : Linked s) {result : LinkError}
    (hknown : result = .noError → s.link.isConnected = true)
    (hexecuting : s.executing = some .joinNetwork) :
    Linked { s.sendToApp (Comms.joinOutcome result) with executing := none } := by
  obtain ⟨hstate, hnone⟩ := h.one.joining hexecuting
  have hone := h.one.outcome result hexecuting
  obtain ⟨q, hs, hq⟩ :=
    sendToApp_room (e := Comms.joinOutcome result) h.one.appPort h.one.app_room
  rw [hs] at hone ⊢
  refine ⟨hone, fun hmem => hknown ?_, h.before, fun he => absurd he hstate⟩
  replace hmem : .networkJoined ∈ q.items := hmem
  rw [hq] at hmem
  have hjoined := List.mem_singleton.1 ((List.mem_append.1 hmem).resolve_left hnone)
  rcases Comms.joinOutcome_cases result with ⟨hresult, -⟩ | ⟨-, ho⟩
  · exact hresult
  · rw [ho] at hjoined
    cases hjoined

section
variable [AsReading ρ]

/-- A call of a dispatch cycle: a send that is refused takes the link down. -/
theorem cycle (h : Linked s) (o : Comms.CommsOp ρ) (ans : SocketAnswer) (hin : s.InCycle) :
    Linked (perform (T := socketLink maxFragment) (.cycle o) ans s).2 := by
  have hstate : s.state = .listening := by
    rcases hin.1 with he | he <;> exact h.one.state_of_executing he Comms.Event.noConfusion
  have hnone : .networkJoined ∉ s.appQueue.items :=
    fun hmem => h.one.not_recoveryUnderWay hstate (.inr (.inl (.inl hmem)))
  cases o with
  | send uplink =>
    let sent := SocketLink.send maxFragment uplink.bytes ans s.link
    have hsent : sent.2.isConnected = true ↔ s.link.isConnected = true ∧ sent.1 ≠ .sendError :=
      SocketLink.send_isConnected ..
    let s' : State (socketLink maxFragment) ρ cfg :=
      { s with link := sent.2, world := { s.world with log := .sent uplink sent.1 :: s.world.log } }
    have hrefused : s'.Refused ↔ sent.1 = .sendError ∨ s.Refused := by
      unfold State.Refused
      simp only [s', List.mem_cons, Comms.LogItem.sent.injEq, exists_or]
      refine or_congr_left ⟨fun ⟨_, _, he⟩ => he.symm, fun he => ⟨uplink, rfl, he.symm⟩⟩
    show Linked s'
    refine ⟨{ h.one with }, fun hmem => absurd hmem hnone, fun hne => absurd hstate hne,
      fun _ => ?_⟩
    rw [hrefused, not_or]
    exact hsent.trans (and_comm.trans (and_congr_right fun _ => h.listening hstate))
  | scan nowS =>
    refine h.frame { h.one with } rfl ?_ rfl id
    unfold State.Refused
    simp [perform, Comms.perform]
  | _ => exact h.frame { h.one with } rfl Iff.rfl rfl id

/-- The other acts send nothing and leave the link alone. -/
theorem other (h : Linked s) (x : Act) : Linked (x.run s) := by
  by_cases happ : x = .handleEvent
  · rw [happ]
    exact h.handleEvent
  · have hone : OneToken (x.run s) := (tokenDiscipline .all).other x s trivial h.one
    exact h.frame hone (run_link x s) (run_refused x s) (run_state x s happ) (h.one.mem_run x)

end

end Linked

variable [AsReading ρ]

/-- The discipline of the link: between a connect and its report, a connect that succeeded has left
the link up. -/
theorem linkDiscipline (G : (system (socketLink maxFragment) ρ cfg).Guard) :
    Discipline G Linked fun result s => result = .noError → s.link.isConnected = true where
  other x _ _ h := h.other x
  known _ x s _ _ hknown hresult := by
    rw [run_link]
    exact hknown hresult
  start s e q h hwaiting hget := h.frame (h.one.start hwaiting hget) rfl Iff.rfl rfl id
  connect ans s _ h hexecuting :=
    ⟨h.connect ans hexecuting, (SocketLink.connect_isConnected ans s.link).2⟩
  outcome _ _ h hknown := h.outcome hknown
  cycle o ans _ _ h := h.cycle o ans
  enable s h he := h.frame ((tokenDiscipline G).enable s h.one he) rfl Iff.rfl rfl id
  startTimer s h he := h.frame ((tokenDiscipline G).startTimer s h.one he) rfl Iff.rfl rfl id
  disable s h he := h.frame ((tokenDiscipline G).disable s h.one he) rfl Iff.rfl rfl id
  stopTimer s h he := h.frame ((tokenDiscipline G).stopTimer s h.one he) rfl Iff.rfl rfl id
  finish s h he := h.frame ((tokenDiscipline G).finish s h.one he) rfl Iff.rfl rfl id

theorem linked_broughtUp :
    Linked (.broughtUp true true : State (socketLink maxFragment) ρ cfg) where
  one := oneToken_broughtUp
  joined hmem := nomatch hmem
  before _ := by
    rintro ⟨uplink, hmem⟩
    cases hmem
  listening he := nomatch he

variable (maxFragment ρ cfg) in
/-- The runs in which `zsock_send()` refuses nothing: whenever comms makes a send, each of its calls
takes bytes. -/
def taken : (system (socketLink maxFragment) ρ cfg).Guard where
  call
    | .cycle (.send _), ans, _ => ∀ i, 0 < ans.zsockSend i
    | _, _, _ => True
  other _ _ := True

theorem taken_allows (l : (system (socketLink maxFragment) ρ cfg).Label)
    (h : ∀ ans, l = .call ans → ∀ i, 0 < ans.zsockSend i) (c) :
    (taken ρ cfg maxFragment).Allows l c := by
  unfold Guard.Allows
  split
  · trivial
  · next ans s o k =>
    dsimp only [taken]
    split
    · exact h ans rfl
    · trivial
  · trivial
  · trivial

/-- In such a run no send is refused. -/
theorem takenDiscipline : Discipline (taken ρ cfg maxFragment) (fun s => ¬ s.Refused)
    fun _ _ => True where
  other x s _ h := by rwa [run_refused]
  known _ _ _ _ _ _ := trivial
  start _ _ _ h _ _ := h
  connect _ _ _ h _ := ⟨h, trivial⟩
  outcome _ _ h _ _ := h
  cycle o ans s hg h _ := by
    rintro ⟨uplink, hmem⟩
    cases o with
    | send sent =>
      rcases List.mem_cons.1 hmem with heq | hmem
      · injection heq with _ hresult
        exact SocketLink.send_ne_sendError maxFragment sent.bytes s.link hg hresult.symm
      · exact h ⟨uplink, hmem⟩
    | scan nowS =>
      rcases List.mem_cons.1 hmem with heq | hmem
      · cases heq
      · exact h ⟨uplink, hmem⟩
    | _ => exact h ⟨uplink, hmem⟩
  enable _ h _ := h
  startTimer _ h _ := h
  disable _ h _ := h
  stopTimer _ h _ := h
  finish _ h _ := h

variable (ρ cfg maxFragment) in
/-- **Recovery from the loss of the link.** After a bring-up in which every service came up: in
every run in which no send is refused, a link that is down is being recovered in every state; and
once a send was refused, it is not, in any state that follows. -/
theorem linkLoss_recovers :
    (∀ c, Reach (taken ρ cfg maxFragment) (booted (socketLink maxFragment) ρ cfg true true) c →
      c.state.Recovers) ∧
    ∀ c, Reach .all (booted (socketLink maxFragment) ρ cfg true true) c → c.state.Refused →
      ¬ c.state.Recovers := by
  constructor
  · intro c hc
    have hlinked : Linked c.state := (linkDiscipline _).reach rfl linked_broughtUp rfl hc
    refine hlinked.recovers_iff.2 ((takenDiscipline).reach rfl ?_ rfl hc)
    rintro ⟨uplink, hmem⟩
    cases hmem
  · intro c hc hrefused hrecovers
    have hlinked : Linked c.state := (linkDiscipline _).reach rfl linked_broughtUp rfl hc
    exact hlinked.recovers_iff.1 hrecovers hrefused

end

/-- A server that refuses the connection. -/
def unreachable : SocketAnswer := ⟨0, 3, -1, fun _ => 1⟩

/-- A run in which the first connect is refused. -/
def joinRefused : List (system (socketLink 242) Reading (.ofDevices 1)).Label :=
  [.start, .call unreachable, .call unreachable, .other .handleEvent]

/-- A connect that the server refuses leaves the retry timer armed. -/
theorem linkLoss_recovers_unreachable :
    ∃ c : (system (socketLink 242) Reading (.ofDevices 1)).Conf,
      Reach (taken Reading (.ofDevices 1) 242)
        (booted (socketLink 242) Reading (.ofDevices 1) true true) c ∧
      c.state.link.isConnected = false ∧ c.state.retryTimer = some 30000 ∧ c.state.Recovers := by
  obtain ⟨c, hrun, hdown, harmed⟩ : ∃ c, run joinRefused
      (booted (socketLink 242) Reading (.ofDevices 1) true true) = some c ∧
      c.state.link.isConnected = false ∧ c.state.retryTimer = some 30000 := ⟨_, rfl, rfl, rfl⟩
  have hreach : Reach (taken Reading (.ofDevices 1) 242)
      (booted (socketLink 242) Reading (.ofDevices 1) true true) c := by
    refine .of_run_allowed (fun l hl => ?_) hrun
    simp only [joinRefused, List.mem_cons, List.not_mem_nil, or_false] at hl
    rcases hl with rfl | rfl | rfl | rfl <;>
      refine taken_allows _ fun ans hans i => ?_ <;> cases hans
    all_goals exact Int.one_pos
  exact ⟨c, hreach, hdown, harmed, (linkLoss_recovers Reading (.ofDevices 1) 242).1 c hreach⟩

/-! ## A run that loses its link -/

/-- A socket library that connects and then refuses every byte. -/
def refusing : SocketAnswer := ⟨0, 3, 0, fun _ => -1⟩

/-- A run up to the first send: the network is joined, a reading is recorded, and the dispatch timer
expires. -/
def firstSend : List (system (socketLink 242) Reading (.ofDevices 1)).Label :=
  [.start, .call refusing, .call refusing, .other .postBringUp, .other .handleEvent,
    .other .handleEvent, .start, .call refusing, .call refusing,
    .other (.world (.upsert (.ofByte 1) (-50) default)), .other .expireDispatchTimer, .start] ++
  List.replicate 13 (.call refusing)

/-- The run ends in `LISTENING` with the link down, and nothing recovers it. -/
theorem linkLoss_fails : ¬ ∀ c : (system (socketLink 242) Reading (.ofDevices 1)).Conf,
    Reach .all (booted (socketLink 242) Reading (.ofDevices 1) true true) c → c.state.Recovers := by
  intro h
  have hrun : ((run firstSend (booted (socketLink 242) Reading (.ofDevices 1) true true)).any
      fun c => !c.state.link.isConnected && decide (c.state.state = .listening)) = true := by
    decide
  obtain ⟨c, hc, htest⟩ := Reach.exists_of_run firstSend _ hrun
  obtain ⟨hdown, hstate⟩ := Bool.and_eq_true_iff.1 htest
  replace hstate := of_decide_eq_true hstate
  have hdown : c.state.link.isConnected = false := by simpa using hdown
  refine (oneToken_reach hc).not_recoveryUnderWay hstate (h c hc hdown ?_)
  rw [hstate]
  exact App.StateId.noConfusion

end Concentrator.System
