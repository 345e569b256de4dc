import Concentrator.Firmware.HardError

/-!
# A device that is not listening

The scan is started once, in `STARTUP`, and what the stack answers is logged and goes no further: no
event tells the application, the latch is not set, and nothing posts the command again. So a device
whose scan did not start goes on to `LISTENING` and is deaf there. `deaf_says_so` says that this is
the only way: where every start is answered with success, or finds the scan running or a fault
latched, a device that has handled `START_SCAN` listens or says so until it enters `HARD_ERROR`.
-/

namespace Concentrator.Firmware

open Threaded

variable {T : Transport} {ρ : Type} {cfg : Config}

/-! ## Listening, or saying so -/

/-- An event by which the application would hear that a service has failed. -/
def ReportsFailure (e : App.Event) : Prop :=
  e = .servicesFailed ∨ e = .softError ∨ e = .hardError

/-- The scan runs, or it shows outside the acquisition service that it does not: a fault is latched,
the application is about to be told, or the scan is about to be started again. -/
def State.ListensOrSays (s : State T ρ cfg) : Prop :=
  s.core.isScanning = true ∨ s.core.ledger.fault ≠ none ∨
    (∃ e ∈ s.core.appQueue.items, ReportsFailure e) ∨
    .startScan ∈ s.core.acquisitionQueue.items

/-- The acquisition thread is about to ask the stack to start the scan. -/
def State.StartsScan (s : State T ρ cfg) : Prop :=
  s.phase = .waiting ∧ s.core.acquisitionQueue.items.head? = some .startScan ∧
    s.core.isScanning = false

/-! ## The invariant -/

/-- What every step keeps when the stack starts the scan. Only `HARD_ERROR` stops it, and no event
leaves that state. -/
structure Listening (s : State T ρ cfg) : Prop where
  stop : .stopScan ∈ s.core.acquisitionQueue.items → s.core.state = .hardError
  started : .startScan ∈ s.commands → s.core.state ≠ .hardError →
    s.core.isScanning = true ∨ s.core.ledger.fault ≠ none

/-- The part of the core that starting and stopping the scan depends on. -/
def scanSide (s : System.State T ρ cfg) :
    Eda.EventQueue Acquisition.Event × App.StateId × Bool :=
  (s.acquisitionQueue, s.state, s.isScanning)

/-- What is done with an event posts a stop to acquisition only where it enters `HARD_ERROR`. -/
theorem settle_of_stopScan {current : App.StateId} {e : App.Event}
    (h : .sendToAcquisition .stopScan ∈ App.dispatchEvent current e) :
    App.settle current (App.dispatchEvent current e) = .hardError := by
  revert h
  cases current <;> cases e <;> decide

/-- What is in acquisition's queue after some actions was there before, or is posted by one of them.
The induction is on the actions. -/
theorem mem_foldl_carryOut {actions : List App.Action} {s : System.State T ρ cfg}
    {e : Acquisition.Event}
    (h : e ∈ (actions.foldl System.State.carryOut s).acquisitionQueue.items) :
    e ∈ s.acquisitionQueue.items ∨ .sendToAcquisition e ∈ actions := by
  induction actions generalizing s with
  | nil => exact .inl h
  | cons a actions ih =>
    rcases ih h with hmem | hmem
    · cases a with
      | sendToAcquisition e' =>
        rcases Eda.mem_sendEvent _ _ hmem with hmem | rfl
        · exact .inl hmem
        · exact .inr (.head _)
      | _ => exact .inl hmem
    · exact .inr (.tail _ hmem)

/-- Once in `HARD_ERROR`, the application stays there. -/
theorem handleEvent_terminal {s : System.State T ρ cfg} (h : s.state = .hardError) :
    s.handleEvent.state = .hardError := by
  obtain ⟨l, -, -, -, hterminal⟩ := System.handleEvent_commsQueue s
  exact (hterminal h).2

/-- The acquisition thread takes `START_SCAN`. -/
theorem executeCommand_startScan {s : System.State T ρ cfg}
    {q : Eda.EventQueue Acquisition.Event}
    (hget : s.acquisitionQueue.tryGet = some (.startScan, q)) (result : Int) :
    s.executeCommand result =
      { s with acquisitionQueue := q, isScanning := s.isScanning || result == 0 } := by
  unfold System.State.executeCommand
  rw [hget]

namespace Listening

variable {s : State T ρ cfg}

/-- A step that executes no command, leaves the scan alone, and posts a stop to acquisition in
`HARD_ERROR` at most. -/
theorem onward (h : Listening s) {s' : State T ρ cfg} (hcommands : s'.commands = s.commands)
    (hstop : .stopScan ∈ s'.core.acquisitionQueue.items →
      .stopScan ∈ s.core.acquisitionQueue.items ∨ s'.core.state = .hardError)
    (hstate : s.core.state = .hardError → s'.core.state = .hardError)
    (hscan : s'.core.isScanning = s.core.isScanning)
    (hfault : s.core.ledger.fault ≠ none → s'.core.ledger.fault ≠ none) : Listening s' where
  stop hmem := (hstop hmem).elim (fun hmem => hstate (h.stop hmem)) id
  started hstarted hcurrent := by
    rw [hcommands] at hstarted
    exact (h.started hstarted fun hbefore => hcurrent (hstate hbefore)).imp hscan.trans hfault

/-- A step that touches nothing of this but the latch. -/
theorem frame (h : Listening s) {s' : State T ρ cfg} (hcommands : s'.commands = s.commands)
    (hcore : scanSide s'.core = scanSide s.core)
    (hfault : s.core.ledger.fault ≠ none → s'.core.ledger.fault ≠ none) : Listening s' := by
  simp only [scanSide, Prod.mk.injEq] at hcore
  obtain ⟨hqueue, hstate, hscan⟩ := hcore
  exact h.onward hcommands (fun hmem => .inl (hqueue ▸ hmem)) hstate.trans hscan hfault

theorem handleEvent (h : Listening s) : Listening { s with core := s.core.handleEvent } := by
  refine h.onward rfl (fun hmem => ?_) handleEvent_terminal ?_ (Onward.handleEvent s.core).fault
  · rcases System.handleEvent_cases s.core with ⟨-, hs⟩ | ⟨e, q, -, hs⟩ <;> rw [hs] at hmem ⊢
    · exact .inl hmem
    · rcases mem_foldl_carryOut hmem with hmem | hposted
      · exact .inl hmem
      · exact .inr ((System.foldl_carryOut_state _ _).trans (settle_of_stopScan hposted))
  · rcases System.handleEvent_cases s.core with ⟨-, hs⟩ | ⟨e, q, -, hs⟩ <;> rw [hs]
    exact System.foldl_carryOut System.State.isScanning (fun s a => by cases a <;> rfl) _ _

/-- The acquisition thread takes an event. A start that is taken now succeeds, or the fault that is
latched stays latched; a stop is taken in `HARD_ERROR`. -/
theorem executeCommand (h : Listening s) {result : Int} {e : Acquisition.Event}
    {q : Eda.EventQueue Acquisition.Event} {phase : Acquisition.Phase} (hphase : s.phase = .waiting)
    (hget : s.core.acquisitionQueue.tryGet = some (e, q))
    (hresult : s.StartsScan → result = 0 ∨ s.core.ledger.fault ≠ none) :
    Listening
      { s with
        core := s.core.executeCommand result
        phase := phase
        commands := e :: s.commands } := by
  have hitems := Fifo.tryGet_eq_some hget
  have hrest {e' : Acquisition.Event} (hmem : e' ∈ q.items) :
      e' ∈ s.core.acquisitionQueue.items := by
    rw [hitems]
    exact .tail _ hmem
  cases e with
  | startScan =>
    rw [executeCommand_startScan hget]
    refine ⟨fun hmem => h.stop (hrest hmem), fun _ _ => ?_⟩
    cases hscanning : s.core.isScanning with
    | true => exact .inl rfl
    | false =>
      have hhead : s.core.acquisitionQueue.items.head? = some .startScan := by
        rw [hitems]
        rfl
      rcases hresult ⟨hphase, hhead, hscanning⟩ with rfl | hfault
      · exact .inl rfl
      · exact .inr hfault
  | stopScan =>
    have hstate : s.core.state = .hardError := h.stop (by rw [hitems]; exact .head _)
    obtain ⟨isScanning, htaken⟩ := System.executeCommand_taken hget result
    rw [htaken]
    exact ⟨fun _ => hstate, fun _ hcurrent => absurd hstate hcurrent⟩
  | advReportAvailable =>
    have htaken : s.core.executeCommand result = { s.core with acquisitionQueue := q } := by
      unfold System.State.executeCommand
      rw [hget]
    rw [htaken]
    refine ⟨fun hmem => h.stop (hrest hmem), fun hstarted => h.started ?_⟩
    exact (List.mem_cons.1 hstarted).resolve_left nofun

end Listening

section
variable [AsReading ρ]

variable (T ρ cfg) in
/-- Runs in which the stack starts the scan when it is asked to, unless a fault is latched by
then. -/
def startGuard : (firmware T ρ cfg).Guard where
  call _ _ _ := True
  other
    | .executeCommand result, s => s.StartsScan → result = 0 ∨ s.core.ledger.fault ≠ none
    | _, _ => True

/-- A run in which the stack answers every scan command with success is one of them. -/
theorem startGuard_reach {ls : List (firmware T ρ cfg).Label} {c c' : (firmware T ρ cfg).Conf}
    (hresult : ∀ result, .other (.executeCommand result) ∈ ls → result = 0)
    (hrun : run ls c = some c') : Reach (startGuard T ρ cfg) c c' := by
  refine .of_run_allowed (fun l hl d => ?_) hrun
  obtain ⟨s, r⟩ := d
  match l, r with
  | .start, none | .start, some _ => trivial
  | .call _, none | .call _, some (.pure _) | .call _, some (.call ..) => trivial
  | .other x, _ =>
    cases x with
    | executeCommand result => exact fun _ => .inl (hresult result hl)
    | _ => trivial

/-- The others keep it. -/
theorem listening_run {x : Act} {s : State T ρ cfg} (hg : (startGuard T ρ cfg).other x s)
    (h : Listening s) : Listening (x.run s) := by
  suffices hact : Listening (x.act s) from ⟨hact.stop, hact.started⟩
  have hdoes := act_does x s
  generalize x.act s = s' at hdoes ⊢
  cases hdoes with
  | handleEvent => exact h.handleEvent
  | executeCommand result hphase hget => exact h.executeCommand hphase hget hg
  | postAdvReport _ =>
    refine h.onward rfl (fun hmem => ?_) id rfl fun hfault => ?_
    · rcases Eda.mem_sendEventFromIsr _ _ hmem with hmem | hposted
      · exact .inl hmem
      · cases hposted
    · rwa [← Eda.sendEventFromIsr_fault Acquisition.Event.advReportAvailable s.core.ledger]
        at hfault
  | expireHeartbeatTimer _ =>
    refine h.frame rfl rfl fun hfault => ?_
    rwa [← Eda.sendEventFromIsr_fault SystemDiagnostics.Event.heartbeatDue s.core.ledger] at hfault
  | postToApp e => exact h.frame rfl rfl (Onward.sendToApp e s.core).fault
  | postDispatch e => exact h.frame rfl rfl (Onward.sendToComms e s.core).fault
  | postBringUp =>
    refine h.frame rfl ?_ (Onward.postBringUp s.core).fault
    rcases System.postBringUp_cases s.core with hs | ⟨e, -, hs⟩ <;> rw [hs]
    rfl
  | expireRetryTimer =>
    refine h.frame rfl ?_ (Onward.expireRetryTimer s.core).fault
    rcases System.expireRetryTimer_cases s.core with hs | hs <;> rw [hs]
    rfl
  | expireDispatchTimer =>
    refine h.frame rfl ?_ (Onward.expireDispatchTimer s.core).fault
    rcases System.expireDispatchTimer_cases s.core with hs | ⟨-, hs⟩ <;> rw [hs]
    rfl
  | nothing | tick | refuse | accept | drain | upsert | executeHeartbeat =>
    exact h.frame rfl rfl id

/-- A call of comms touches none of it; the outcome of a join may find the application's queue full,
which latches a fault. -/
theorem listening_perform {s : State T ρ cfg} (o : Comms.ServiceOp ρ) (ans : T.Answer)
    (h : Listening s) : Listening (perform o ans s).2 := by
  cases o with
  | sendToApp e =>
    obtain ⟨items, hnoted⟩ := noteHandled_eq s
    have hcommands : s.noteHandled.commands = s.commands := by rw [hnoted]
    exact h.frame hcommands rfl (Onward.sendToApp e s.core).fault
  | cycle o => cases o <;> exact h.frame rfl rfl id
  | _ => exact h.frame rfl rfl id

theorem listening_broughtUp (acquisitionReady linkReady : Bool) :
    Listening (.broughtUp acquisitionReady linkReady : State T ρ cfg) where
  stop hmem := by
    have hitems : (System.State.broughtUp acquisitionReady linkReady :
        System.State T ρ cfg).acquisitionQueue.items = [.startScan] := by
      cases acquisitionReady <;> rfl
    have hstart := List.mem_singleton.1 (hitems ▸ hmem)
    cases hstart
  started hstarted := nomatch hstarted

/-- **A device that is not listening says so**, where the stack starts the scan. After any bring-up,
in every run in which each start that the acquisition thread asks for succeeds or finds a fault
latched: once `START_SCAN` was handled, and until `HARD_ERROR`, the scan runs or the failure
shows. Whatever the stack answers to a stop. -/
theorem deaf_says_so (T : Transport) (ρ : Type) [AsReading ρ] (cfg : Config)
    (acquisitionReady linkReady : Bool) {c : (firmware T ρ cfg).Conf}
    (h : Reach (startGuard T ρ cfg) (booted T ρ cfg acquisitionReady linkReady) c)
    (hhandled : .startScan ∈ c.state.commands) (hstate : c.state.core.state ≠ .hardError) :
    c.state.ListensOrSays := by
  have hlistening : Listening c.state := by
    refine Reach.kept (fun _ _ hg hs => listening_run hg hs) (fun o ans _ _ hs => ?_)
      (fun s p s' hs hstart => ?_) (fun s hs => ?_) rfl
      (listening_broughtUp acquisitionReady linkReady) h
    · exact listening_perform o ans hs
    · obtain ⟨e, q, -, -, rfl⟩ := start_eq_some hstart
      exact hs.frame rfl rfl id
    · obtain ⟨items, hnoted⟩ := noteHandled_eq s
      have hcommands : s.noteHandled.commands = s.commands := by rw [hnoted]
      exact hs.frame hcommands rfl id
  rcases hlistening.started hhandled hstate with hscan | hfault
  · exact .inl hscan
  · exact .inr (.inl hfault)

end

/-- The acquisition thread starts the scan, the stack answers `result`, and the network takes the
device. -/
def joinsAfter (result : Int) : List (firmware (socketLink 242) Reading (.ofDevices 1)).Label :=
  let accept : SocketAnswer := ⟨0, 3, 0, fun _ => 100⟩
  [.other (Act.executeCommand result), .other Act.postBringUp, .other Act.handleEvent, .start,
    .call accept, .call accept, .other Act.handleEvent]

/-- The scan is started, and runs in `LISTENING`. -/
theorem deaf_says_so_joined :
    ∃ c : (firmware (socketLink 242) Reading (.ofDevices 1)).Conf,
      .startScan ∈ c.state.commands ∧ c.state.core.state = .listening ∧ c.state.ListensOrSays := by
  let c₀ := booted (socketLink 242) Reading (.ofDevices 1) true true
  let joined (c : (firmware (socketLink 242) Reading (.ofDevices 1)).Conf) : Bool :=
    .startScan ∈ c.state.commands ∧ c.state.core.state = .listening
  obtain ⟨c, hrun, htest⟩ := (Option.any_eq_true joined (run (joinsAfter 0) c₀)).1 (by decide)
  obtain ⟨hhandled, hstate⟩ := of_decide_eq_true htest
  have hreach := startGuard_reach (by simp [joinsAfter]) hrun
  exact ⟨c, hhandled, hstate, deaf_says_so _ _ _ true true hreach hhandled (by rw [hstate]; nofun)⟩

/-- The stack does not start the scan, and in `LISTENING` nothing shows it. -/
theorem deaf_says_nothing :
    ∃ c : (firmware (socketLink 242) Reading (.ofDevices 1)).Conf,
      Reach .all (booted (socketLink 242) Reading (.ofDevices 1) true true) c ∧
      .startScan ∈ c.state.commands ∧ c.state.core.state = .listening ∧
      ¬ c.state.ListensOrSays := by
  obtain ⟨c, hreach, htest⟩ := Reach.exists_of_run (joinsAfter (-5))
    (c := booted (socketLink 242) Reading (.ofDevices 1) true true)
    (fun c => decide (.startScan ∈ c.state.commands ∧ c.state.core.state = .listening ∧
      c.state.core.isScanning = false ∧ c.state.core.ledger.fault = none ∧
      c.state.core.appQueue.items = [] ∧ c.state.core.acquisitionQueue.items = [])) (by decide)
  obtain ⟨hhandled, hstate, hscan, hfault, happ, hqueue⟩ := of_decide_eq_true htest
  refine ⟨c, hreach, hhandled, hstate, ?_⟩
  unfold State.ListensOrSays
  rw [hscan, hfault, happ, hqueue]
  rintro (h | h | ⟨e, h, -⟩ | h)
  · cases h
  · exact h rfl
  · cases h
  · cases h

end Concentrator.Firmware
