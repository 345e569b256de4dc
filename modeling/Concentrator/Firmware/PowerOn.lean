import Concentrator.Firmware.BringUp

/-!
# From power-on

Until the join is asked for, the threads that `main()` creates have little to do (`Stirs`): the idle
thread feeds the watchdog, time passes, the heartbeat timer runs once every port is there, and the
acquisition thread works once the scan is asked for. All of it moves behind the calls that are still
to come, so the rule of reduction applies.
-/

namespace Concentrator.Boot

open Concentrator.System (PortList)
open Threaded

/-! ## What `main()` has brought up is in order -/

/-- What holds of the variables that `main()` alone writes. -/
structure Orderly (m : Progress) : Prop where
  alone : m.idleThread = true ∨ m.threads ≠ [] → ∀ x, x ∈ m.constructed
  watched : m.driver ≠ [] → m.idleThread = true
  armed : 0 ≤ m.channelId → ∃ max, m.driver = [.setUp 0, .installed max m.channelId]
  timeout : ∀ max id, .installed max id ∈ m.driver → max = WATCHDOG_TIMEOUT_MS
  threads : m.threads.Nodup
  room : m.threads.length ≤ MAX_THREADS
  ports : ∀ p ∈ m.ports, p ∈ m.threads
  table : ∀ p ∈ m.threads, p ≠ .appPort → m.tableReady = true
  heartbeat : m.heartbeatTimer = true → ∀ p, p ∈ m.ports
  callback : m.advReportCallback = true → m.bleInitialized = true
  scan : m.scanAsked = true → .acquisitionPort ∈ m.ports ∧
    (m.bleInitialized = true → m.advReportCallback = true ∧ .commsPort ∈ m.ports)

theorem orderly_powerOn : Orderly .powerOn where
  alone h := by
    rcases h with hidle | hthreads
    · cases hidle
    · exact absurd rfl hthreads
  watched h := absurd rfl h
  armed h := absurd h (by decide)
  timeout _ _ h := absurd h List.not_mem_nil
  threads := .nil
  room := Nat.zero_le _
  ports _ h := absurd h List.not_mem_nil
  table _ h := absurd h List.not_mem_nil
  heartbeat := nofun
  callback := nofun
  scan := nofun

/-- A call that may come next keeps the order. -/
theorem Orderly.after {m : Progress} {o : BootOp} (h : Orderly m) (ho : Permitted m o) (r : o.Res) :
    Orderly (m.after o r) := by
  obtain ⟨hplace, hjoin, hscan, htimer⟩ := ho
  cases o with
  | getInstance x =>
    by_cases hx : x ∈ m.constructed
    · have hsame : m.after (.getInstance x) r = m := if_pos hx
      rwa [hsame]
    · have hnew : m.after (.getInstance x) r = { m with constructed := x :: m.constructed } :=
        if_neg hx
      rw [hnew]
      exact { h with alone := fun halone y => .tail _ (h.alone halone y) }
  | registerIdleCallback =>
    exact { h with alone := fun _ => hplace.1, watched := fun _ => rfl }
  | wdtInstallTimeout max =>
    obtain ⟨hidle, hchannel, hdriver, rfl⟩ := hplace
    refine { h with watched := fun _ => hidle, armed := ?_, timeout := ?_ }
    · exact fun hid => absurd hid (Int.not_le.2 hchannel)
    · intro max id hmem
      rcases List.mem_cons.1 hmem with hnew | hold
      · exact (WdtCall.installed.inj hnew).1
      · exact h.timeout max id hold
  | wdtSetup =>
    obtain ⟨hchannel, max, id, hid, hdriver⟩ := hplace
    refine { h with watched := fun _ => h.watched ?_, armed := ?_, timeout := ?_ }
    · rw [hdriver]
      exact List.cons_ne_nil _ _
    · exact fun hid => absurd hid (Int.not_le.2 hchannel)
    · intro max id hmem
      rcases List.mem_cons.1 hmem with hnew | hold
      · cases hnew
      · exact h.timeout max id hold
  | setChannelId id =>
    obtain ⟨hchannel, max, hdriver⟩ := hplace
    exact { h with armed := fun _ => ⟨max, hdriver⟩ }
  | createThread p =>
    obtain ⟨hall, hthread, hroom, htable⟩ := hplace
    have hnew : m.after (.createThread p) r = { m with threads := p :: m.threads } :=
      if_neg (Nat.not_le.2 hroom)
    rw [hnew]
    refine { h with alone := fun _ => hall, threads := ?_, room := hroom, ports := ?_, table := ?_ }
    · exact List.nodup_cons.2 ⟨hthread, h.threads⟩
    · exact fun q hq => .tail _ (h.ports q hq)
    · intro q hq happ
      rcases List.mem_cons.1 hq with rfl | hold
      · exact htable happ
      · exact h.table q hold happ
  | initPort p =>
    refine { h with ports := ?_, heartbeat := ?_, scan := ?_ }
    · intro q hq
      rcases List.mem_cons.1 hq with rfl | hold
      · exact hplace.1
      · exact h.ports q hold
    · exact fun hbeat q => .tail _ (h.heartbeat hbeat q)
    · intro hscan'
      obtain ⟨hport, hble⟩ := h.scan hscan'
      exact ⟨.tail _ hport, fun hinit => ⟨(hble hinit).1, .tail _ (hble hinit).2⟩⟩
  | initializeTable => exact { h with table := fun _ _ _ => rfl }
  | setBleInitialized =>
    refine { h with callback := fun _ => rfl, scan := ?_ }
    exact fun hscan' => absurd (hscan hscan') (by simp)
  | registerAdvReportCallback =>
    refine { h with callback := fun _ => hplace.2, scan := ?_ }
    exact fun hscan' => absurd (hscan hscan') (by simp)
  | startHeartbeatTimer => exact { h with heartbeat := fun _ => hplace }
  | startScan => exact { h with scan := fun _ => hplace.2 }
  | channelId | deviceIsReady | initializePool | bleIsInitialized | btEnable | disableDispatch =>
    exact h
  | setTimeoutMs _ | initializeLink | joinNetwork _ => exact { h with }

/-! ## What the firmware's threads have to do before the join is asked for -/

section
variable {T : Transport} {ρ : Type} [AsReading ρ] {cfg : Config}

/-- The threads wait: nobody has sent the application or comms anything, acquisition waits for the
scan to be asked for and diagnostics for its timer. -/
structure Waiting (s : Firmware.State T ρ cfg) (m : Progress) : Prop where
  registered : ∀ p, s.core.registered p = decide (p ∈ m.ports)
  appQueue : s.core.appQueue = .empty
  commsQueue : s.core.commsQueue = .empty
  retryTimer : s.core.retryTimer = none
  dispatchTimer : s.core.dispatchTimer = false
  deaf : m.scanAsked = false → s.core.acquisitionQueue = .empty ∧ s.core.isScanning = false ∧
    s.posting = false ∧ s.phase = .waiting
  still : m.heartbeatTimer = false → s.heartbeatTimer = false ∧ s.diagnosticsQueue = .empty
  posting : s.posting = true → m.advReportCallback = true

theorem waiting_powerOn : Waiting (statics T ρ cfg) .powerOn where
  registered _ := rfl
  appQueue := rfl
  commsQueue := rfl
  retryTimer := rfl
  dispatchTimer := rfl
  deaf _ := ⟨rfl, rfl, rfl, rfl⟩
  still _ := ⟨rfl, rfl⟩
  posting := nofun

/-- A call of `main()` alone keeps the threads waiting. -/
theorem Waiting.run {s : Firmware.State T ρ cfg} {m : Progress} {o : BootOp} (h : Waiting s m)
    (r : o.Res) (hjoin : (m.after o r).joinAsked = false) : Waiting (o.run s) (m.after o r) := by
  cases o with
  | getInstance x =>
    simp only [BootOp.run, Progress.after]
    split
    · exact h
    · exact { h with }
  | createThread p =>
    simp only [BootOp.run, Progress.after]
    split
    · exact h
    · exact { h with }
  | initPort p =>
    refine { h with registered := fun q => ?_ }
    simp only [BootOp.run, Progress.after, h.registered, ← Bool.decide_or]
    exact decide_eq_decide.2 List.mem_cons.symm
  | registerAdvReportCallback => exact { h with posting := fun _ => rfl }
  | startHeartbeatTimer => exact { h with still := nofun }
  | startScan => exact { h with deaf := nofun }
  | joinNetwork outcome => cases hjoin
  | _ => exact { h with }

/-- The acts that do something before the join is asked for. -/
inductive Stirs (m : Progress) : Act → Prop where
  | feed (h : 0 ≤ m.channelId) : Stirs m .invokeIdleHook
  | tick (seconds : UInt32) : Stirs m (.firmware (.tick seconds))
  | expireHeartbeatTimer (h : m.heartbeatTimer = true) : Stirs m (.firmware .expireHeartbeatTimer)
  | executeHeartbeat (h : m.heartbeatTimer = true) : Stirs m (.firmware .executeHeartbeat)
  | onAdvReport (r : AdvReport) (h : m.scanAsked = true) (hcallback : m.advReportCallback = true) :
    Stirs m (.firmware (.onAdvReport r))
  | postAdvReport (h : m.scanAsked = true) (hcallback : m.advReportCallback = true) :
    Stirs m (.firmware .postAdvReport)
  | executeCommand (result : Int) (h : m.scanAsked = true) :
    Stirs m (.firmware (.executeCommand result))
  | drainReportPool (h : m.scanAsked = true) : Stirs m (.firmware .drainReportPool)

/-- An act that does nothing drops nothing. -/
theorem run_same {x : Firmware.Act} {s : Firmware.State T ρ cfg} (h : x.act s = s) :
    x.run s = s := by
  unfold Firmware.Act.run
  rw [h]
  exact Firmware.noteDropped_self s

omit [AsReading ρ] in
/-- The idle thread feeds the channel that is set up: the watchdog is there already. -/
theorem invokeIdleHook_feeds {s : State T ρ cfg} (h : Orderly s.progress)
    (hid : 0 ≤ s.progress.channelId) :
    s.invokeIdleHook = { s with fed := s.progress.channelId :: s.fed } := by
  obtain ⟨max, hdriver⟩ := h.armed hid
  have hidle : s.progress.idleThread = true := by
    refine h.watched ?_
    rw [hdriver]
    exact List.cons_ne_nil _ _
  have hthere : s.progress.after (.getInstance .watchdog) () = s.progress :=
    if_pos (h.alone (.inl hidle) .watchdog)
  unfold State.invokeIdleHook
  simp only [hthere]
  rw [if_pos hidle, if_neg (Int.not_lt.2 hid)]

omit [AsReading ρ] in
/-- The idle thread has no channel to feed. -/
theorem invokeIdleHook_idle {s : State T ρ cfg} (h : Orderly s.progress)
    (hid : s.progress.channelId < 0) : s.invokeIdleHook = s := by
  unfold State.invokeIdleHook
  split
  · next hidle =>
    have hthere : s.progress.after (.getInstance .watchdog) () = s.progress :=
      if_pos (h.alone (.inl hidle) .watchdog)
    simp only [hthere]
    exact if_pos hid
  · rfl

/-- **Before the join is asked for, an act of the others stirs or does nothing.** -/
theorem Waiting.still_or_stirs {s : State T ρ cfg} (horder : Orderly s.progress)
    (h : Waiting s.firmware s.progress) {x : Act} (hx : x.Own) :
    x.run s = s ∨ Stirs s.progress x := by
  have hsame {y : Firmware.Act} (hy : y.act s.firmware = s.firmware) :
      ({ s with firmware := y.run s.firmware } : State T ρ cfg) = s := by rw [run_same hy]
  cases x with
  | invokeIdleHook =>
    rcases Int.lt_or_le s.progress.channelId 0 with hid | hid
    · exact .inl (invokeIdleHook_idle horder hid)
    · exact .inr (.feed hid)
  | firmware y =>
    cases y with
    | postBringUp => exact hx.elim
    | postToApp e => exact hx.elim
    | postDispatch e => exact hx.elim
    | tick seconds => exact .inr (.tick seconds)
    | handleEvent =>
      refine .inl (hsame ?_)
      simp only [Firmware.Act.act, System.State.handleEvent, h.appQueue]
      rfl
    | expireRetryTimer =>
      refine .inl (hsame ?_)
      simp only [Firmware.Act.act, System.State.expireRetryTimer, h.retryTimer]
    | expireDispatchTimer =>
      refine .inl (hsame ?_)
      simp only [Firmware.Act.act, System.State.expireDispatchTimer, h.dispatchTimer]
      rfl
    | expireHeartbeatTimer =>
      cases htimer : s.progress.heartbeatTimer with
      | true => exact .inr (.expireHeartbeatTimer htimer)
      | false =>
        refine .inl (hsame (if_neg ?_))
        rw [(h.still htimer).1]
        exact Bool.false_ne_true
    | executeHeartbeat =>
      cases htimer : s.progress.heartbeatTimer with
      | true => exact .inr (.executeHeartbeat htimer)
      | false =>
        refine .inl (hsame ?_)
        simp only [Firmware.Act.act, Firmware.State.executeHeartbeat, (h.still htimer).2]
        rfl
    | onAdvReport r =>
      have hstep : (Act.firmware (.onAdvReport r)).run s =
          if s.progress.advReportCallback && s.firmware.core.isScanning then
            { s with firmware := (Firmware.Act.onAdvReport r).run s.firmware }
          else s := rfl
      rw [hstep]
      split
      · next hgate =>
        obtain ⟨hcallback, hscanning⟩ := Bool.and_eq_true_iff.1 hgate
        refine .inr (.onAdvReport r ?_ hcallback)
        by_contra hscan
        rw [(h.deaf (Bool.eq_false_iff.2 hscan)).2.1] at hscanning
        cases hscanning
      · exact .inl rfl
    | postAdvReport =>
      cases hposting : s.firmware.posting with
      | true =>
        refine .inr (.postAdvReport ?_ (h.posting hposting))
        by_contra hscan
        rw [(h.deaf (Bool.eq_false_iff.2 hscan)).2.2.1] at hposting
        cases hposting
      | false =>
        refine .inl (hsame (if_neg ?_))
        rw [hposting]
        exact Bool.false_ne_true
    | executeCommand result =>
      cases hscan : s.progress.scanAsked with
      | true => exact .inr (.executeCommand result hscan)
      | false =>
        obtain ⟨hqueue, -, -, hphase⟩ := h.deaf hscan
        refine .inl (hsame ?_)
        simp only [Firmware.Act.act, Firmware.State.executeCommand, hphase, hqueue]
        rfl
    | drainReportPool =>
      cases hscan : s.progress.scanAsked with
      | true => exact .inr (.drainReportPool hscan)
      | false =>
        obtain ⟨-, -, -, hphase⟩ := h.deaf hscan
        refine .inl (hsame ?_)
        simp only [Firmware.Act.act, Firmware.State.drainReportPool, hphase]

/-- An act that stirs latches no fault. -/
theorem Stirs.fault {m : Progress} {x : Firmware.Act} (hx : Stirs m (.firmware x))
    (s : Firmware.State T ρ cfg) : (x.run s).core.ledger.fault = s.core.ledger.fault := by
  have hdoes := Firmware.act_does x s
  unfold Firmware.Act.run
  generalize x.act s = s' at hdoes ⊢
  cases hdoes with
  | postBringUp | handleEvent | expireRetryTimer | expireDispatchTimer | postToApp
  | postDispatch => cases hx
  | postAdvReport _ | expireHeartbeatTimer _ => exact Eda.sendEventFromIsr_fault _ _ _
  | executeCommand result _ hget =>
    obtain ⟨isScanning, htaken⟩ := System.executeCommand_taken hget result
    rw [htaken]
    rfl
  | nothing | tick | refuse | accept | drain | upsert | executeHeartbeat => rfl

/-- An act that stirs keeps the threads waiting: it is comms and the application that it leaves
alone. -/
theorem Waiting.stir {s : Firmware.State T ρ cfg} {m : Progress} {x : Firmware.Act}
    (h : Waiting s m) (hx : Stirs m (.firmware x)) : Waiting (x.run s) m := by
  suffices hact : Waiting (x.act s) m from { hact with }
  have hdoes := Firmware.act_does x s
  generalize x.act s = s' at hdoes ⊢
  cases hdoes with
  | postBringUp | handleEvent | expireRetryTimer | expireDispatchTimer | postToApp
  | postDispatch => cases hx
  | nothing => exact h
  | tick | refuse => exact { h with }
  | expireHeartbeatTimer _ =>
    cases hx with
    | expireHeartbeatTimer htimer =>
      exact { h with still := fun hno => absurd htimer (Bool.eq_false_iff.1 hno) }
  | executeHeartbeat _ =>
    cases hx with
    | executeHeartbeat htimer =>
      exact { h with still := fun hno => absurd htimer (Bool.eq_false_iff.1 hno) }
  | accept _ _ =>
    cases hx with
    | onAdvReport _ hscan hcallback =>
      refine { h with deaf := ?_, posting := fun _ => hcallback }
      exact fun hno => absurd hscan (Bool.eq_false_iff.1 hno)
  | postAdvReport _ =>
    cases hx with
    | postAdvReport hscan hcallback =>
      refine { h with deaf := ?_, posting := fun _ => hcallback }
      exact fun hno => absurd hscan (Bool.eq_false_iff.1 hno)
  | executeCommand result _ hget =>
    cases hx with
    | executeCommand _ hscan =>
      obtain ⟨isScanning, htaken⟩ := System.executeCommand_taken hget result
      rw [htaken]
      exact { h with deaf := fun hno => absurd hscan (Bool.eq_false_iff.1 hno) }
  | drain _ | upsert _ _ _ =>
    cases hx with
    | drainReportPool hscan =>
      exact { h with deaf := fun hno => absurd hscan (Bool.eq_false_iff.1 hno) }

/-! ## The acts move behind the calls -/

/-- What the call for the join touches. -/
def withComms (q : Eda.EventQueue Comms.Event) (outcome : Option App.Event)
    (fault : Option Eda.Reason) (s : Firmware.State T ρ cfg) : Firmware.State T ρ cfg :=
  { s with
    core := { s.core with
      commsQueue := q
      bringUp := outcome
      ledger := { s.core.ledger with fault := fault } } }

/-- What the call for the scan touches. -/
def withAcquisition (q : Eda.EventQueue Acquisition.Event) (s : Firmware.State T ρ cfg) :
    Firmware.State T ρ cfg :=
  { s with core := { s.core with acquisitionQueue := q } }

omit [AsReading ρ] in
/-- What an interrupt sends does not depend on the latch, and leaves it. -/
theorem sendEventFromIsr_withFault {ε : Type} (registered : Bool) (e : ε) (q : Eda.EventQueue ε)
    (ledger : Eda.Ledger) (fault : Option Eda.Reason) :
    Eda.sendEventFromIsr registered e q { ledger with fault := fault } =
      ((Eda.sendEventFromIsr registered e q ledger).1,
        { (Eda.sendEventFromIsr registered e q ledger).2 with fault := fault }) := by
  unfold Eda.sendEventFromIsr
  split <;> rfl

/-- An act that stirs reads nothing that the join touches, but for the fault that the diagnostics
service annunciates. -/
theorem Stirs.withComms {m : Progress} {x : Firmware.Act} (hx : Stirs m (.firmware x))
    (s : Firmware.State T ρ cfg) (q : Eda.EventQueue Comms.Event) (outcome : Option App.Event)
    {fault : Option Eda.Reason}
    (hfault : m.heartbeatTimer = true → fault = s.core.ledger.fault) :
    x.run (withComms q outcome fault s) = withComms q outcome fault (x.run s) := by
  suffices hact : x.act (Boot.withComms q outcome fault s) =
      Boot.withComms q outcome fault (x.act s) by
    unfold Firmware.Act.run
    rw [hact]
    rfl
  cases hx with
  | tick seconds => rfl
  | expireHeartbeatTimer _ =>
    simp only [Firmware.Act.act, Firmware.State.expireHeartbeatTimer, Boot.withComms,
      sendEventFromIsr_withFault]
    split <;> rfl
  | executeHeartbeat htimer =>
    obtain rfl := hfault htimer
    obtain ⟨core, pool, posting, phase, ⟨_ | ⟨e, items⟩, hfits⟩⟩ := s <;> rfl
  | onAdvReport r _ _ =>
    obtain ⟨core, pool, posting, phase⟩ := s
    cases posting with
    | true => rfl
    | false =>
      simp only [Firmware.Act.act, Firmware.State.onAdvReport, Boot.withComms]
      cases pool.put r <;> rfl
  | postAdvReport _ _ =>
    simp only [Firmware.Act.act, Firmware.State.postAdvReport, Boot.withComms,
      sendEventFromIsr_withFault]
    split <;> rfl
  | executeCommand result _ =>
    obtain ⟨core, pool, posting, phase⟩ := s
    cases phase with
    | draining => rfl
    | waiting =>
      obtain ⟨registered, ledger, bringUp, state, delay, retry, led, appQueue,
        ⟨_ | ⟨e, items⟩, hfits⟩⟩ := core
      · rfl
      · cases e <;> rfl
  | drainReportPool _ =>
    obtain ⟨core, ⟨_ | ⟨report, items⟩, hfits⟩, posting, phase⟩ := s
    · cases phase <;> rfl
    · cases phase with
      | waiting => rfl
      | draining =>
        simp only [Firmware.Act.act, Firmware.State.drainReportPool, Firmware.State.processReport,
          Boot.withComms, Fifo.tryGet]
        cases Acquisition.parseCustomFrame cfg report <;> rfl

/-- The diagnostics service reads nothing that the call for the scan touches. -/
theorem Stirs.withAcquisition {m : Progress} {x : Firmware.Act} (hx : Stirs m (.firmware x))
    (s : Firmware.State T ρ cfg) (q : Eda.EventQueue Acquisition.Event)
    (hscan : m.scanAsked = false) :
    x.run (withAcquisition q s) = withAcquisition q (x.run s) := by
  cases hx with
  | tick seconds => rfl
  | expireHeartbeatTimer _ =>
    obtain ⟨core, pool, posting, phase, diagnosticsQueue, heartbeatTimer⟩ := s
    cases heartbeatTimer <;> rfl
  | executeHeartbeat _ =>
    obtain ⟨core, pool, posting, phase, ⟨_ | ⟨e, items⟩, hfits⟩⟩ := s <;> rfl
  | onAdvReport r hasked _ => exact absurd hasked (Bool.eq_false_iff.1 hscan)
  | postAdvReport hasked _ => exact absurd hasked (Bool.eq_false_iff.1 hscan)
  | executeCommand result hasked => exact absurd hasked (Bool.eq_false_iff.1 hscan)
  | drainReportPool hasked => exact absurd hasked (Bool.eq_false_iff.1 hscan)

/-- The queue of an event that was sent to an empty one. -/
def only {ε : Type} (e : ε) : Eda.EventQueue ε := ⟨[e], Nat.le_add_left 1 19⟩

/-- The scan is asked for at a port that is there. -/
theorem Waiting.startScan {s : Firmware.State T ρ cfg} {m : Progress} (h : Waiting s m)
    (hport : .acquisitionPort ∈ m.ports) (hscan : m.scanAsked = false) :
    BootOp.startScan.run s = withAcquisition (only .startScan) s := by
  have hsent : Eda.sendEvent (s.core.registered .acquisitionPort) Acquisition.Event.startScan
      s.core.acquisitionQueue s.core.ledger = (only .startScan, s.core.ledger) := by
    rw [h.registered, (h.deaf hscan).1, decide_eq_true hport]
    rfl
  simp only [BootOp.run, System.State.sendToAcquisition, hsent]
  rfl

/-- What the call for the join leaves: the event is queued at the port of comms, or a fault is
latched where that is not there. -/
theorem Waiting.joinNetwork {s : Firmware.State T ρ cfg} {m : Progress} (h : Waiting s m)
    (outcome : App.Event) : (BootOp.joinNetwork outcome).run s =
      withComms (if .commsPort ∈ m.ports then only .joinNetwork else .empty) (some outcome)
        (if .commsPort ∈ m.ports then s.core.ledger.fault
          else Eda.report .portNotReady s.core.ledger.fault) s := by
  simp only [BootOp.run, System.State.sendToComms, h.registered, h.commsQueue]
  by_cases hport : .commsPort ∈ m.ports
  · rw [decide_eq_true hport, if_pos hport, if_pos hport]
    rfl
  · rw [decide_eq_false hport, if_neg hport, if_neg hport]
    rfl

/-- An act that stirs moves behind a call. -/
theorem Stirs.moves {s : Firmware.State T ρ cfg} {m : Progress} {x : Firmware.Act} {o : BootOp}
    (hx : Stirs m (.firmware x)) (h : Waiting s m) (horder : Orderly m) (ho : Permitted m o) :
    o.run (x.run s) = x.run (o.run s) := by
  obtain ⟨hplace, -, hscan, htimer⟩ := ho
  have hunasked (hlast : ∀ outcome, o ≠ .joinNetwork outcome) : m.scanAsked = false := by
    refine Bool.eq_false_iff.2 fun hasked => ?_
    obtain ⟨outcome, rfl⟩ := hscan hasked
    exact hlast outcome rfl
  by_cases hstarts : o.Starts
  · cases o with
    | startScan =>
      rw [h.startScan hplace.2.1 hplace.1, (h.stir hx).startScan hplace.2.1 hplace.1]
      exact (hx.withAcquisition s _ hplace.1).symm
    | joinNetwork outcome =>
      rw [h.joinNetwork outcome, (h.stir hx).joinNetwork outcome, hx.fault s]
      refine (hx.withComms s _ _ fun hbeat => ?_).symm
      rw [if_pos (horder.heartbeat hbeat .commsPort)]
    | _ => exact hstarts.elim
  · have hasked : m.scanAsked = false := by
      refine hunasked fun outcome => ?_
      rintro rfl
      exact hstarts trivial
    cases hx with
    | tick seconds =>
      cases o with
      | startScan => exact absurd trivial hstarts
      | joinNetwork outcome => exact absurd trivial hstarts
      | _ => rfl
    | expireHeartbeatTimer hbeat => exact absurd (htimer hbeat) hstarts
    | executeHeartbeat hbeat => exact absurd (htimer hbeat) hstarts
    | onAdvReport r hscan' _ => exact absurd hscan' (Bool.eq_false_iff.1 hasked)
    | postAdvReport hscan' _ => exact absurd hscan' (Bool.eq_false_iff.1 hasked)
    | executeCommand result hscan' => exact absurd hscan' (Bool.eq_false_iff.1 hasked)
    | drainReportPool hscan' => exact absurd hscan' (Bool.eq_false_iff.1 hasked)

/-! ## The runs from power-on -/

/-- `main()` alone: the idle thread has fed nothing. -/
def Alone (s : State T ρ cfg) (m : Progress × Firmware.State T ρ cfg) : Prop :=
  s = ⟨m.2, m.1, []⟩ ∧ Orderly m.1 ∧ (m.1.joinAsked = false → Waiting m.2 m.1)

/-- `main()` among the others: they leave alone what is its own, and wait until the join is asked
for. -/
structure Among (s : State T ρ cfg) (m : Progress × Firmware.State T ρ cfg) : Prop where
  progress : s.progress = m.1
  orderly : Orderly m.1
  waiting : m.1.joinAsked = false → Waiting s.firmware m.1
  fed : ∀ id ∈ s.fed, 0 ≤ id ∧ id = m.1.channelId

omit [AsReading ρ] in
theorem Alone.among {s : State T ρ cfg} {m : Progress × Firmware.State T ρ cfg} (h : Alone s m) :
    Among s m := by
  obtain ⟨rfl, horder, hwaiting⟩ := h
  exact ⟨rfl, horder, hwaiting, fun _ h => absurd h List.not_mem_nil⟩

theorem Alone.call {s : State T ρ cfg} {m : Progress × Firmware.State T ρ cfg} {o : BootOp}
    (ans : Answer) (h : Alone s m) (ho : Permitted m.1 o) :
    Alone (perform o ans s).2 ((alone T ρ cfg).next o (perform o ans s).1 m) := by
  obtain ⟨rfl, horder, hwaiting⟩ := h
  exact ⟨rfl, horder.after ho _, fun hjoin => (hwaiting ho.2.1).run _ hjoin⟩

/-- What a firmware act of the others does. -/
theorem run_firmware (x : Firmware.Act) (s : State T ρ cfg) :
    (Act.firmware x).run s = s ∨
      (Act.firmware x).run s = { s with firmware := x.run s.firmware } := by
  cases x with
  | onAdvReport r =>
    simp only [Act.run]
    split
    · exact .inr rfl
    · exact .inl rfl
  | _ => exact .inr rfl

/-- What the others do among the calls of `main()` is kept from its own. -/
theorem Among.other {s : State T ρ cfg} {m : Progress × Firmware.State T ρ cfg} {x : Act}
    (hx : x.Own) (h : Among s m) : Among (x.run s) m := by
  obtain ⟨m, fw⟩ := m
  obtain ⟨rfl, horder, hwaiting, hfed⟩ := h
  cases x with
  | invokeIdleHook =>
    simp only [Act.run]
    rcases Int.lt_or_le s.progress.channelId 0 with hid | hid
    · rw [invokeIdleHook_idle horder hid]
      exact ⟨rfl, horder, hwaiting, hfed⟩
    · rw [invokeIdleHook_feeds horder hid]
      refine ⟨rfl, horder, hwaiting, fun id hmem => ?_⟩
      rcases List.mem_cons.1 hmem with rfl | hold
      · exact ⟨hid, rfl⟩
      · exact hfed id hold
  | firmware y =>
    rcases run_firmware y s with hs | hs
    · rw [hs]
      exact ⟨rfl, horder, hwaiting, hfed⟩
    · rw [hs]
      refine ⟨rfl, horder, fun hjoin => ?_, hfed⟩
      rcases Waiting.still_or_stirs horder (hwaiting hjoin) hx with hsame | hstirs
      · have hkept : y.run s.firmware = s.firmware := congrArg State.firmware (hs.symm.trans hsame)
        show Waiting (y.run s.firmware) s.progress
        rw [hkept]
        exact hwaiting hjoin
      · exact (hwaiting hjoin).stir hstirs

omit [AsReading ρ] in
/-- Once the watchdog's channel is set, it stays. -/
theorem after_channelId {m : Progress} {o : BootOp} (ho : Permitted m o) (hid : 0 ≤ m.channelId)
    (r : o.Res) : (m.after o r).channelId = m.channelId := by
  cases o with
  | getInstance x =>
    simp only [Progress.after]
    split <;> rfl
  | createThread p =>
    simp only [Progress.after]
    split <;> rfl
  | setChannelId id => exact absurd hid (Int.not_le.2 ho.1.1)
  | _ => rfl

/-- **Every act of the others moves behind every call that is still to come.** -/
theorem Among.moves {s : State T ρ cfg} {m : Progress × Firmware.State T ρ cfg} {x : Act}
    {o : BootOp} (hx : x.Own) (h : Among s m) (ho : Permitted m.1 o) :
    Moves (M := device T ρ cfg) x o s := by
  obtain ⟨m, fw⟩ := m
  obtain ⟨rfl, horder, hwaiting, -⟩ := h
  replace hwaiting := hwaiting ho.2.1
  rcases hwaiting.still_or_stirs horder hx with hsame | hstirs
  · exact .inl hsame
  · cases x with
    | invokeIdleHook =>
      cases hstirs with
      | feed hid =>
        refine .inr fun ans => ?_
        have hkept := after_channelId ho hid (o.answer ans s.progress)
        have hfeeds := invokeIdleHook_feeds (s := (perform o ans s).2) (horder.after ho _)
          (le_of_le_of_eq hid hkept.symm)
        show perform o ans s.invokeIdleHook = (_, (perform o ans s).2.invokeIdleHook)
        rw [invokeIdleHook_feeds horder hid, hfeeds]
        exact congrArg (fun id => ((perform o ans s).1,
          ({ (perform o ans s).2 with fed := id :: s.fed } : State T ρ cfg))) hkept.symm
    | firmware y =>
      have hmoved (ans : Answer) : perform o ans { s with firmware := y.run s.firmware } =
          ((perform o ans s).1,
            { (perform o ans s).2 with firmware := y.run (o.run s.firmware) }) := by
        rw [← hstirs.moves hwaiting horder ho]
        rfl
      cases y with
      | onAdvReport r =>
        cases hstirs with
        | onAdvReport _ hscan _ =>
          obtain ⟨outcome, rfl⟩ := ho.2.2.1 hscan
          by_cases hgate : (s.progress.advReportCallback && s.firmware.core.isScanning) = true
          · refine .inr fun ans => ?_
            have hheard : (Act.firmware (.onAdvReport r)).run s =
                { s with firmware := (Firmware.Act.onAdvReport r).run s.firmware } := if_pos hgate
            have hbehind : (Act.firmware (.onAdvReport r)).run
                (perform (.joinNetwork outcome) ans s).2 = _ := if_pos hgate
            show perform _ ans ((Act.firmware (.onAdvReport r)).run s) = (_, _)
            rw [hheard, hmoved ans]
            exact congrArg _ hbehind.symm
          · exact .inl (if_neg hgate)
      | _ => exact .inr hmoved

variable {c : (device T ρ cfg).Conf}

/-- What a run from power-on has done: `main()` its calls, and the others the rest behind them. -/
theorem reduced (h : Reach (.only Act.Own) (powerOn T ρ cfg) c) :
    ∃ s m, Alone s m ∧ Rely (M := device T ρ cfg) (.only Act.Own) s c.state ∧
      (c.running = none → m.1.joinAsked = true ∧
        m.2 = .broughtUp m.1.bleInitialized (decide (m.1.link = some .noError))) ∧
      ∀ p, c.running = some p → ∃ Q, p.ObeysTo (alone T ρ cfg) Q m := by
  have h₀ : Alone ⟨statics T ρ cfg, .powerOn, []⟩ (.powerOn, statics T ρ cfg) :=
    ⟨rfl, orderly_powerOn, fun _ => waiting_powerOn⟩
  obtain ⟨s, m, hs, hrely, hdone, hobeys⟩ := Reach.reduces (fun _ => rfl)
    (fun o ans s m hs ho => hs.call ans ho) (fun s m hs => hs.among)
    (fun x s m hx hs => hs.other hx) (fun x o s m hx hs ho => hs.moves hx ho) bringUp_obeys h₀ h
  exact ⟨s, m, hs, hrely, hdone, fun p hp => ⟨_, hobeys p hp⟩⟩

/-- What the others do behind the calls, the firmware does by itself. -/
theorem reach_firmware {s s' : State T ρ cfg}
    (h : Rely (M := device T ρ cfg) (.only Act.Own) s s') :
    Reach (M := Firmware.firmware T ρ cfg) (.only fun x => (Act.firmware x).Own)
      ⟨s.firmware, none⟩ ⟨s'.firmware, none⟩ := by
  induction h with
  | refl => exact .refl
  | @tail s₁ s₂ _ hx ih =>
    obtain ⟨x, hown, rfl⟩ := hx
    cases x with
    | invokeIdleHook =>
      have hsame : s₁.invokeIdleHook.firmware = s₁.firmware := by
        unfold State.invokeIdleHook
        split
        · simp only
          split <;> rfl
        · rfl
      show Reach (M := Firmware.firmware T ρ cfg) _ _ ⟨s₁.invokeIdleHook.firmware, none⟩
      rwa [hsame]
    | firmware y =>
      show Reach (M := Firmware.firmware T ρ cfg) _ _ ⟨((Act.firmware y).run s₁).firmware, none⟩
      rcases run_firmware y s₁ with hs | hs <;> rw [hs]
      · exact ih
      · exact ih.step (l := .other y) hown rfl

/-- The others keep what is kept among them. -/
theorem Among.rely {s s' : State T ρ cfg} {m : Progress × Firmware.State T ρ cfg}
    (h : Among s m) (hs : Rely (M := device T ρ cfg) (.only Act.Own) s s') : Among s' m := by
  induction hs with
  | refl => exact h
  | tail _ hx ih =>
    obtain ⟨x, hown, rfl⟩ := hx
    exact ih.other hown

/-- `main()` makes some calls, which are answered as if nothing was wrong, the idle thread runs, and
`main()` makes some more. -/
def coming (before behind : Nat) : List (device T ρ cfg).Label :=
  let fine : Answer := ⟨true, 0, 0, 0, .noError⟩
  List.replicate before (.call fine) ++ [.other .invokeIdleHook] ++
    List.replicate behind (.call fine)

/-- A call of `main()`, or the idle thread runs. -/
def calm : (device T ρ cfg).Label → (device T ρ cfg).Conf → Bool
  | .call _, _ | .other .invokeIdleHook, _ => true
  | .start, _ | .other (.firmware _), _ => false

theorem calm_allows {l : (device T ρ cfg).Label} {d : (device T ρ cfg).Conf}
    (h : calm l d = true) : (Guard.only Act.Own).Allows l d := by
  unfold Guard.Allows
  split
  · cases h
  · trivial
  · next x s r =>
    cases x with
    | invokeIdleHook => trivial
    | firmware y => cases h
  · trivial

/-- **The firmware comes up as it is modelled.** Whatever the stacks below answer to `main()`, and
whatever its threads, timers and callbacks do among its calls: while it brings the device up, comms
has nothing to take up, and when it is done but for the post of the outcome, the firmware is in a
state that it reaches by itself from the modelled bring-up. -/
theorem powerOn_refines (h : Reach (.only Act.Own) (powerOn T ρ cfg) c) :
    (∀ o k, c.running = some (.call o k) →
      (Firmware.firmware T ρ cfg).start c.state.firmware = none) ∧
    (c.running = none →
      Reach (.only fun x => (Act.firmware x).Own)
        (Firmware.booted T ρ cfg c.state.progress.bleInitialized
          (decide (c.state.progress.link = some .noError)))
        ⟨c.state.firmware, none⟩) := by
  obtain ⟨s, m, hs, hrely, hdone, hobeys⟩ := reduced h
  have hamong := hs.among.rely hrely
  constructor
  · intro o k hrunning
    obtain ⟨Q, hpermitted, -⟩ := hobeys _ hrunning
    have hqueue := (hamong.waiting hpermitted.2.1).commsQueue
    refine Option.eq_none_iff_forall_ne_some.2 fun ⟨p, s'⟩ hstart => ?_
    obtain ⟨e, q, hget, -, -⟩ := Firmware.start_eq_some hstart
    rw [hqueue] at hget
    cases hget
  · intro hnone
    have hreach := reach_firmware hrely
    have hfirmware : s.firmware = m.2 := congrArg State.firmware hs.1
    rw [hfirmware, (hdone hnone).2, ← hamong.progress] at hreach
    exact hreach

end

/-- A device whose services all come up. -/
theorem powerOn_refines_ready :
    ∃ c : (device (socketLink 242) Reading (.ofDevices 1)).Conf, c.running = none ∧
      c.state.progress.heartbeatTimer = true ∧
      Reach (.only fun x => (Act.firmware x).Own)
        (Firmware.booted (socketLink 242) Reading (.ofDevices 1) c.state.progress.bleInitialized
          (decide (c.state.progress.link = some .noError))) ⟨c.state.firmware, none⟩ := by
  obtain ⟨c, hc, hup⟩ := Reach.exists_of_runWithin (fun _ _ => calm_allows) (coming 13 22)
    (c := powerOn (socketLink 242) Reading (.ofDevices 1))
    (fun c => c.running.isNone && c.state.progress.heartbeatTimer) (by decide +kernel)
  obtain ⟨hnone, htimer⟩ := Bool.and_eq_true_iff.1 hup
  have hended := Option.isNone_iff_eq_none.1 hnone
  exact ⟨c, hended, htimer, (powerOn_refines hc).2 hended⟩

/-- **Bring-up keeps its order.** In every run from power-on, whatever the stacks below answer and
whatever the others do: what `main()` has brought up is in order, its next call comes behind what it
needs, and the idle thread has fed no channel but one that was installed with the watchdog's timeout
and set up. -/
theorem powerOn_orderly {T : Transport} {ρ : Type} [AsReading ρ] {cfg : Config}
    {c : (device T ρ cfg).Conf} (h : Reach (.only Act.Own) (powerOn T ρ cfg) c) :
    Orderly c.state.progress ∧
    (∀ o k, c.running = some (.call o k) → Permitted c.state.progress o) ∧
    ∀ id ∈ c.state.fed, 0 ≤ id ∧
      c.state.progress.driver = [.setUp 0, .installed WATCHDOG_TIMEOUT_MS id] := by
  obtain ⟨s, m, hs, hrely, -, hobeys⟩ := reduced h
  have hamong := hs.among.rely hrely
  rw [hamong.progress]
  refine ⟨hamong.orderly, fun o k hrunning => ?_, fun id hmem => ?_⟩
  · obtain ⟨Q, hpermitted, -⟩ := hobeys _ hrunning
    exact hpermitted
  · obtain ⟨hid, rfl⟩ := hamong.fed id hmem
    obtain ⟨max, hdriver⟩ := hamong.orderly.armed hid
    have hmax : max = WATCHDOG_TIMEOUT_MS := by
      refine hamong.orderly.timeout max m.1.channelId ?_
      rw [hdriver]
      exact .tail _ List.mem_cons_self
    rw [hdriver, hmax]
    exact ⟨hid, rfl⟩

/-- The idle thread feeds the watchdog while the services come up. -/
theorem powerOn_orderly_fed :
    ∃ c : (device (socketLink 242) Reading (.ofDevices 1)).Conf, c.state.fed = [0] ∧
      c.running.isSome = true ∧ c.state.progress.threads = [.acquisitionPort, .appPort] ∧
      Orderly c.state.progress ∧
      c.state.progress.driver = [.setUp 0, .installed WATCHDOG_TIMEOUT_MS 0] := by
  obtain ⟨c, hc, hup⟩ := Reach.exists_of_runWithin (fun _ _ => calm_allows) (coming 13 5)
    (c := powerOn (socketLink 242) Reading (.ofDevices 1))
    (fun c => (c.state.fed = [0] && c.running.isSome) &&
      c.state.progress.threads = [.acquisitionPort, .appPort]) (by decide +kernel)
  obtain ⟨hbefore, hthreads⟩ := Bool.and_eq_true_iff.1 hup
  obtain ⟨hfed, hrunning⟩ := Bool.and_eq_true_iff.1 hbefore
  replace hfed := of_decide_eq_true hfed
  obtain ⟨horder, -, hchannel⟩ := powerOn_orderly hc
  refine ⟨c, hfed, hrunning, of_decide_eq_true hthreads, horder, (hchannel 0 ?_).2⟩
  rw [hfed]
  exact List.mem_cons_self

end Concentrator.Boot
