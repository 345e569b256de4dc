import Concentrator.Firmware.Basic
import Concentrator.System.Discipline

/-!
# The firmware runs the comms service

What an act of the others does to the core is what one act of the composed system does, or it posts
an event, and no more (`run_core`). So what the composed system leaves alone, the firmware leaves
alone, and the rule of the comms service applies (`host`).
-/

namespace Concentrator.Firmware

open Threaded

variable {T : Transport} {ρ : Type} {cfg : Config}

@[simp] theorem noteHandled_core (s : State T ρ cfg) : s.noteHandled.core = s.core := by
  unfold State.noteHandled
  split <;> rfl

theorem noteDropped_self (s : State T ρ cfg) : s.noteDropped s.core.ledger = s := by
  unfold State.noteDropped
  rw [UInt32.sub_self]
  rfl

theorem noteHandled_comms {s : State T ρ cfg} {e : Comms.Event}
    (hexecuting : s.core.executing = some e) : s.noteHandled.comms = .handled e :: s.comms := by
  unfold State.noteHandled
  rw [hexecuting]

theorem noteHandled_of_none {s : State T ρ cfg} (hexecuting : s.core.executing = none) :
    s.noteHandled = s := by
  unfold State.noteHandled
  rw [hexecuting]

/-- The note adds to the log, and changes nothing else. -/
theorem noteHandled_eq (s : State T ρ cfg) :
    ∃ items, s.noteHandled = { s with comms := items ++ s.comms } := by
  unfold State.noteHandled
  split
  · exact ⟨[], rfl⟩
  · exact ⟨[_], rfl⟩

theorem noteHandled_losses (s : State T ρ cfg) : s.noteHandled.losses = s.losses := by
  obtain ⟨items, hnoted⟩ := noteHandled_eq s
  rw [hnoted]

/-- No call drops an event before it is made. -/
theorem noteCall_dropped (s : State T ρ cfg) (o : Comms.ServiceOp ρ) :
    (s.noteCall o).losses.dropped = s.losses.dropped := by
  unfold State.noteCall
  split
  · rfl
  · rfl
  · rfl
  · rw [noteHandled_losses]
  · rfl

/-- What is noted at the calls of the comms thread, and the events dropped so far. -/
def State.noted (s : State T ρ cfg) : List (CommsItem ρ) × Nat × Nat × Nat :=
  (s.comms, s.losses.refusedRead, s.losses.evictedRead, s.losses.dropped)

section
variable [AsReading ρ]

/-! ## What each act does -/

/-- What an act of the others does before the dropped events are added up: nothing, or one of
these. -/
inductive Does (s : State T ρ cfg) : Act → State T ρ cfg → Prop where
  | nothing (x : Act) : Does s x s
  | postBringUp : Does s .postBringUp { s with core := s.core.postBringUp }
  | handleEvent : Does s .handleEvent { s with core := s.core.handleEvent }
  | expireRetryTimer : Does s .expireRetryTimer { s with core := s.core.expireRetryTimer }
  | expireDispatchTimer :
    Does s .expireDispatchTimer { s with core := s.core.expireDispatchTimer }
  | tick (seconds : UInt32) :
    Does s (.tick seconds) { s with core := (System.Act.world (.tick seconds)).run s.core }
  /-- The pool refuses a report. -/
  | refuse {r : AdvReport} : s.posting = false → s.pool.put r = none →
    Does s (.onAdvReport r)
      { s with
        core := (System.Act.world .dropReport).run s.core
        losses := { s.losses with refused := s.losses.refused + 1 } }
  /-- The pool takes a report. -/
  | accept {r : AdvReport} {pool} : s.posting = false → s.pool.put r = some pool →
    Does s (.onAdvReport r) { s with pool := pool, posting := true }
  | postAdvReport : s.posting = true →
    Does s .postAdvReport
      { s with
        posting := false
        core := { s.core with
          acquisitionQueue := (Eda.sendEventFromIsr (s.core.registered .acquisitionPort)
            Acquisition.Event.advReportAvailable s.core.acquisitionQueue s.core.ledger).1
          ledger := (Eda.sendEventFromIsr (s.core.registered .acquisitionPort)
            Acquisition.Event.advReportAvailable s.core.acquisitionQueue s.core.ledger).2 } }
  | executeCommand (result : Int) {e q} : s.phase = .waiting →
    s.core.acquisitionQueue.tryGet = some (e, q) →
    Does s (.executeCommand result)
      { s with
        core := s.core.executeCommand result
        phase := if e = .advReportAvailable then .draining else .waiting
        commands := e :: s.commands }
  /-- The pool is empty, or holds a report that is no frame of ours. -/
  | drain {pool phase} : s.phase = .draining →
    Does s .drainReportPool { s with pool := pool, phase := phase }
  | upsert {report frame pool} : s.phase = .draining → s.pool.tryGet = some (report, pool) →
    Acquisition.parseCustomFrame cfg report = some frame →
    Does s .drainReportPool
      { s with
        pool := pool
        core := (System.Act.world (.upsert report.address report.rssi
          (Acquisition.toReading frame))).run s.core
        losses := { s.losses with
          evicted := s.losses.evicted +
            if s.core.world.table.Evicts report.address then 1 else 0 } }
  | expireHeartbeatTimer : s.heartbeatTimer = true →
    Does s .expireHeartbeatTimer
      { s with
        diagnosticsQueue := (Eda.sendEventFromIsr (s.core.registered .systemDiagnosticsPort)
          SystemDiagnostics.Event.heartbeatDue s.diagnosticsQueue s.core.ledger).1
        core := { s.core with
          ledger := (Eda.sendEventFromIsr (s.core.registered .systemDiagnosticsPort)
            SystemDiagnostics.Event.heartbeatDue s.diagnosticsQueue s.core.ledger).2 } }
  | executeHeartbeat {e q} : s.diagnosticsQueue.tryGet = some (e, q) →
    Does s .executeHeartbeat
      { s with
        diagnosticsQueue := q
        diagnostics := SystemDiagnostics.executeEvent s.core.ledger.fault
          { s.diagnostics with errorLed := s.core.errorLed }
        core := { s.core with
          errorLed := (SystemDiagnostics.executeEvent s.core.ledger.fault
            { s.diagnostics with errorLed := s.core.errorLed }).errorLed } }
  | postToApp (e : App.Event) : Does s (.postToApp e) { s with core := s.core.sendToApp e }
  | postDispatch (e : DispatchEvent) :
    Does s (.postDispatch e) { s with core := s.core.sendToComms e }

/-- An act does nothing else. -/
theorem act_does (x : Act) (s : State T ρ cfg) : Does s x (x.act s) := by
  cases x with
  | onAdvReport r =>
    simp only [Act.act, State.onAdvReport]
    split
    · exact .nothing _
    · next hposting =>
      split
      · next hput => exact .refuse (Bool.eq_false_iff.2 hposting) hput
      · next hput => exact .accept (Bool.eq_false_iff.2 hposting) hput
  | postAdvReport =>
    simp only [Act.act, State.postAdvReport]
    split
    · next hposting => exact .postAdvReport hposting
    · exact .nothing _
  | executeCommand result =>
    simp only [Act.act, State.executeCommand]
    split
    · exact .nothing _
    · next hphase =>
      split
      · exact .nothing _
      · next hget => exact .executeCommand result hphase hget
  | drainReportPool =>
    simp only [Act.act, State.drainReportPool]
    split
    · exact .nothing _
    · next hphase =>
      split
      · exact .drain hphase
      · next hget =>
        simp only [State.processReport]
        split
        · exact .drain hphase
        · next hparse => exact .upsert hphase hget hparse
  | expireHeartbeatTimer =>
    simp only [Act.act, State.expireHeartbeatTimer]
    split
    · next hrunning => exact .expireHeartbeatTimer hrunning
    · exact .nothing _
  | executeHeartbeat =>
    simp only [Act.act, State.executeHeartbeat]
    split
    · exact .nothing _
    · next hget => exact .executeHeartbeat hget
  | postBringUp => exact .postBringUp
  | handleEvent => exact .handleEvent
  | expireRetryTimer => exact .expireRetryTimer
  | expireDispatchTimer => exact .expireDispatchTimer
  | tick seconds => exact .tick seconds
  | postToApp e => exact .postToApp e
  | postDispatch e => exact .postDispatch e

/-- Everything an act of the others does to the core: what an act of the composed system does, or it
touches what is acquisition's, the ledger and the error LED alone, or it posts an event. -/
theorem run_core (x : Act) (s : State T ρ cfg) :
    (∃ y : System.Act, (x.run s).core = y.run s.core) ∨
    (∃ q isScanning ledger led, (x.run s).core =
      { s.core with
        acquisitionQueue := q
        isScanning := isScanning
        ledger := ledger
        errorLed := led }) ∨
    (∃ e, x = .postToApp e ∧ (x.run s).core = s.core.sendToApp e) ∨
    ∃ e, x = .postDispatch e ∧ (x.run s).core = s.core.sendToComms e := by
  have hdoes := act_does x s
  have hcore : (x.run s).core = (x.act s).core := rfl
  rw [hcore]
  generalize x.act s = s' at hdoes ⊢
  cases hdoes with
  | postBringUp => exact .inl ⟨.postBringUp, rfl⟩
  | handleEvent => exact .inl ⟨.handleEvent, rfl⟩
  | expireRetryTimer => exact .inl ⟨.expireRetryTimer, rfl⟩
  | expireDispatchTimer => exact .inl ⟨.expireDispatchTimer, rfl⟩
  | tick seconds => exact .inl ⟨.world (.tick seconds), rfl⟩
  | refuse _ _ => exact .inl ⟨.world .dropReport, rfl⟩
  | upsert _ _ _ => exact .inl ⟨.world _, rfl⟩
  | executeCommand result _ _ => exact .inl ⟨.executeCommand result, rfl⟩
  | nothing | accept | postAdvReport | drain | expireHeartbeatTimer | executeHeartbeat =>
    exact .inr (.inl ⟨_, _, _, _, rfl⟩)
  | postToApp e => exact .inr (.inr (.inl ⟨e, rfl, rfl⟩))
  | postDispatch e => exact .inr (.inr (.inr ⟨e, rfl, rfl⟩))

/-- The others leave to the comms thread what is its own. -/
theorem run_own (x : Act) (s : State T ρ cfg) : (x.run s).core.own = s.core.own := by
  rcases run_core x s with ⟨y, hs⟩ | ⟨q, isScanning, ledger, led, hs⟩ | ⟨e, -, hs⟩ | ⟨e, -, hs⟩
  · rw [hs]
    exact System.run_own y s.core
  · rw [hs]
    rfl
  · rw [hs]
    rfl
  · rw [hs]
    rfl

/-- What an act of the others does before the dropped events are added up leaves alone what is noted
elsewhere. -/
theorem act_noted (x : Act) (s : State T ρ cfg) : (x.act s).noted = s.noted := by
  have hdoes := act_does x s
  generalize x.act s = s' at hdoes ⊢
  cases hdoes <;> rfl

/-- The others leave the log of comms alone. -/
theorem run_comms (x : Act) (s : State T ρ cfg) : (x.run s).comms = s.comms :=
  congrArg Prod.fst (act_noted x s)

/-- The others send comms an event at most. -/
theorem run_commsQueue (x : Act) (s : State T ρ cfg) :
    System.CommsPost s.core (x.run s).core := by
  rcases run_core x s with
    ⟨y, hs⟩ | ⟨q, isScanning, ledger, led, hs⟩ | ⟨e, -, hs⟩ | ⟨⟨e, he⟩, -, hs⟩ <;> rw [hs]
  · exact System.run_commsQueue y s.core
  · exact .none rfl rfl
  · exact .none rfl rfl
  · refine .sent (e := e) ?_ ?_ (Eda.sendEvent_items e s.core.ledger _) rfl
    · rcases he with rfl | rfl <;> exact Comms.Event.noConfusion
    · rcases he with rfl | rfl <;> exact Comms.Event.noConfusion

/-- The comms thread takes the next event of its queue. -/
theorem start_eq_some {s s' : State T ρ cfg} {p : Comms.ServiceProg ρ Unit}
    (h : (firmware T ρ cfg).start s = some (p, s')) :
    ∃ e q, s.core.commsQueue.tryGet = some (e, q) ∧ p = Comms.executeEvent cfg e ∧
      s' = { s with core := { s.core with commsQueue := q, executing := some e } } := by
  obtain ⟨⟨p, core⟩, hcore, heq⟩ := Option.map_eq_some_iff.1 h
  cases heq
  obtain ⟨e, q, hget, rfl, rfl⟩ := System.start_eq_some hcore
  exact ⟨e, q, hget, rfl, rfl⟩

variable (T ρ cfg) in
/-- The firmware runs the comms service. -/
def host : Comms.Host cfg (firmware T ρ cfg) where
  executing s := s.core.executing
  enabled s := s.core.dispatchEnabled
  timer s := s.core.dispatchTimer
  other_executing x s := congrArg Prod.fst (run_own x s)
  other_enabled x s := congrArg (fun own => own.2.1) (run_own x s)
  start s p s' hstart := by
    obtain ⟨e, q, -, hp, rfl⟩ := start_eq_some hstart
    exact ⟨e, hp, rfl⟩
  finish _ := rfl
  perform_executing o ans s ho := (System.host T ρ cfg).perform_executing o ans s.core ho
  perform_sendToApp _ _ _ := rfl
  perform_cycle _ _ _ := rfl
  perform_dispatchEnabled _ s := congrArg (s.core.dispatchEnabled, ·) (noteDropped_self s)
  perform_setDispatchEnabled _ _ _ := rfl
  perform_startDispatchTimer _ _ := ⟨rfl, rfl⟩
  perform_stopDispatchTimer _ _ := ⟨rfl, rfl⟩

end

end Concentrator.Firmware
