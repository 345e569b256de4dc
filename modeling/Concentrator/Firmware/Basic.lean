import Concentrator.Acquisition.Pool
import Concentrator.System.Basic
import Concentrator.SystemDiagnostics.Service

/-!
# The firmware

The composed system (`System`), with the parts of the firmware it leaves open: the advertising
callback and the pool it fills, the acquisition thread that drains the pool into the device table,
and the diagnostics service with its heartbeat timer. The comms thread runs its handlers call by
call, as there; everything else is an act of the others. Any thread may post an event to the
application or ask comms for a dispatch: a statement about the firmware alone excludes these acts.

Beside the firmware's own variables the state keeps what the statements are about: the commands the
acquisition port executed, the calls of `send()` among the events comms has handled, and what was
lost.
-/

namespace Concentrator.Firmware

open Acquisition (Phase)

/-- What the log of comms keeps: an event that was handled, and what was handed to
`hal::link::send()`. -/
inductive CommsItem (ρ : Type) where
  | handled (e : Comms.Event)
  | handedOver (uplink : Comms.Uplink ρ)

/-- What was lost since boot: the reports the pool refused, the devices evicted and the events
dropped at full queues; and how many of the first two there were when their counter was last read
for a header. -/
structure Losses where
  refused : Nat
  evicted : Nat
  dropped : Nat
  refusedRead : Nat
  evictedRead : Nat

/-- Everything the threads share. -/
structure State (T : Transport) (ρ : Type) (cfg : Config) where
  core : System.State T ρ cfg
  /-- `s_report_pool` -/
  pool : Fifo AdvReport cfg.advReportPoolSize
  /-- The callback has put its report and not yet posted the event. -/
  posting : Bool
  /-- Where the acquisition thread is. -/
  phase : Phase
  diagnosticsQueue : Eda.EventQueue SystemDiagnostics.Event
  /-- Whether the heartbeat timer runs. -/
  heartbeatTimer : Bool
  /-- The variables of the diagnostics service; the error LED is the one of the core. -/
  diagnostics : SystemDiagnostics.State
  /-- The events the acquisition port has executed, the latest first. -/
  commands : List Acquisition.Event
  /-- The log of comms, the latest item first. -/
  comms : List (CommsItem ρ)
  losses : Losses

namespace State

variable {T : Transport} {ρ : Type} {cfg : Config}

/-- Add up the events dropped since the ledger was `before`. -/
def noteDropped (before : Eda.Ledger) (s : State T ρ cfg) : State T ρ cfg :=
  { s with
    losses := { s.losses with
      dropped := s.losses.dropped + (s.core.ledger.dropped - before.dropped).toNat } }

/-- Note that the event comms was handling has been handled. -/
def noteHandled (s : State T ρ cfg) : State T ρ cfg :=
  match s.core.executing with
  | none => s
  | some e => { s with comms := .handled e :: s.comms }

/-- Note what a call of the comms service is about to do. -/
def noteCall (s : State T ρ cfg) : Comms.ServiceOp ρ → State T ρ cfg
  | .cycle (.send uplink) => { s with comms := .handedOver uplink :: s.comms }
  | .cycle .getDroppedReportCount =>
    { s with losses := { s.losses with refusedRead := s.losses.refused } }
  | .cycle .getEvictedCount =>
    { s with losses := { s.losses with evictedRead := s.losses.evicted } }
  | .sendToApp _ => s.noteHandled
  | _ => s

section
variable [AsReading ρ]

/-- The first step of the advertising callback: the report goes into the pool, or is dropped and
counted. Reference: `svc/acquisition/subsystem.cpp:65-79 on_adv_report`. -/
def onAdvReport (r : AdvReport) (s : State T ρ cfg) : State T ρ cfg :=
  if s.posting then s
  else
    match s.pool.put r with
    | none =>
      { s with
        core := { s.core with world := Comms.Act.dropReport.run s.core.world }
        losses := { s.losses with refused := s.losses.refused + 1 } }
    | some pool => { s with pool := pool, posting := true }

/-- Record what a report holds, if it is a frame of ours. Reference:
`svc/acquisition/subsystem.cpp:157-176`. -/
def processReport (report : AdvReport) (s : State T ρ cfg) : State T ρ cfg :=
  match Acquisition.parseCustomFrame cfg report with
  | none => s
  | some frame =>
    let upsert := Comms.Act.upsert report.address report.rssi (Acquisition.toReading frame)
    { s with
      core := { s.core with world := upsert.run s.core.world }
      losses := { s.losses with
        evicted := s.losses.evicted +
          if s.core.world.table.Evicts report.address then 1 else 0 } }

/-- One round of the drain loop of the acquisition thread. Reference:
`svc/acquisition/subsystem.cpp:147 drain_report_pool`. -/
def drainReportPool (s : State T ρ cfg) : State T ρ cfg :=
  match s.phase with
  | .waiting => s
  | .draining =>
    match s.pool.tryGet with
    | none => { s with phase := .waiting }
    | some (report, pool) => processReport report { s with pool := pool }

end

/-- The second step of the callback: it posts the event. Reference:
`svc/acquisition/subsystem.cpp:81-83`. -/
def postAdvReport (s : State T ρ cfg) : State T ρ cfg :=
  if s.posting then
    let (q, ledger) := Eda.sendEventFromIsr (s.core.registered .acquisitionPort)
      .advReportAvailable s.core.acquisitionQueue s.core.ledger
    { s with posting := false, core := { s.core with acquisitionQueue := q, ledger := ledger } }
  else s

/-- The acquisition thread takes an event; an `ADV_REPORT_AVAILABLE` begins a drain. Reference:
`eda/active_object/active_object.cpp:70 process_events`, `svc/acquisition/subsystem.cpp:232
execute_event`. -/
def executeCommand (result : Int) (s : State T ρ cfg) : State T ρ cfg :=
  match s.phase with
  | .draining => s
  | .waiting =>
    match s.core.acquisitionQueue.tryGet with
    | none => s
    | some (e, _) =>
      { s with
        core := s.core.executeCommand result
        phase := if e = .advReportAvailable then .draining else .waiting
        commands := e :: s.commands }

/-- The heartbeat timer expires, and runs on. Reference:
`svc/system_diagnostics/subsystem.cpp:60 on_heartbeat_timer_expired`. -/
def expireHeartbeatTimer (s : State T ρ cfg) : State T ρ cfg :=
  if s.heartbeatTimer then
    let (q, ledger) := Eda.sendEventFromIsr (s.core.registered .systemDiagnosticsPort)
      .heartbeatDue s.diagnosticsQueue s.core.ledger
    { s with diagnosticsQueue := q, core := { s.core with ledger := ledger } }
  else s

/-- The diagnostics thread takes a heartbeat and handles it. Reference:
`svc/system_diagnostics/subsystem.cpp:147 execute_event`. -/
def executeHeartbeat (s : State T ρ cfg) : State T ρ cfg :=
  match s.diagnosticsQueue.tryGet with
  | none => s
  | some (_, q) =>
    let diagnostics := SystemDiagnostics.executeEvent s.core.ledger.fault
      { s.diagnostics with errorLed := s.core.errorLed }
    { s with
      diagnosticsQueue := q
      diagnostics := diagnostics
      core := { s.core with errorLed := diagnostics.errorLed } }

end State

/-- An event that asks comms for a dispatch. -/
abbrev DispatchEvent : Type :=
  {e : Comms.Event // e = .dispatchDue ∨ e = .dispatchNow}

/-- What the others do between two calls of the comms thread. -/
inductive Act where
  | postBringUp
  | handleEvent
  | expireRetryTimer
  | expireDispatchTimer
  | tick (seconds : UInt32)
  | onAdvReport (r : AdvReport)
  | postAdvReport
  | executeCommand (result : Int)
  | drainReportPool
  | expireHeartbeatTimer
  | executeHeartbeat
  /-- Some thread posts an event to the application. -/
  | postToApp (e : App.Event)
  /-- Some thread asks comms for a dispatch. -/
  | postDispatch (e : DispatchEvent)

section
variable {T : Transport} {ρ : Type} [AsReading ρ] {cfg : Config}

/-- One act of the others, before the dropped events are added up. -/
def Act.act : Act → State T ρ cfg → State T ρ cfg
  | .postBringUp, s => { s with core := s.core.postBringUp }
  | .handleEvent, s => { s with core := s.core.handleEvent }
  | .expireRetryTimer, s => { s with core := s.core.expireRetryTimer }
  | .expireDispatchTimer, s => { s with core := s.core.expireDispatchTimer }
  | .tick seconds, s =>
    { s with core := { s.core with world := (Comms.Act.tick seconds).run s.core.world } }
  | .onAdvReport r, s => s.onAdvReport r
  | .postAdvReport, s => s.postAdvReport
  | .executeCommand result, s => s.executeCommand result
  | .drainReportPool, s => s.drainReportPool
  | .expireHeartbeatTimer, s => s.expireHeartbeatTimer
  | .executeHeartbeat, s => s.executeHeartbeat
  | .postToApp e, s => { s with core := s.core.sendToApp e }
  | .postDispatch e, s => { s with core := s.core.sendToComms e }

/-- One act of the others. -/
def Act.run (x : Act) (s : State T ρ cfg) : State T ρ cfg := (x.act s).noteDropped s.core.ledger

/-- What a call of the comms service does. -/
def perform (o : Comms.ServiceOp ρ) (ans : T.Answer) (s : State T ρ cfg) :
    o.Res × State T ρ cfg :=
  let done := System.perform o ans s.core
  (done.1, { s.noteCall o with core := done.2 }.noteDropped s.core.ledger)

variable (T ρ cfg) in
/-- The comms thread, handling its events among the other threads, the timers and the advertising
callback. -/
abbrev firmware : Threaded (Comms.ServiceSig ρ) where
  State := State T ρ cfg
  Answer := T.Answer
  Act := Act
  perform := perform
  other := Act.run
  start s := ((System.system T ρ cfg).start s.core).map fun ps => (ps.1, { s with core := ps.2 })
  finish s := { s.noteHandled with core := (System.system T ρ cfg).finish s.core }

/-- The firmware after `App::initialize()`. The diagnostics service comes up whenever it is reached,
which it is when the services before it came up; it starts its timer. Reference: `app/app.cpp:41
initialize`, `svc/system_diagnostics/subsystem.cpp:130 initialize`. -/
def State.broughtUp (acquisitionReady linkReady : Bool) : State T ρ cfg where
  core := .broughtUp acquisitionReady linkReady
  pool := .empty
  posting := false
  phase := .waiting
  diagnosticsQueue := .empty
  heartbeatTimer := acquisitionReady && linkReady
  diagnostics := .boot
  commands := []
  comms := []
  losses := ⟨0, 0, 0, 0, 0⟩

variable (T ρ cfg) in
/-- The firmware after a bring-up, the comms thread waiting. -/
def booted (acquisitionReady linkReady : Bool) : (firmware T ρ cfg).Conf :=
  ⟨.broughtUp acquisitionReady linkReady, none⟩

end

end Concentrator.Firmware
