import Concentrator.App.StateMachine
import Concentrator.Comms.Service
import Concentrator.Hal.Backend

/-!
# The composed system

The application, the comms service over a transport, the acquisition port, their event queues, the
retry timer and the dispatch timer. The comms thread runs its handlers call by call, and between any
two of its calls the others act: the application handles an event, a timer expires, the acquisition
thread takes a command or records a reading, time passes. A handler of the application runs to
completion and is one step. A running timer may expire at any moment.

`State.broughtUp` is the system as `App::initialize()` leaves it, except for its last post, which
is a step of its own.
-/

namespace Concentrator.System

open App (Action StateId)

/-- The ports. Reference: `eda_config/port_list.hpp:22 PortList`. -/
inductive PortList where
  | appPort
  | acquisitionPort
  | commsPort
  | systemDiagnosticsPort
  deriving DecidableEq

/-- Everything the threads share. -/
structure State (T : Transport) (ρ : Type) (cfg : Config) where
  /-- Which ports are registered. Reference: `eda/port/port.cpp:26 m_active_ports_list`. -/
  registered : PortList → Bool
  ledger : Eda.Ledger
  /-- The outcome of bring-up, until it is posted. -/
  bringUp : Option App.Event
  /-- `m_current_state` of the state machine. -/
  state : StateId
  /-- `s_retry_delay_ms` -/
  retryDelayMs : UInt32
  /-- The delay the retry timer is armed with. -/
  retryTimer : Option UInt32
  errorLed : Bool
  appQueue : Eda.EventQueue App.Event
  acquisitionQueue : Eda.EventQueue Acquisition.Event
  isScanning : Bool
  commsQueue : Eda.EventQueue Comms.Event
  /-- The event the comms thread is handling; a join is handled once its outcome is sent. -/
  executing : Option Comms.Event
  /-- `s_dispatch_enabled` -/
  dispatchEnabled : Bool
  /-- Whether the dispatch timer runs. -/
  dispatchTimer : Bool
  link : T.State
  world : Comms.World ρ cfg

namespace State

variable {T : Transport} {ρ : Type} {cfg : Config}

/-- Send an event to the application. -/
def sendToApp (e : App.Event) (s : State T ρ cfg) : State T ρ cfg :=
  let (q, ledger) := Eda.sendEvent (s.registered .appPort) e s.appQueue s.ledger
  { s with appQueue := q, ledger := ledger }

/-- Send a command to the acquisition service. -/
def sendToAcquisition (e : Acquisition.Event) (s : State T ρ cfg) : State T ρ cfg :=
  let (q, ledger) := Eda.sendEvent (s.registered .acquisitionPort) e s.acquisitionQueue s.ledger
  { s with acquisitionQueue := q, ledger := ledger }

/-- Send a command to the comms service. -/
def sendToComms (e : Comms.Event) (s : State T ρ cfg) : State T ρ cfg :=
  let (q, ledger) := Eda.sendEvent (s.registered .commsPort) e s.commsQueue s.ledger
  { s with commsQueue := q, ledger := ledger }

/-- Carry out one action of the application. Reference:
`app/state_machine/soft_error/soft_error.cpp:57 schedule_retry` and the handlers. -/
def carryOut (s : State T ρ cfg) : Action → State T ρ cfg
  | .sendToAcquisition e => s.sendToAcquisition e
  | .sendToComms e => s.sendToComms e
  | .resetRetryDelay => { s with retryDelayMs := App.SOFT_ERROR_RETRY_MS }
  | .scheduleRetry =>
    { s with
      retryTimer := some s.retryDelayMs
      retryDelayMs := App.nextRetryDelayMs s.retryDelayMs }
  | .stopRetryTimer => { s with retryTimer := none }
  | .setErrorLed on => { s with errorLed := on }
  | .report reason =>
    { s with ledger := { s.ledger with fault := Eda.report reason s.ledger.fault } }
  | .setState new => { s with state := new }

/-- The application takes an event from its queue and handles it. Reference:
`eda/active_object/active_object.cpp:70 process_events`, `app/port.cpp:15 execute_event`. -/
def handleEvent (s : State T ρ cfg) : State T ρ cfg :=
  match s.appQueue.tryGet with
  | none => s
  | some (e, q) => (App.dispatchEvent s.state e).foldl carryOut { s with appQueue := q }

/-- Post the outcome of bring-up. Reference: `app/app.cpp:114`. -/
def postBringUp (s : State T ρ cfg) : State T ρ cfg :=
  match s.bringUp with
  | none => s
  | some e => { s.sendToApp e with bringUp := none }

/-- The retry timer expires, once. Reference: `app/state_machine/soft_error/soft_error.cpp:43
on_retry_timer_expired`. -/
def expireRetryTimer (s : State T ρ cfg) : State T ρ cfg :=
  match s.retryTimer with
  | none => s
  | some _ =>
    let (q, ledger) :=
      Eda.sendEventFromIsr (s.registered .appPort) .retryTimeout s.appQueue s.ledger
    { s with retryTimer := none, appQueue := q, ledger := ledger }

/-- The dispatch timer expires, and runs on. Reference: `svc/comms/subsystem.cpp:52
on_dispatch_timer_expired`. -/
def expireDispatchTimer (s : State T ρ cfg) : State T ρ cfg :=
  if s.dispatchTimer then
    let (q, ledger) :=
      Eda.sendEventFromIsr (s.registered .commsPort) .dispatchDue s.commsQueue s.ledger
    { s with commsQueue := q, ledger := ledger }
  else s

/-- The acquisition thread takes a command; `result` is what the stack answers when it starts or
stops the scan. Reference: `svc/acquisition/subsystem.cpp:232 execute_event`,
`hal/ble/zephyr/ble_zephyr.cpp:107 start_scan`, `:136 stop_scan`. -/
def executeCommand (result : Int) (s : State T ρ cfg) : State T ρ cfg :=
  match s.acquisitionQueue.tryGet with
  | none => s
  | some (.startScan, q) =>
    { s with acquisitionQueue := q, isScanning := s.isScanning || result == 0 }
  | some (.stopScan, q) =>
    { s with acquisitionQueue := q, isScanning := s.isScanning && result != 0 }
  | some (.advReportAvailable, q) => { s with acquisitionQueue := q }

end State

/-- What the others do between two calls of the comms thread. -/
inductive Act where
  | postBringUp
  | handleEvent
  | expireRetryTimer
  | expireDispatchTimer
  | executeCommand (result : Int)
  /-- A reading is recorded, time passes, a report is dropped. -/
  | world (x : Comms.Act)

section
variable {T : Transport} {ρ : Type} [AsReading ρ] {cfg : Config}

/-- One act of the others. -/
def Act.run : Act → State T ρ cfg → State T ρ cfg
  | .postBringUp, s => s.postBringUp
  | .handleEvent, s => s.handleEvent
  | .expireRetryTimer, s => s.expireRetryTimer
  | .expireDispatchTimer, s => s.expireDispatchTimer
  | .executeCommand result, s => s.executeCommand result
  | .world x, s => { s with world := x.run s.world }

/-- What a call does to the link: only a send does anything. -/
def handOver (o : Comms.CommsOp ρ) (ans : T.Answer) (link : T.State) : LinkError × T.State :=
  match o with
  | .send uplink => T.send uplink.bytes ans link
  | _ => (.noError, link)

/-- What a call of the comms service does. -/
def perform : (o : Comms.ServiceOp ρ) → T.Answer → State T ρ cfg → o.Res × State T ρ cfg
  | .cycle o, ans, s =>
    let sent := handOver o ans s.link
    let done := Comms.perform o (T.view ans s.link sent.1) s.world
    (done.1, { s with link := sent.2, world := done.2 })
  | .connect, ans, s => ((T.connect ans s.link).1, { s with link := (T.connect ans s.link).2 })
  | .sendToApp e, _, s => ((), { s.sendToApp e with executing := none })
  | .dispatchEnabled, _, s => (s.dispatchEnabled, s)
  | .setDispatchEnabled enabled, _, s => ((), { s with dispatchEnabled := enabled })
  | .startDispatchTimer, _, s => ((), { s with dispatchTimer := true })
  | .stopDispatchTimer, _, s => ((), { s with dispatchTimer := false })

variable (T ρ cfg) in
/-- The comms thread, handling its events among the other threads and the timers. Reference:
`eda/active_object/active_object.cpp:70 process_events`. -/
abbrev system : Threaded (Comms.ServiceSig ρ) where
  State := State T ρ cfg
  Answer := T.Answer
  Act := Act
  perform := perform
  other := Act.run
  start s :=
    match s.commsQueue.tryGet with
    | none => none
    | some (e, q) =>
      some (Comms.executeEvent cfg e, { s with commsQueue := q, executing := some e })
  finish s := { s with executing := none }

/-- The system after `App::initialize()`, whose outcome is still to be posted: whether the
acquisition service came up, and whether the link did. A service that is not reached does not
register its port; the state machine starts all the same. Reference: `app/app.cpp:41 initialize`,
`svc/acquisition/subsystem.cpp:201 initialize`, `svc/comms/subsystem.cpp:461 initialize`,
`svc/system_diagnostics/subsystem.cpp:130 initialize`. -/
def State.broughtUp (acquisitionReady linkReady : Bool) : State T ρ cfg :=
  let s : State T ρ cfg :=
    { registered := fun
        | .appPort | .acquisitionPort => true
        | .commsPort => acquisitionReady
        | .systemDiagnosticsPort => acquisitionReady && linkReady
      ledger := ⟨0, none⟩
      bringUp :=
        some (if acquisitionReady && linkReady then .servicesReady else .servicesFailed)
      state := .startup
      retryDelayMs := App.SOFT_ERROR_RETRY_MS
      retryTimer := none
      errorLed := false
      appQueue := .empty
      acquisitionQueue := .empty
      isScanning := false
      commsQueue := .empty
      executing := none
      dispatchEnabled := false
      dispatchTimer := false
      link := T.constructed
      world := .boot }
  (App.entry .startup).foldl State.carryOut s

variable (T ρ cfg) in
/-- The system after a bring-up, the comms thread waiting. -/
def booted (acquisitionReady linkReady : Bool) : (system T ρ cfg).Conf :=
  ⟨.broughtUp acquisitionReady linkReady, none⟩

end

end Concentrator.System
