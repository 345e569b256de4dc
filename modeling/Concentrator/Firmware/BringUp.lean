import Concentrator.Firmware.Discipline
import Concentrator.Lib.Reduction

/-!
# Bring-up

`App::initialize()` runs on the main thread, and the threads, timers and callbacks it creates run
from then on. The model of the firmware starts behind it (`Firmware.booted`); here it starts at
power-on, with `main()` making its calls one by one among the others. Every act of the others before
the last of these calls moves behind it, so the firmware is brought up as if `main()` had been
alone: what is proved of every run from `Firmware.booted` holds of the device from power-on.

The last call of `main()`, which posts the outcome, is the act `postBringUp` of the firmware. The
comms thread has nothing to do before that, and no part in it.
-/

namespace Concentrator.Boot

open Concentrator.System (PortList)
open Threaded

/-- The objects of `hal/` that are constructed when they are asked for first. Reference:
`app/app.cpp:52-56`. -/
inductive Singleton where
  | gpio
  | led
  | ble
  | link
  | watchdog
  deriving DecidableEq

/-- Reference: `hal/watchdog/watchdog.hpp:21 WatchdogError`. -/
inductive WatchdogError where
  | noError
  | hardwareError
  | invalidTimeout
  | alreadyRunning
  deriving DecidableEq

/-- Reference: `hal/ble/ble.hpp:58 BleError`. -/
inductive BleError where
  | noError
  | hardwareError
  | alreadyRunning
  deriving DecidableEq

/-- The shortest timeout of the watchdog. Reference: `hal/watchdog/watchdog.hpp:41`. -/
def MIN_TIMEOUT_MS : UInt32 := 500

/-- The longest timeout of the watchdog. Reference: `hal/watchdog/watchdog.hpp:44`. -/
def MAX_TIMEOUT_MS : UInt32 := 32000

/-- Reference: `app/app_config.hpp:37 WATCHDOG_TIMEOUT_MS`. -/
def WATCHDOG_TIMEOUT_MS : UInt32 := 10 * 1000

/-- The stacks of the thread pool. Reference: `hal/os/zephyr/os_zephyr.cpp:24 MAX_THREADS`. -/
def MAX_THREADS : Nat := 8

/-- What `main()` does to what it shares with the others, or asks of the stacks below. A thread is
named by the port it serves. -/
inductive BootOp where
  | getInstance (x : Singleton)
  /-- `register_idle_callback(&IdleHook::invoke)`, which creates the idle thread. -/
  | registerIdleCallback
  /-- `m_channel_id` -/
  | channelId
  | deviceIsReady
  | wdtInstallTimeout (max : UInt32)
  | wdtSetup
  | setChannelId (id : Int)
  | setTimeoutMs (timeoutMs : UInt32)
  | createThread (p : PortList)
  | initPort (p : PortList)
  | initializeTable
  | initializePool
  /-- `m_is_initialized` -/
  | bleIsInitialized
  | btEnable
  | setBleInitialized
  | registerAdvReportCallback
  | initializeLink
  | disableDispatch
  | startHeartbeatTimer
  | startScan
  /-- The join is asked for, and the outcome is all that is left to post. -/
  | joinNetwork (outcome : App.Event)

/-- What a call answers. -/
abbrev BootOp.Res : BootOp → Type
  | .channelId | .wdtInstallTimeout _ | .wdtSetup | .btEnable => Int
  | .deviceIsReady | .bleIsInitialized => Bool
  | .initializeLink => LinkError
  | _ => Unit

abbrev BootSig : Sig := ⟨BootOp, BootOp.Res⟩

/-- A program of the main thread. -/
abbrev BootProg (α : Type) : Type := Prog BootSig α

/-- Make one call. -/
abbrev call (o : BootOp) : BootProg o.Res := Prog.op (S := BootSig) o

/-! ## The programs -/

/-- Install the watchdog's timeout and start it. Reference:
`hal/watchdog/zephyr/watchdog_zephyr.cpp:30 set_timeout`. -/
def setTimeout (timeoutMs : UInt32) : BootProg WatchdogError := do
  let channelId ← call .channelId
  if channelId ≥ 0 then pure .alreadyRunning
  else if timeoutMs < MIN_TIMEOUT_MS ∨ timeoutMs > MAX_TIMEOUT_MS then pure .invalidTimeout
  else do
    let ready ← call .deviceIsReady
    if !ready then pure .hardwareError
    else do
      let channelId ← call (.wdtInstallTimeout timeoutMs)
      if channelId < 0 then pure .hardwareError
      else do
        let result ← call .wdtSetup
        if result ≠ 0 then pure .hardwareError
        else do
          call (.setChannelId channelId)
          call (.setTimeoutMs timeoutMs)
          pure .noError

/-- Reference: `hal/ble/zephyr/ble_zephyr.cpp:78 initialize`. -/
def initializeBle : BootProg BleError := do
  let initialized ← call .bleIsInitialized
  if initialized then pure .alreadyRunning
  else do
    let result ← call .btEnable
    if result ≠ 0 then pure .hardwareError
    else do
      call .setBleInitialized
      pure .noError

/-- Reference: `svc/acquisition/subsystem.cpp:201 initialize`. -/
def initializeAcquisition : BootProg Bool := do
  call .initializePool
  call (.createThread .acquisitionPort)
  call (.initPort .acquisitionPort)
  call (.getInstance .ble)
  let error ← initializeBle
  if error ≠ .noError then pure false
  else do
    call (.getInstance .ble)
    call .registerAdvReportCallback
    pure true

/-- Reference: `svc/comms/subsystem.cpp:461 initialize`. -/
def initializeComms : BootProg Bool := do
  call (.createThread .commsPort)
  call (.initPort .commsPort)
  call (.getInstance .link)
  let error ← call .initializeLink
  if error ≠ .noError then pure false
  else do
    call .disableDispatch
    pure true

/-- Reference: `svc/system_diagnostics/subsystem.cpp:130 initialize`. -/
def initializeDiagnostics : BootProg Bool := do
  call (.createThread .systemDiagnosticsPort)
  call (.initPort .systemDiagnosticsPort)
  call .startHeartbeatTimer
  pure true

/-- The services, in the order that each of them needs. Reference: `app/app.cpp:75-97`. -/
def initializeServices : BootProg Bool := do
  call .initializeTable
  let acquisitionReady ← initializeAcquisition
  let commsReady ← if acquisitionReady then initializeComms else pure false
  if commsReady then initializeDiagnostics else pure false

/-- Everything `main()` does, but for the post of the outcome. Reference: `app/app.cpp:41
initialize`, `app/state_machine/startup/startup.cpp:28 entry`. -/
def bringUp : BootProg Unit := do
  call (.getInstance .gpio)
  call (.getInstance .led)
  call (.getInstance .ble)
  call (.getInstance .link)
  call (.getInstance .watchdog)
  call .registerIdleCallback
  call (.getInstance .watchdog)
  let _ ← setTimeout WATCHDOG_TIMEOUT_MS
  call (.createThread .appPort)
  call (.initPort .appPort)
  let servicesReady ← initializeServices
  call .startScan
  call (.joinNetwork (if servicesReady then .servicesReady else .servicesFailed))

/-! ## The device from power-on -/

/-- A call of the watchdog's driver by `main()`, with its answer. -/
inductive WdtCall where
  | installed (max : UInt32) (id : Int)
  | setUp (result : Int)
  deriving DecidableEq

/-- What `main()` has brought up: the variables of `hal/` that it alone writes, and what it has
asked for. Lists have the latest first. -/
structure Progress where
  constructed : List Singleton
  /-- `s_idle_thread_started`; the callback is registered with it. -/
  idleThread : Bool
  /-- `m_channel_id` -/
  channelId : Int
  /-- `m_timeout_ms` -/
  timeoutMs : UInt32
  driver : List WdtCall
  /-- The threads created; their number is `s_next_stack_index`. -/
  threads : List PortList
  ports : List PortList
  tableReady : Bool
  /-- `m_is_initialized` -/
  bleInitialized : Bool
  /-- Whether `s_adv_report_callback` is set. -/
  advReportCallback : Bool
  /-- What the link answered when it was initialised. -/
  link : Option LinkError
  heartbeatTimer : Bool
  scanAsked : Bool
  joinAsked : Bool

namespace Progress

/-- Nothing has been brought up. Reference:
`hal/watchdog/zephyr/watchdog_zephyr.cpp:27 Watchdog`. -/
def powerOn : Progress :=
  ⟨[], false, -1, 0, [], [], [], false, false, false, none, false, false, false⟩

/-- What a call with the given answer adds. Reference: `hal/os/zephyr/os_zephyr.cpp:133 create`,
`:334 register_idle_callback`. -/
def after (m : Progress) : (o : BootOp) → o.Res → Progress
  | .getInstance x, _ =>
    if x ∈ m.constructed then m else { m with constructed := x :: m.constructed }
  | .registerIdleCallback, _ => { m with idleThread := true }
  | .wdtInstallTimeout max, id => { m with driver := .installed max id :: m.driver }
  | .wdtSetup, result => { m with driver := .setUp result :: m.driver }
  | .setChannelId id, _ => { m with channelId := id }
  | .setTimeoutMs timeoutMs, _ => { m with timeoutMs := timeoutMs }
  | .createThread p, _ =>
    if m.threads.length ≥ MAX_THREADS then m else { m with threads := p :: m.threads }
  | .initPort p, _ => { m with ports := p :: m.ports }
  | .initializeTable, _ => { m with tableReady := true }
  | .setBleInitialized, _ => { m with bleInitialized := true }
  | .registerAdvReportCallback, _ => { m with advReportCallback := true }
  | .initializeLink, error => { m with link := some error }
  | .startHeartbeatTimer, _ => { m with heartbeatTimer := true }
  | .startScan, _ => { m with scanAsked := true }
  | .joinNetwork _, _ => { m with joinAsked := true }
  | .channelId, _ | .deviceIsReady, _ | .initializePool, _ | .bleIsInitialized, _ | .btEnable, _
  | .disableDispatch, _ => m

end Progress

/-- What the stacks below answer during one call. -/
structure Answer where
  deviceIsReady : Bool
  channel : Int
  setUp : Int
  btEnable : Int
  link : LinkError

/-- What a call answers. -/
def BootOp.answer (ans : Answer) (m : Progress) : (o : BootOp) → o.Res
  | .channelId => m.channelId
  | .deviceIsReady => ans.deviceIsReady
  | .wdtInstallTimeout _ => ans.channel
  | .wdtSetup => ans.setUp
  | .bleIsInitialized => m.bleInitialized
  | .btEnable => ans.btEnable
  | .initializeLink => ans.link
  | .getInstance _ | .registerIdleCallback | .setChannelId _ | .setTimeoutMs _ | .createThread _
  | .initPort _ | .initializeTable | .initializePool | .setBleInitialized
  | .registerAdvReportCallback | .disableDispatch | .startHeartbeatTimer | .startScan
  | .joinNetwork _ => ()

section
variable (T : Transport) (ρ : Type) [AsReading ρ] (cfg : Config)

/-- Everything the threads share, and the channels of the watchdog that the idle thread has fed, the
latest first. -/
structure State where
  firmware : Firmware.State T ρ cfg
  progress : Progress
  fed : List Int

/-- The statics of the firmware at power-on. -/
def statics : Firmware.State T ρ cfg where
  core :=
    { registered := fun _ => false
      ledger := ⟨0, none⟩
      bringUp := none
      state := .startup
      retryDelayMs := App.SOFT_ERROR_RETRY_MS
      retryTimer := none
      errorLed := false
      appQueue := .empty
      acquisitionQueue := .empty
      isScanning := false
      commsQueue := .empty
      executing := none
      dispatchEnabled := false
      dispatchTimer := false
      link := T.constructed
      world := .boot }
  pool := .empty
  posting := false
  phase := .waiting
  diagnosticsQueue := .empty
  heartbeatTimer := false
  diagnostics := .boot
  commands := []
  comms := []
  losses := ⟨0, 0, 0, 0, 0⟩

variable {T ρ cfg}

/-- What a call does to what the firmware's threads share. -/
def BootOp.run (s : Firmware.State T ρ cfg) : BootOp → Firmware.State T ρ cfg
  | .initPort p =>
    { s with core := { s.core with registered := fun q => q = p || s.core.registered q } }
  | .initializeTable =>
    { s with core := { s.core with world := { s.core.world with table := .initial } } }
  | .initializePool => { s with pool := .empty }
  | .disableDispatch => { s with core := { s.core with dispatchEnabled := false } }
  | .startHeartbeatTimer => { s with heartbeatTimer := true }
  | .startScan => { s with core := s.core.sendToAcquisition .startScan }
  | .joinNetwork outcome =>
    { s with core := { s.core.sendToComms .joinNetwork with bringUp := some outcome } }
  | .getInstance _ | .registerIdleCallback | .channelId | .deviceIsReady | .wdtInstallTimeout _
  | .wdtSetup | .setChannelId _ | .setTimeoutMs _ | .createThread _ | .bleIsInitialized | .btEnable
  | .setBleInitialized | .registerAdvReportCallback | .initializeLink => s

/-- What a call does. -/
def perform (o : BootOp) (ans : Answer) (s : State T ρ cfg) : o.Res × State T ρ cfg :=
  let r := o.answer ans s.progress
  (r, { s with firmware := o.run s.firmware, progress := s.progress.after o r })

/-- What the others do between two calls of `main()`. A thread that is not there yet finds its queue
empty. -/
inductive Act where
  /-- The idle thread runs its callback once. -/
  | invokeIdleHook
  | firmware (x : Firmware.Act)

/-- The idle thread feeds the watchdog's channel, when there is one. Reference:
`hal/os/zephyr/os_zephyr.cpp:56 idle_approximation_thread`, `eda/idle_hook/idle_hook.cpp:23 invoke`,
`hal/watchdog/zephyr/watchdog_zephyr.cpp:85 refresh`. -/
def State.invokeIdleHook (s : State T ρ cfg) : State T ρ cfg :=
  if s.progress.idleThread then
    let s := { s with progress := s.progress.after (.getInstance .watchdog) () }
    if s.progress.channelId < 0 then s else { s with fed := s.progress.channelId :: s.fed }
  else s

/-- One act of the others. The stack reports advertisements to a registered callback, as long as it
scans. Reference: `hal/ble/zephyr/ble_zephyr.cpp:43 scan_callback`. -/
def Act.run : Act → State T ρ cfg → State T ρ cfg
  | .invokeIdleHook, s => s.invokeIdleHook
  | .firmware (.onAdvReport r), s =>
    if s.progress.advReportCallback && s.firmware.core.isScanning then
      { s with firmware := (Firmware.Act.onAdvReport r).run s.firmware }
    else s
  | .firmware x, s => { s with firmware := x.run s.firmware }

variable (T ρ cfg) in
/-- The main thread, bringing the device up among the threads it creates. -/
abbrev device : Threaded BootSig where
  State := State T ρ cfg
  Answer := Answer
  Act := Act
  perform := perform
  other := Act.run
  start _ := none
  finish s := s

variable (T ρ cfg) in
/-- The device at power-on. -/
def powerOn : (device T ρ cfg).Conf := resume bringUp ⟨statics T ρ cfg, .powerOn, []⟩

/-- The acts of the firmware's own threads. The post of the outcome is the one call `main()` has
left, and nobody else posts an event to the application or asks for a dispatch. -/
def Act.Own : Act → Prop
  | .firmware .postBringUp | .firmware (.postToApp _) | .firmware (.postDispatch _) => False
  | _ => True

end

/-! ## The order of the calls -/

/-- Whether a call comes in its place, behind what it needs. -/
def InPlace (m : Progress) : BootOp → Prop
  -- A singleton is constructed while `main()` is the only thread.
  | .getInstance x => x ∈ m.constructed ∨ m.idleThread = false ∧ m.threads = []
  | .registerIdleCallback => (∀ x, x ∈ m.constructed) ∧ m.driver = []
  | .wdtInstallTimeout max =>
    m.idleThread = true ∧ m.channelId < 0 ∧ m.driver = [] ∧ max = WATCHDOG_TIMEOUT_MS
  | .wdtSetup => m.channelId < 0 ∧ ∃ max id, 0 ≤ id ∧ m.driver = [.installed max id]
  | .setChannelId id =>
    m.channelId < 0 ∧ ∃ max, m.driver = [.setUp 0, .installed max id]
  | .setTimeoutMs timeoutMs => m.driver = [.setUp 0, .installed timeoutMs m.channelId]
  | .createThread p =>
    (∀ x, x ∈ m.constructed) ∧ p ∉ m.threads ∧ m.threads.length < MAX_THREADS ∧
      (p ≠ .appPort → m.tableReady = true)
  | .initPort p => p ∈ m.threads ∧ p ∉ m.ports
  -- No thread that reads or writes the table exists.
  | .initializeTable => ∀ p ∈ m.threads, p = .appPort
  | .initializePool => ∀ p ∈ m.threads, p = .appPort
  | .btEnable => .acquisitionPort ∈ m.ports ∧ m.bleInitialized = false
  | .registerAdvReportCallback => .acquisitionPort ∈ m.ports ∧ m.bleInitialized = true
  | .initializeLink => .commsPort ∈ m.ports ∧ m.link = none
  | .disableDispatch => m.link = some .noError
  | .startHeartbeatTimer => ∀ p, p ∈ m.ports
  | .startScan =>
    m.scanAsked = false ∧ .acquisitionPort ∈ m.ports ∧
      (m.bleInitialized = true → m.advReportCallback = true ∧ .commsPort ∈ m.ports)
  | .joinNetwork outcome =>
    m.scanAsked = true ∧ (outcome = .servicesReady ↔ m.heartbeatTimer = true)
  | .channelId | .deviceIsReady | .bleIsInitialized | .setBleInitialized => True

/-- A call that the start of the state machine makes. -/
def BootOp.Starts : BootOp → Prop
  | .startScan | .joinNetwork _ => True
  | _ => False

/-- Whether a call may come next: in its place, and the heartbeat timer is started behind everything
the services need, and the state machine last. -/
def Permitted (m : Progress) (o : BootOp) : Prop :=
  InPlace m o ∧ m.joinAsked = false ∧ (m.scanAsked = true → ∃ outcome, o = .joinNetwork outcome) ∧
    (m.heartbeatTimer = true → o.Starts)

section
variable {T : Transport} {ρ : Type} [AsReading ρ] {cfg : Config}

variable (T ρ cfg) in
/-- `main()` alone: what it has brought up, and what its calls leave of the firmware. -/
def alone : Monitor BootSig (Progress × Firmware.State T ρ cfg) where
  allows m o := Permitted m.1 o
  next o r m := (m.1.after o r, o.run m.2)

/-- Before the timer is started. -/
def Early (m : Progress) : Prop :=
  m.heartbeatTimer = false ∧ m.scanAsked = false ∧ m.joinAsked = false

theorem InPlace.permitted {m : Progress} {o : BootOp} (h : InPlace m o) (hearly : Early m) :
    Permitted m o := by
  refine ⟨h, hearly.2.2, fun hscan => ?_, fun htimer => ?_⟩
  · rw [hearly.2.1] at hscan
    cases hscan
  · rw [hearly.1] at htimer
    cases htimer

section
variable {m : Progress} {s : Firmware.State T ρ cfg} {α : Type}
  {Q : α → Progress × Firmware.State T ρ cfg → Prop}

/-- A singleton that is there already. -/
theorem getInstance_obeys {x : Singleton} {p : Unit → BootProg α} (hx : x ∈ m.constructed)
    (hearly : Early m) (hp : (p ()).ObeysTo (alone T ρ cfg) Q (m, s)) :
    (call (.getInstance x) >>= p).ObeysTo (alone T ρ cfg) Q (m, s) := by
  refine .op (InPlace.permitted (.inl hx) hearly) fun _ => ?_
  have hsame : m.after (.getInstance x) () = m := if_pos hx
  show (p ()).ObeysTo (alone T ρ cfg) Q (m.after (.getInstance x) (), s)
  rwa [hsame]

/-- What registering a port leaves of the firmware. -/
abbrev registering (p : PortList) (s : Firmware.State T ρ cfg) : Firmware.State T ρ cfg :=
  (BootOp.initPort p).run s

/-- A thread whose port is still to come, with a stack for it. -/
def Unserved (m : Progress) (t : PortList) : Prop :=
  t ∉ m.threads ∧ t ∉ m.ports ∧ m.threads.length < MAX_THREADS

/-- A thread and its port come up. -/
theorem serve_obeys {t : PortList} {p : Unit → BootProg α} (hall : ∀ x, x ∈ m.constructed)
    (ht : Unserved m t) (htable : t ≠ .appPort → m.tableReady = true) (hearly : Early m)
    (hp : (p ()).ObeysTo (alone T ρ cfg) Q
      ({ m with threads := t :: m.threads, ports := t :: m.ports }, registering t s)) :
    (call (.createThread t) >>= fun _ => call (.initPort t) >>= p).ObeysTo (alone T ρ cfg) Q
      (m, s) := by
  obtain ⟨hthread, hport, hroom⟩ := ht
  refine .op (InPlace.permitted ⟨hall, hthread, hroom, htable⟩ hearly) fun _ => ?_
  have hcreated : m.after (.createThread t) () = { m with threads := t :: m.threads } :=
    if_neg (Nat.not_le.2 hroom)
  show (call (.initPort t) >>= p).ObeysTo (alone T ρ cfg) Q (m.after (.createThread t) (), s)
  rw [hcreated]
  exact .op (InPlace.permitted ⟨List.mem_cons_self, hport⟩ hearly) fun _ => hp

end

/-- The watchdog is tried behind the idle thread, and nothing else is touched. -/
theorem setTimeout_obeys {m : Progress} {s : Firmware.State T ρ cfg} (hidle : m.idleThread = true)
    (hdriver : m.driver = []) (hchannel : m.channelId < 0) (hearly : Early m) :
    (setTimeout WATCHDOG_TIMEOUT_MS).ObeysTo (alone T ρ cfg) (fun _ m' =>
      ∃ driver channelId timeoutMs,
        m' = ({ m with driver := driver, channelId := channelId, timeoutMs := timeoutMs }, s))
      (m, s) := by
  refine .op (InPlace.permitted trivial hearly) fun channelId => ?_
  refine .ite (fun _ => ⟨_, _, _, rfl⟩) fun _ => ?_
  refine .ite (fun _ => ⟨_, _, _, rfl⟩) fun _ => ?_
  refine .op (InPlace.permitted trivial hearly) fun ready => ?_
  refine .ite (fun _ => ⟨_, _, _, rfl⟩) fun _ => ?_
  have hinstall : InPlace m (.wdtInstallTimeout WATCHDOG_TIMEOUT_MS) :=
    ⟨hidle, hchannel, hdriver, rfl⟩
  refine .op (hinstall.permitted hearly) fun id => ?_
  refine .ite (fun _ => ⟨_, _, _, rfl⟩) fun hid => ?_
  have hinstalled := congrArg (WdtCall.installed WATCHDOG_TIMEOUT_MS id :: ·) hdriver
  have hsetUp : InPlace (m.after (.wdtInstallTimeout WATCHDOG_TIMEOUT_MS) id) .wdtSetup :=
    ⟨hchannel, _, _, Int.not_lt.1 hid, hinstalled⟩
  refine .op (hsetUp.permitted hearly) fun result => ?_
  refine .ite (fun _ => ⟨_, _, _, rfl⟩) fun hresult => ?_
  obtain rfl := Decidable.not_not.1 hresult
  have hstarted := congrArg (WdtCall.setUp 0 :: ·) hinstalled
  refine .op (InPlace.permitted ⟨hchannel, _, hstarted⟩ hearly) fun _ => ?_
  refine .op (InPlace.permitted hstarted hearly) fun _ => ?_
  exact ⟨_, _, _, rfl⟩

/-- The BLE stack comes up where it answers so. -/
theorem initializeBle_obeys {m : Progress} {s : Firmware.State T ρ cfg}
    (hport : .acquisitionPort ∈ m.ports) (hble : m.bleInitialized = false) (hearly : Early m) :
    initializeBle.ObeysTo (alone T ρ cfg) (fun error m' =>
      m' = ({ m with bleInitialized := error = .noError }, s)) (m, s) := by
  have hsame : m = { m with bleInitialized := false } := by rw [← hble]
  refine .op (InPlace.permitted trivial hearly) fun initialized => ?_
  refine .ite (fun _ => congrArg (·, s) hsame) fun _ => ?_
  refine .op (InPlace.permitted ⟨hport, hble⟩ hearly) fun result => ?_
  refine .ite (fun _ => congrArg (·, s) hsame) fun _ => ?_
  exact .op (InPlace.permitted trivial hearly) fun _ => rfl

/-- The acquisition service comes up where the BLE stack does; its thread and its port are there in
either case. -/
theorem initializeAcquisition_obeys {m : Progress} {s : Firmware.State T ρ cfg}
    (hall : ∀ x, x ∈ m.constructed) (hthreads : ∀ p ∈ m.threads, p = .appPort)
    (ht : Unserved m .acquisitionPort) (htable : m.tableReady = true)
    (hble : m.bleInitialized = false) (hcallback : m.advReportCallback = false)
    (hearly : Early m) :
    initializeAcquisition.ObeysTo (alone T ρ cfg) (fun ready m' => m' =
      ({ m with
        threads := .acquisitionPort :: m.threads
        ports := .acquisitionPort :: m.ports
        bleInitialized := ready
        advReportCallback := ready }, registering .acquisitionPort { s with pool := .empty }))
      (m, s) := by
  refine .op (InPlace.permitted hthreads hearly) fun _ => ?_
  refine serve_obeys hall ht (fun _ => htable) hearly ?_
  refine getInstance_obeys (hall .ble) hearly ?_
  refine .bind (initializeBle_obeys List.mem_cons_self hble hearly) ?_
  rintro error _ rfl
  refine .ite (fun herror => ?_) fun herror => ?_
  · rw [decide_eq_false herror]
    exact congrArg (fun callback => (
      { m with
        threads := .acquisitionPort :: m.threads
        ports := .acquisitionPort :: m.ports
        bleInitialized := false
        advReportCallback := callback }, _)) hcallback
  · obtain rfl := Decidable.not_not.1 herror
    refine getInstance_obeys (hall .ble) hearly ?_
    exact .op (InPlace.permitted ⟨List.mem_cons_self, rfl⟩ hearly) fun _ => rfl

/-- The comms service comes up where the link does; its thread and its port are there in either
case. -/
theorem initializeComms_obeys {m : Progress} {s : Firmware.State T ρ cfg}
    (hall : ∀ x, x ∈ m.constructed) (ht : Unserved m .commsPort) (htable : m.tableReady = true)
    (hlink : m.link = none) (hdispatch : s.core.dispatchEnabled = false) (hearly : Early m) :
    initializeComms.ObeysTo (alone T ρ cfg) (fun ready m' => ∃ error,
      (ready = true ↔ error = .noError) ∧ m' =
        ({ m with
          threads := .commsPort :: m.threads
          ports := .commsPort :: m.ports
          link := some error }, registering .commsPort s)) (m, s) := by
  refine serve_obeys hall ht (fun _ => htable) hearly ?_
  refine getInstance_obeys (hall .link) hearly ?_
  refine .op (InPlace.permitted ⟨List.mem_cons_self, hlink⟩ hearly) fun error => ?_
  refine .ite (fun herror => ?_) fun herror => ?_
  · exact ⟨error, ⟨nofun, fun hnone => absurd hnone herror⟩, rfl⟩
  · obtain rfl := Decidable.not_not.1 herror
    refine .op (InPlace.permitted rfl hearly) fun _ => ?_
    refine ⟨.noError, ⟨fun _ => rfl, fun _ => rfl⟩, ?_⟩
    have hsame : BootOp.disableDispatch.run s = s := by
      show { s with core := { s.core with dispatchEnabled := false } } = s
      rw [← hdispatch]
    exact congrArg (fun s => (_, registering .commsPort s)) hsame

/-- The diagnostics service comes up, and starts its timer. -/
theorem initializeDiagnostics_obeys {m : Progress} {s : Firmware.State T ρ cfg}
    (hall : ∀ x, x ∈ m.constructed) (ht : Unserved m .systemDiagnosticsPort)
    (htable : m.tableReady = true)
    (hports : ∀ p, p ≠ .systemDiagnosticsPort → p ∈ m.ports) (hearly : Early m) :
    initializeDiagnostics.ObeysTo (alone T ρ cfg) (fun ready m' => ready = true ∧ m' =
      ({ m with
        threads := .systemDiagnosticsPort :: m.threads
        ports := .systemDiagnosticsPort :: m.ports
        heartbeatTimer := true },
        { registering .systemDiagnosticsPort s with heartbeatTimer := true })) (m, s) := by
  refine serve_obeys hall ht (fun _ => htable) hearly ?_
  have hall' (p : PortList) : p ∈ PortList.systemDiagnosticsPort :: m.ports :=
    List.mem_cons.2 (or_iff_not_imp_left.2 (hports p))
  exact .op (InPlace.permitted hall' hearly) fun _ => ⟨rfl, rfl⟩

/-- How the services come up: as far as the stacks below let them. -/
structure Served (ready : Bool) (m : Progress) (s : Firmware.State T ρ cfg) : Prop where
  outcome : ready = (m.bleInitialized && decide (m.link = some .noError))
  heartbeatTimer : m.heartbeatTimer = ready
  unasked : m.scanAsked = false ∧ m.joinAsked = false
  acquisitionPort : .acquisitionPort ∈ m.ports
  scans : m.bleInitialized = true → m.advReportCallback = true ∧ .commsPort ∈ m.ports
  firmware : ∃ registered, s =
      { statics T ρ cfg with
        core := { (statics T ρ cfg).core with registered := registered }
        heartbeatTimer := ready } ∧
    ∀ p, registered p = (System.State.broughtUp m.bleInitialized
      (decide (m.link = some .noError)) : System.State T ρ cfg).registered p

theorem initializeServices_obeys {m : Progress} (hall : ∀ x, x ∈ m.constructed)
    (hthreads : m.threads = [.appPort]) (hports : m.ports = [.appPort])
    (hble : m.bleInitialized = false) (hcallback : m.advReportCallback = false)
    (hlink : m.link = none) (hearly : Early m) :
    initializeServices.ObeysTo (alone T ρ cfg) (fun ready m' => Served ready m'.1 m'.2)
      (m, registering .appPort (statics T ρ cfg)) := by
  have happ (p : PortList) (hp : p ∈ m.threads) : p = .appPort := by
    rw [hthreads] at hp
    exact List.mem_singleton.1 hp
  have hacquisition : Unserved m .acquisitionPort := by
    unfold Unserved
    rw [hthreads, hports]
    decide
  refine .op (InPlace.permitted happ hearly) fun _ => ?_
  refine .bind (initializeAcquisition_obeys hall happ hacquisition rfl hble hcallback hearly) ?_
  rintro acquisitionReady _ rfl
  cases acquisitionReady with
  | false =>
    refine ⟨rfl, hearly.1, hearly.2, List.mem_cons_self, nofun, _, rfl, fun p => ?_⟩
    cases p <;> rfl
  | true =>
    have hcomms : Unserved { m with
        threads := .acquisitionPort :: m.threads
        ports := .acquisitionPort :: m.ports } .commsPort := by
      unfold Unserved
      simp only [hthreads, hports]
      decide
    refine .bind (initializeComms_obeys hall hcomms rfl hlink rfl hearly) ?_
    rintro commsReady _ ⟨error, hready, rfl⟩
    cases commsReady with
    | false =>
      have herror : error ≠ .noError := fun hnone => Bool.false_ne_true (hready.2 hnone)
      have hup : decide (some error = some LinkError.noError) = false :=
        decide_eq_false fun hnone => herror (Option.some.inj hnone)
      refine ⟨?_, hearly.1, hearly.2, .tail _ List.mem_cons_self,
        fun _ => ⟨rfl, List.mem_cons_self⟩, _, rfl, fun p => ?_⟩
      · rw [hup]
        rfl
      · rw [hup]
        cases p <;> rfl
    | true =>
      obtain rfl := hready.1 rfl
      have hdiagnostics : Unserved { m with
          threads := .commsPort :: .acquisitionPort :: m.threads
          ports := .commsPort :: .acquisitionPort :: m.ports } .systemDiagnosticsPort := by
        unfold Unserved
        simp only [hthreads, hports]
        decide
      have hothers (p : PortList) (hp : p ≠ .systemDiagnosticsPort) :
          p ∈ PortList.commsPort :: .acquisitionPort :: m.ports := by
        rw [hports]
        cases p <;> simp at hp ⊢
      refine .mono (initializeDiagnostics_obeys hall hdiagnostics rfl hothers hearly) ?_
      rintro _ _ ⟨rfl, rfl⟩
      refine ⟨rfl, rfl, hearly.2, ?_, fun _ => ⟨rfl, ?_⟩, _, rfl, fun p => ?_⟩
      · exact .tail _ (.tail _ List.mem_cons_self)
      · exact .tail _ List.mem_cons_self
      · cases p <;> rfl

/-- The start of the state machine, behind the services, leaves the firmware as it is modelled. -/
theorem start_broughtUp (acquisitionReady linkReady : Bool) {s : Firmware.State T ρ cfg}
    {registered : PortList → Bool}
    (hs : s = { statics T ρ cfg with
      core := { (statics T ρ cfg).core with registered := registered }
      heartbeatTimer := acquisitionReady && linkReady })
    (hregistered : ∀ p, registered p =
      (System.State.broughtUp acquisitionReady linkReady : System.State T ρ cfg).registered p) :
    (BootOp.joinNetwork
      (if acquisitionReady && linkReady then .servicesReady else .servicesFailed)).run
        (BootOp.startScan.run s) = .broughtUp acquisitionReady linkReady := by
  obtain rfl := funext hregistered
  rw [hs]
  cases acquisitionReady <;> cases linkReady <;> rfl

/-- What `main()` does alone: every call comes when it may, and the firmware is left as it is
modelled. -/
theorem bringUp_obeys : bringUp.ObeysTo (alone T ρ cfg) (fun _ m =>
    m.1.joinAsked = true ∧
      m.2 = .broughtUp m.1.bleInitialized (decide (m.1.link = some .noError)))
    (.powerOn, statics T ρ cfg) := by
  let m : Progress :=
    { Progress.powerOn with
      constructed := [.watchdog, .link, .ble, .led, .gpio]
      idleThread := true }
  have hall (x : Singleton) : x ∈ m.constructed := by cases x <;> decide
  have hearly : Early m := ⟨rfl, rfl, rfl⟩
  refine .op (InPlace.permitted (.inr ⟨rfl, rfl⟩) hearly) fun _ => ?_
  refine .op (InPlace.permitted (.inr ⟨rfl, rfl⟩) hearly) fun _ => ?_
  refine .op (InPlace.permitted (.inr ⟨rfl, rfl⟩) hearly) fun _ => ?_
  refine .op (InPlace.permitted (.inr ⟨rfl, rfl⟩) hearly) fun _ => ?_
  refine .op (InPlace.permitted (.inr ⟨rfl, rfl⟩) hearly) fun _ => ?_
  refine .op (InPlace.permitted ⟨hall, rfl⟩ hearly) fun _ => ?_
  refine getInstance_obeys (hall .watchdog) hearly ?_
  have hchannel : m.channelId < 0 := by decide
  refine .bind (setTimeout_obeys rfl rfl hchannel hearly) ?_
  rintro _ _ ⟨driver, channelId, timeoutMs, rfl⟩
  have hroom : m.threads.length < MAX_THREADS := by decide
  refine serve_obeys hall ⟨List.not_mem_nil, List.not_mem_nil, hroom⟩ (absurd rfl) hearly ?_
  refine .bind (initializeServices_obeys hall rfl rfl rfl rfl rfl hearly) ?_
  rintro _ ⟨m', s⟩ ⟨rfl, htimer, hunasked, hport, hscans, registered, hs, hregistered⟩
  have hscan : Permitted m' .startScan := by
    refine ⟨⟨hunasked.1, hport, hscans⟩, hunasked.2, fun hscan => ?_, fun _ => trivial⟩
    exact absurd hscan (Bool.eq_false_iff.1 hunasked.1)
  refine .op hscan fun _ => ?_
  refine .op ⟨⟨rfl, ?_⟩, hunasked.2, fun _ => ⟨_, rfl⟩, fun _ => trivial⟩ fun _ => ⟨rfl, ?_⟩
  · show _ ↔ m'.heartbeatTimer = true
    rw [htimer]
    split
    · next hready => exact ⟨fun _ => hready, fun _ => rfl⟩
    · next hready => exact ⟨nofun, fun hready' => absurd hready' hready⟩
  · exact start_broughtUp _ _ hs hregistered

end

end Concentrator.Boot
