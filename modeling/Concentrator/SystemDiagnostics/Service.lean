import Concentrator.Eda.Events

/-!
# The system diagnostics service

A heartbeat timer posts an event a second. A healthy device toggles its heartbeat LED at each; a
device with a latched fault blinks its error and activity LEDs together instead, for as long as it
is powered.
-/

namespace Concentrator.SystemDiagnostics

/-- The event of the port. Reference: `svc/system_diagnostics/port.hpp:18 Event`. -/
inductive Event where
  | heartbeatDue
  deriving DecidableEq

/-- How often the fault is logged again, in heartbeats. Reference:
`svc/system_diagnostics/subsystem.cpp:39 HEALTH_LOG_INTERVAL`. -/
def HEALTH_LOG_INTERVAL : UInt32 := 60

/-- The variables of the service and the LEDs it drives, with the faults it has logged, the latest
first. Reference: `svc/system_diagnostics/subsystem.cpp:42-45`, `:73`, `hal/led/led_instances.hpp:16
LedInstances`. -/
structure State where
  heartbeatCount : UInt32
  faultAnnounced : Bool
  faultBlinkOn : Bool
  heartbeatLed : Bool
  errorLed : Bool
  activityLed : Bool
  logged : List Eda.Reason
  deriving DecidableEq

/-- Log the fault. -/
def logFault (reason : Eda.Reason) (s : State) : State := { s with logged := reason :: s.logged }

/-- Show the fault: the error and the activity LED blink together, and the heartbeat LED is off.
Reference: `svc/system_diagnostics/subsystem.cpp:92 annunciate_fault`. -/
def annunciateFault (reason : Eda.Reason) (s : State) : State :=
  let s :=
    if !s.faultAnnounced then
      logFault reason { s with faultAnnounced := true, heartbeatLed := false }
    else if s.heartbeatCount % HEALTH_LOG_INTERVAL = 0 then logFault reason s
    else s
  let s := { s with faultBlinkOn := !s.faultBlinkOn }
  { s with errorLed := s.faultBlinkOn, activityLed := s.faultBlinkOn }

/-- What the service does with a heartbeat, with the fault that is latched, if any. The health
summary goes to the log only, and is left out. Reference:
`svc/system_diagnostics/subsystem.cpp:147 execute_event`. -/
def executeEvent (fault : Option Eda.Reason) (s : State) : State :=
  let s := { s with heartbeatCount := s.heartbeatCount + 1 }
  match fault with
  | some reason => annunciateFault reason s
  | none => { s with heartbeatLed := !s.heartbeatLed }

/-- The service before its first heartbeat. -/
def State.boot : State := ⟨0, false, false, false, false, false, []⟩

/-- The fault shows in `s'`, after one heartbeat from `s`: the blink has changed its phase, both
LEDs follow it, and the fault has been announced. -/
structure Annunciated (s s' : State) : Prop where
  blinks : s'.faultBlinkOn = !s.faultBlinkOn
  errorLed : s'.errorLed = s'.faultBlinkOn
  activityLed : s'.activityLed = s'.faultBlinkOn
  announced : s'.faultAnnounced = true

/-- Every heartbeat of a device with a latched fault annunciates it. -/
theorem executeEvent_annunciated (reason : Eda.Reason) (s : State) :
    Annunciated s (executeEvent (some reason) s) := by
  unfold executeEvent annunciateFault logFault
  constructor <;> grind

end Concentrator.SystemDiagnostics
