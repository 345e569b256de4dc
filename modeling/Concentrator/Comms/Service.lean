import Concentrator.Comms.Cycle
import Concentrator.Eda.Events

/-!
# The comms service

What the comms thread does with an event, as a program: it connects the link and reports the
outcome, it starts and stops the dispatch timer, or it runs a dispatch cycle, whose calls are
among its own.
-/

namespace Concentrator.Comms

/-- The calls of the service. -/
inductive ServiceOp (ρ : Type) where
  /-- A call of a dispatch cycle. -/
  | cycle (o : CommsOp ρ)
  | connect
  /-- `eda::Port::send_event(APP_PORT, e)` -/
  | sendToApp (e : App.Event)
  | dispatchEnabled
  | setDispatchEnabled (enabled : Bool)
  | startDispatchTimer
  | stopDispatchTimer

/-- The answer to each call. -/
@[reducible] def ServiceOp.Res {ρ : Type} : ServiceOp ρ → Type
  | .cycle o => o.Res
  | .connect => LinkError
  | .dispatchEnabled => Bool
  | .sendToApp _ | .setDispatchEnabled _ | .startDispatchTimer | .stopDispatchTimer => Unit

/-- The calls of the service, as a signature. -/
abbrev ServiceSig (ρ : Type) : Sig := ⟨ServiceOp ρ, ServiceOp.Res⟩

variable {ρ : Type}

/-- A program of the comms service. -/
abbrev ServiceProg (ρ α : Type) : Type := Prog (ServiceSig ρ) α

/-- Make one call of the service. -/
abbrev serviceCall (o : ServiceOp ρ) : ServiceProg ρ o.Res := Prog.op (S := ServiceSig ρ) o

/-- A dispatch cycle as a program of the service. -/
def serviceCycle (cfg : Config) : ServiceProg ρ Unit :=
  (dispatch cfg).hoist (T := ServiceSig ρ) .cycle fun _ r => r

/-- The outcome of a connect, as the application is told. Reference:
`svc/comms/subsystem.cpp:497-499`. -/
def joinOutcome (result : LinkError) : App.Event :=
  if result = .noError then .networkJoined else .networkJoinFailed

/-- The network counts as joined exactly when the connect succeeded. -/
theorem joinOutcome_cases (result : LinkError) :
    result = .noError ∧ joinOutcome result = .networkJoined ∨
      result ≠ .noError ∧ joinOutcome result = .networkJoinFailed := by
  by_cases h : result = .noError
  · exact .inl ⟨h, if_pos h⟩
  · exact .inr ⟨h, if_neg h⟩

/-- What the service does with an event. No callback is ever registered, so what follows the switch
does nothing. Reference: `svc/comms/subsystem.cpp:483 execute_event`. -/
def executeEvent (cfg : Config) : Event → ServiceProg ρ Unit
  | .joinNetwork => do
    let result ← serviceCall .connect
    serviceCall (.sendToApp (joinOutcome result))
  | .startDispatch => do
    serviceCall (.setDispatchEnabled true)
    serviceCall .startDispatchTimer
  | .stopDispatch => do
    serviceCall (.setDispatchEnabled false)
    serviceCall .stopDispatchTimer
  | .dispatchDue | .dispatchNow => do
    let enabled ← serviceCall .dispatchEnabled
    if !enabled then pure () else serviceCycle cfg

end Concentrator.Comms
