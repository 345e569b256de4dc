import Concentrator.Eda.Basic

/-!
# The events of each port

What one module may tell another. Each port has its own events; the invalid event of each, which is
never posted, is left out.
-/

namespace Concentrator

/-- What the application is told. Reference: `app/port.hpp:18 Event`. -/
inductive App.Event where
  | servicesReady
  | servicesFailed
  | networkJoined
  | networkJoinFailed
  | dispatchStarted
  | dispatchFinished
  | softError
  | hardError
  | retryTimeout
  deriving DecidableEq

/-- The commands of the acquisition port. Reference: `svc/acquisition/port.hpp:18 Event`. -/
inductive Acquisition.Event where
  | startScan
  | stopScan
  | advReportAvailable
  deriving DecidableEq

/-- The commands of the comms port. Reference: `svc/comms/port.hpp:18 Event`. -/
inductive Comms.Event where
  | joinNetwork
  | dispatchDue
  | dispatchNow
  | startDispatch
  | stopDispatch
  deriving DecidableEq

end Concentrator
