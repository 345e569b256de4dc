/-!
# The uplink transport

What `hal::link` answers to the services above it, whatever carries the bytes.
-/

namespace Concentrator

/-- The outcome of a link operation. Reference: `hal/link/link.hpp:37 LinkError`. -/
inductive LinkError where
  | noError
  | notReady
  | configError
  | connectError
  | payloadTooLarge
  | sendError
  deriving DecidableEq

/-- What a transport would answer to each call at one moment. Reference: `hal/link/link.hpp:96
ILink`. -/
structure LinkView where
  isConnected : Bool
  maxPayloadSize : UInt8
  availablePayloadSize : UInt8
  maxUplinksPerDispatch : UInt8
  sendResult : LinkError

/-- A transport: its own state, and each call of the interface as a function of that state and of
what the stack below answers during the call. Reference: `hal/link/link.hpp:96 ILink`. -/
structure Transport where
  State : Type
  /-- What the stack below answers during one call. -/
  Answer : Type
  constructed : State
  connect : Answer → State → LinkError × State
  isConnected : State → Bool
  send : List UInt8 → Answer → State → LinkError × State
  getMaxPayloadSize : Answer → State → UInt8
  getAvailablePayloadSize : Answer → State → UInt8
  getMaxUplinksPerDispatch : UInt8

/-- What a transport would answer, when the call at hand, if it is a send, has the given result. -/
def Transport.view (T : Transport) (ans : T.Answer) (link : T.State) (sendResult : LinkError) :
    LinkView where
  isConnected := T.isConnected link
  maxPayloadSize := T.getMaxPayloadSize ans link
  availablePayloadSize := T.getAvailablePayloadSize ans link
  maxUplinksPerDispatch := T.getMaxUplinksPerDispatch
  sendResult := sendResult

end Concentrator
