import Concentrator.Hal.Link

/-!
# The TCP socket transport

`SocketLink`, which the wired and the Wi-Fi backend share. Each of its calls is one step: its state
is read and written by the comms thread alone. What the socket library answers during a call is the
`SocketAnswer` of the call.

The state keeps, beside the code's two variables, the bytes the library took on each connection.
-/

namespace Concentrator

/-- What the socket library answers during one call. -/
structure SocketAnswer where
  /-- `net_addr_pton()` of the server's address. -/
  netAddrPton : Int
  zsockSocket : Int
  zsockConnect : Int
  /-- `zsock_send()`, to each call in turn. -/
  zsockSend : Nat → Int

/-- The state of a socket link. Reference: `hal/link/socket/socket_link.hpp:114-117`. -/
structure SocketState where
  /-- The open socket, or a negative number. -/
  socket : Int
  isConnected : Bool
  /-- The bytes written on each connection, the latest connection first. -/
  streams : List (List UInt8)
  deriving DecidableEq

namespace SocketLink

/-- Close the socket if one is open.
Reference: `hal/link/socket/socket_link.cpp:242 close_socket`. -/
def closeSocket (s : SocketState) : SocketState :=
  if s.socket ≥ 0 then { s with socket := -1 } else s

/-- Connect to the server, unless connected. Reference: `hal/link/socket/socket_link.cpp:51
connect`. -/
def connect (ans : SocketAnswer) (s : SocketState) : LinkError × SocketState :=
  if s.isConnected then (.noError, s)
  else
    let s := closeSocket s
    if ans.netAddrPton ≠ 0 then (.configError, s)
    else
      let s := { s with socket := ans.zsockSocket }
      if s.socket < 0 then (.notReady, s)
      else if ans.zsockConnect < 0 then (.connectError, closeSocket s)
      else (.noError, { s with isConnected := true, streams := [] :: s.streams })

/-- Add bytes to the current connection's stream. -/
def write (taken : List UInt8) (s : SocketState) : SocketState :=
  match s.streams with
  | [] => s
  | stream :: earlier => { s with streams := (stream ++ taken) :: earlier }

/-- The send loop, from its `calls`-th call on, with `rest` still to send: whether the library took
everything. Each round takes a byte or ends the loop, so as many rounds as bytes are enough.
Reference: `hal/link/socket/socket_link.cpp:126-144`. -/
def sendLoop (zsockSend : Nat → Int) : (fuel calls : Nat) → (rest : List UInt8) → SocketState →
    Bool × SocketState
  | 0, _, _, s => (true, s)
  | fuel + 1, calls, rest, s =>
    if rest = [] then (true, s)
    else
      let result := zsockSend calls
      if result ≤ 0 then (false, s)
      else
        sendLoop zsockSend fuel (calls + 1) (rest.drop result.toNat)
          (write (rest.take result.toNat) s)

/-- Largest fragment a connected link wants. Reference: `hal/link/socket/socket_link.cpp:154
get_max_payload_size`. -/
def getMaxPayloadSize (maxFragment : UInt8) (s : SocketState) : UInt8 :=
  if s.isConnected then maxFragment else 0

/-- Send the bytes on the connection; a library that refuses closes it. Reference:
`hal/link/socket/socket_link.cpp:109 send`. -/
def send (maxFragment : UInt8) (data : List UInt8) (ans : SocketAnswer) (s : SocketState) :
    LinkError × SocketState :=
  if !s.isConnected then (.connectError, s)
  else if data.length > (getMaxPayloadSize maxFragment s).toNat then (.payloadTooLarge, s)
  else
    match sendLoop ans.zsockSend data.length 0 data s with
    | (true, s) => (.noError, s)
    | (false, s) => (.sendError, { closeSocket s with isConnected := false })

end SocketLink

/-- The socket link as a transport. Reference: `hal/link/socket/socket_link.cpp:31 SocketLink`,
`:168 get_available_payload_size`, `:175 get_max_uplinks_per_dispatch`. -/
def socketLink (maxFragment : UInt8) : Transport where
  State := SocketState
  Answer := SocketAnswer
  constructed := ⟨-1, false, []⟩
  connect := SocketLink.connect
  isConnected := SocketState.isConnected
  send := SocketLink.send maxFragment
  getMaxPayloadSize _ := SocketLink.getMaxPayloadSize maxFragment
  getAvailablePayloadSize _ := SocketLink.getMaxPayloadSize maxFragment
  getMaxUplinksPerDispatch := 255

namespace SocketLink

variable (maxFragment : UInt8) (data : List UInt8) (ans : SocketAnswer) (s : SocketState)

/-- A connect succeeds exactly when it leaves the link connected. -/
theorem connect_isConnected :
    (connect ans s).2.isConnected = true ↔ (connect ans s).1 = .noError := by
  unfold connect closeSocket
  grind

/-- The loop leaves the connection as it was. -/
theorem sendLoop_isConnected (zsockSend : Nat → Int) (fuel calls : Nat) (rest : List UInt8) :
    (sendLoop zsockSend fuel calls rest s).2.isConnected = s.isConnected := by
  induction fuel generalizing calls rest s with
  | zero => rfl
  | succ fuel ih =>
    unfold sendLoop write
    grind

/-- A send takes the connection down exactly when it reports that the library refused. -/
theorem send_isConnected : (send maxFragment data ans s).2.isConnected = true ↔
    s.isConnected = true ∧ (send maxFragment data ans s).1 ≠ .sendError := by
  have hloop := sendLoop_isConnected s ans.zsockSend data.length 0 data
  unfold send
  cases hs : s.isConnected with
  | false => simp [hs]
  | true =>
    rw [hs] at hloop
    split
    · contradiction
    split
    · simp [hs]
    · cases hl : sendLoop ans.zsockSend data.length 0 data s with
      | mk taken s' => cases taken <;> simp_all

/-- The loop asks for the answers to its own calls alone. The induction is on the rounds. -/
theorem sendLoop_congr {f g : Nat → Int} (fuel : Nat) {calls : Nat} (h : ∀ i, calls ≤ i → f i = g i)
    (rest : List UInt8) : sendLoop f fuel calls rest s = sendLoop g fuel calls rest s := by
  induction fuel generalizing calls rest s with
  | zero => rfl
  | succ fuel ih =>
    have hnext (i : Nat) (hi : calls + 1 ≤ i) : f i = g i := h i (Nat.le_of_succ_le hi)
    simp only [sendLoop, h calls (Nat.le_refl calls), ih _ hnext]

/-- A library that takes bytes at every call refuses none. The induction is on the rounds. -/
theorem sendLoop_taken {zsockSend : Nat → Int} (h : ∀ i, 0 < zsockSend i) (fuel calls : Nat)
    (rest : List UInt8) : (sendLoop zsockSend fuel calls rest s).1 = true := by
  induction fuel generalizing calls rest s with
  | zero => rfl
  | succ fuel ih =>
    unfold sendLoop
    split
    · rfl
    · rw [if_neg (Int.not_le.2 (h calls))]
      exact ih ..

/-- A send reports an error of the library only when one of its calls failed. -/
theorem send_ne_sendError {ans : SocketAnswer} (h : ∀ i, 0 < ans.zsockSend i) :
    (send maxFragment data ans s).1 ≠ .sendError := by
  have hloop := sendLoop_taken s h data.length 0 data
  unfold send
  split
  · exact LinkError.noConfusion
  split
  · exact LinkError.noConfusion
  · cases hl : sendLoop ans.zsockSend data.length 0 data s with
    | mk taken s' =>
      rw [hl] at hloop
      cases hloop
      exact LinkError.noConfusion

end SocketLink

end Concentrator
