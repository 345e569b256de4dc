import Concentrator.Hal.Backend
import Concentrator.Lib.History

/-!
# The Wi-Fi link, call by call

The Wi-Fi backend is a socket link whose `initialize()` associates with an access point. Two threads
share its variables: the one that calls `initialize()`, `connect()` and `send()`, and the network
manager's, which runs `on_wifi_event()` whenever an event comes. So each call is a program, and the
events come between any two of its steps. A wait for a semaphore is made at the moment it ends: it
has been given, or its time is up.

Beside the code's variables the state keeps what the events say of the interface: whether it is
disassociated, that is, whether a disconnection was reported and no successful connection since.
-/

namespace Concentrator

/-- The symbols the Wi-Fi backend reads. Reference: `config.hpp:116-152`. -/
structure WifiConfig where
  ssid : List UInt8
  useDhcp : Bool
  maxFragment : UInt8

/-- The longest SSID. Reference: `WIFI_SSID_MAX_LEN` of the Wi-Fi management API. -/
def WIFI_SSID_MAX_LEN : Nat := 32

namespace WifiLink

/-- An access point that a scan found. -/
structure ScanResult where
  ssid : List UInt8
  band : UInt8
  channel : UInt8
  rssi : Int8
  deriving DecidableEq

/-- The events the handler is registered for, with what they carry, if anything. -/
inductive WifiEvent where
  | scanResult (result : Option ScanResult)
  | scanDone
  | connectResult (status : Option Int)
  | disconnectResult (status : Option Int)

/-- The variables that the two threads share. Reference: `hal/link/wifi/link_wifi.cpp:51-127`. -/
structure Statics where
  /-- `s_associate_done`, which saturates at one. -/
  associateDone : Bool
  /-- `s_scan_done`, which saturates at one. -/
  scanDone : Bool
  associated : Bool
  associating : Bool
  lastStatus : Int
  scanResults : UInt16
  scanFoundTarget : Bool
  targetBand : UInt8
  targetChannel : UInt8
  targetRssi : Int8
  eventsRegistered : Bool
  deriving DecidableEq

/-- Record what an event says. Reference: `hal/link/wifi/link_wifi.cpp:137 on_wifi_event`. -/
def onWifiEvent (ssid : List UInt8) : WifiEvent → Statics → Statics
  | .scanResult none, s => s
  | .scanResult (some result), s =>
    let s :=
      if result.ssid = ssid then
        { s with
          scanFoundTarget := true
          targetBand := result.band
          targetChannel := result.channel
          targetRssi := result.rssi }
      else s
    if s.scanResults < 65535 then { s with scanResults := s.scanResults + 1 } else s
  | .scanDone, s => { s with scanDone := true }
  | .connectResult status, s =>
    let s := { s with lastStatus := status.getD 0, associated := status == some 0 }
    if s.associating then { s with associateDone := true } else s
  | .disconnectResult status, s =>
    let s := { s with lastStatus := status.getD 0, associated := false }
    -- While an attempt waits, this is its answer; later it is reported, and not acted on.
    if s.associating then { s with associateDone := true } else s

/-- Whether the interface is disassociated after an event. -/
def WifiEvent.disassociates : WifiEvent → Bool → Bool
  | .disconnectResult _, _ => true
  | .connectResult status, before => if status = some 0 then false else before
  | _, before => before

/-! ## The calls -/

/-- What the programs do step by step. -/
inductive Op where
  | netIfGetFirstWifi
  | statics
  | modify (f : Statics → Statics)
  | addEventCallback
  /-- `net_mgmt(NET_REQUEST_WIFI_CONNECT)` -/
  | requestConnect
  /-- `s_associate_done.take(ASSOCIATE_WAIT_MS)` -/
  | takeAssociateDone
  /-- `net_mgmt(NET_REQUEST_WIFI_SCAN)` -/
  | requestScan
  /-- `s_scan_done.take(SCAN_WAIT_MS)` -/
  | takeScanDone
  | netDhcpv4Start
  | netIfIpv4GetGlobalAddr
  | applyStaticIpv4
  | isConnected
  | setConnected (connected : Bool)
  | closeSocket
  | netAddrPton
  | zsockSocket
  | zsockConnect
  /-- `zsock_send()` of what is left. -/
  | zsockSend (rest : List UInt8)
  /-- The call returns to its caller. -/
  | returned (result : LinkError)

/-- The answer to each step. -/
@[reducible] def Op.Res : Op → Type
  | .netIfGetFirstWifi | .takeAssociateDone | .takeScanDone | .netIfIpv4GetGlobalAddr
  | .applyStaticIpv4 | .isConnected => Bool
  | .statics => Statics
  | .requestConnect | .requestScan | .netAddrPton | .zsockSocket | .zsockConnect
  | .zsockSend _ => Int
  | .modify _ | .addEventCallback | .netDhcpv4Start | .setConnected _ | .closeSocket
  | .returned _ => Unit

/-- The steps, as a signature. -/
abbrev WifiSig : Sig := ⟨Op, Op.Res⟩

/-- A program of the calling thread. -/
abbrev WifiProg (α : Type) : Type := Prog WifiSig α

/-- Make one step. -/
abbrev op (o : Op) : WifiProg o.Res := Prog.op (S := WifiSig) o

/-- What a scan tells about the access point, for the log. -/
inductive Visible where
  | notStarted
  | unfinished
  | nothing
  | onAir (band channel : UInt8) (rssi : Int8) (results : UInt16)
  | notAmong (results : UInt16)

/-- List what the radio can see. Reference: `hal/link/wifi/link_wifi.cpp:300
report_visible_networks`. -/
def reportVisibleNetworks : WifiProg Visible := do
  op (.modify fun s => { s with scanResults := 0 })
  op (.modify fun s => { s with scanFoundTarget := false })
  op (.modify fun s => { s with scanDone := false })
  let result ← op .requestScan
  if result ≠ 0 then pure .notStarted
  else do
    let finished ← op .takeScanDone
    if !finished then pure .unfinished
    else do
      let s ← op .statics
      if s.scanResults = 0 then pure .nothing
      else do
        let s ← op .statics
        if s.scanFoundTarget then
          pure (.onAir s.targetBand s.targetChannel s.targetRssi s.scanResults)
        else pure (.notAmong s.scanResults)

/-- Associate with the access point, once. Reference: `hal/link/wifi/link_wifi.cpp:360
associate`. -/
def associate (ssid : List UInt8) : WifiProg LinkError :=
  if ssid.length = 0 ∨ ssid.length > WIFI_SSID_MAX_LEN then pure .configError
  else do
    op (.modify fun s => { s with associated := false })
    op (.modify fun s => { s with lastStatus := 0 })
    op (.modify fun s => { s with associateDone := false })
    op (.modify fun s => { s with associating := true })
    let result ← op .requestConnect
    -- The attempt is over, and `s_associating` stays set.
    if result ≠ 0 then pure .configError
    else do
      let answered ← op .takeAssociateDone
      op (.modify fun s => { s with associating := false })
      if !answered then pure .connectError
      else do
        let s ← op .statics
        if !s.associated then do
          let _ ← reportVisibleNetworks
          pure .connectError
        else pure .noError

/-- Poll for an address, as often as the wait lasts. Reference: `hal/link/socket/socket_link.cpp:213
wait_for_ipv4_address`. -/
def waitForIpv4Address : (polls : Nat) → WifiProg Bool
  | 0 => pure false
  | polls + 1 => do
    let found ← op .netIfIpv4GetGlobalAddr
    if found then pure true else waitForIpv4Address polls

/-- Get an address for the interface. Reference: `hal/link/wifi/link_wifi.cpp:269-287`. -/
def obtainAddress (useDhcp : Bool) : WifiProg LinkError :=
  if useDhcp then do
    op .netDhcpv4Start
    let found ← waitForIpv4Address ((ADDRESS_WAIT_MS + ADDRESS_POLL_MS - 1) / ADDRESS_POLL_MS)
    pure (if found then .noError else .configError)
  else do
    let accepted ← op .applyStaticIpv4
    pure (if accepted then .noError else .configError)

/-- Register the event handler, once. Reference: `hal/link/wifi/link_wifi.cpp:246-260`. -/
def registerEvents : WifiProg Unit := do
  let s ← op .statics
  if s.eventsRegistered then pure ()
  else do
    op (.modify fun s => { s with associateDone := false })
    op (.modify fun s => { s with scanDone := false })
    op .addEventCallback
    op (.modify fun s => { s with eventsRegistered := true })

/-- Bring the interface up. Reference: `hal/link/wifi/link_wifi.cpp:236 bring_up_network`. -/
def bringUpNetwork (cfg : WifiConfig) : WifiProg LinkError := do
  let found ← op .netIfGetFirstWifi
  if !found then pure .notReady
  else do
    registerEvents
    let associated ← associate cfg.ssid
    if associated ≠ .noError then pure associated else obtainAddress cfg.useDhcp

/-- Connect to the server, unless connected. Reference: `hal/link/socket/socket_link.cpp:51
connect`. -/
def connect : WifiProg LinkError := do
  let connected ← op .isConnected
  if connected then pure .noError
  else do
    op .closeSocket
    let parsed ← op .netAddrPton
    if parsed ≠ 0 then pure .configError
    else do
      let socket ← op .zsockSocket
      if socket < 0 then pure .notReady
      else do
        let result ← op .zsockConnect
        if result < 0 then do
          op .closeSocket
          pure .connectError
        else do
          op (.setConnected true)
          pure .noError

/-- The send loop, with `rest` still to send; each round takes a byte or ends it. Reference:
`hal/link/socket/socket_link.cpp:126-144`. -/
def sendLoop : (fuel : Nat) → (rest : List UInt8) → WifiProg LinkError
  | 0, _ => pure .noError
  | fuel + 1, rest =>
    if rest = [] then pure .noError
    else do
      let result ← op (.zsockSend rest)
      if result ≤ 0 then do
        op .closeSocket
        op (.setConnected false)
        pure .sendError
      else sendLoop fuel (rest.drop result.toNat)

/-- Largest fragment a connected link wants. Reference: `hal/link/socket/socket_link.cpp:154
get_max_payload_size`. -/
def getMaxPayloadSize (maxFragment : UInt8) : WifiProg UInt8 := do
  let connected ← op .isConnected
  pure (if connected then maxFragment else 0)

/-- Send the bytes on the connection. Reference: `hal/link/socket/socket_link.cpp:109 send`. -/
def send (maxFragment : UInt8) (data : List UInt8) : WifiProg LinkError := do
  let connected ← op .isConnected
  if !connected then pure .connectError
  else do
    let limit ← getMaxPayloadSize maxFragment
    if data.length > limit.toNat then pure .payloadTooLarge else sendLoop data.length data

/-- A call of the interface. Reference: `hal/link/link.hpp:96 ILink`. -/
inductive Request where
  | initializeLink
  | connect
  | send (data : List UInt8)
  deriving DecidableEq

/-- What a call does. Reference: `hal/link/socket/socket_link.cpp:35 initialize`, `:51 connect`,
`:109 send`. -/
def Request.prog (cfg : WifiConfig) : Request → WifiProg LinkError
  | .initializeLink => bringUpNetwork cfg
  | .connect => WifiLink.connect
  | .send data => WifiLink.send cfg.maxFragment data

/-- A call from its beginning to its return. -/
def Request.body (cfg : WifiConfig) (r : Request) : WifiProg Unit :=
  r.prog cfg >>= fun result => op (.returned result)

/-! ## The two threads -/

/-- What the network stack answers in one step. -/
structure Answer where
  hasInterface : Bool
  connectRequest : Int
  scanRequest : Int
  hasAddress : Bool
  staticAccepted : Bool
  netAddrPton : Int
  zsockSocket : Int
  zsockConnect : Int
  zsockSend : Int

/-- Everything the threads share. -/
structure State where
  statics : Statics
  /-- The handler is registered with the network manager. -/
  subscribed : Bool
  /-- `m_socket`, `m_is_connected` and what was written on each connection. -/
  link : SocketState
  /-- The call that is to be made next. -/
  pending : Option Request
  /-- A disconnection was reported, and no successful connection since. -/
  disassociated : Bool

/-- What a step does to the socket. -/
def Op.onSocket (ans : Answer) : Op → SocketState → SocketState
  | .setConnected connected, link => { link with isConnected := connected }
  | .closeSocket, link => SocketLink.closeSocket link
  | .zsockSocket, link => { link with socket := ans.zsockSocket }
  | .zsockConnect, link =>
    if ans.zsockConnect < 0 then link else { link with streams := [] :: link.streams }
  | .zsockSend rest, link =>
    if ans.zsockSend ≤ 0 then link else SocketLink.write (rest.take ans.zsockSend.toNat) link
  | _, link => link

/-- What a step does. -/
def perform (o : Op) (ans : Answer) (s : State) : o.Res × State :=
  let s' := { s with link := o.onSocket ans s.link }
  match o with
  | .netIfGetFirstWifi => (ans.hasInterface, s')
  | .statics => (s.statics, s')
  | .modify f => ((), { s' with statics := f s.statics })
  | .addEventCallback => ((), { s' with subscribed := true })
  | .requestConnect => (ans.connectRequest, s')
  | .takeAssociateDone =>
    (s.statics.associateDone, { s' with statics := { s.statics with associateDone := false } })
  | .requestScan => (ans.scanRequest, s')
  | .takeScanDone =>
    (s.statics.scanDone, { s' with statics := { s.statics with scanDone := false } })
  | .netDhcpv4Start => ((), s')
  | .netIfIpv4GetGlobalAddr => (ans.hasAddress, s')
  | .applyStaticIpv4 => (ans.staticAccepted, s')
  | .isConnected => (s.link.isConnected, s')
  | .setConnected _ => ((), s')
  | .closeSocket => ((), s')
  | .netAddrPton => (ans.netAddrPton, s')
  | .zsockSocket => (ans.zsockSocket, s')
  | .zsockConnect => (ans.zsockConnect, s')
  | .zsockSend _ => (ans.zsockSend, s')
  | .returned _ => ((), s')

/-- What comes from outside: a call is to be made, or an event. -/
inductive Act where
  | request (r : Request)
  | event (e : WifiEvent)

/-- One act. -/
def Act.run (cfg : WifiConfig) : Act → State → State
  | .request r, s => { s with pending := some r }
  | .event e, s =>
    { s with
      statics := if s.subscribed then onWifiEvent cfg.ssid e s.statics else s.statics
      disassociated := e.disassociates s.disassociated }

/-- The calling thread among the events. -/
abbrev wifi (cfg : WifiConfig) : Threaded WifiSig where
  State := State
  Answer := Answer
  Act := Act
  perform := perform
  other := Act.run cfg
  start s := s.pending.map fun r => (r.body cfg, { s with pending := none })
  finish s := s

/-- Before the first call. Reference: `hal/link/wifi/link_wifi.cpp:51-127`,
`hal/link/socket/socket_link.cpp:31 SocketLink`. -/
def constructed (cfg : WifiConfig) : (wifi cfg).Conf where
  state :=
    { statics := ⟨false, false, false, false, 0, 0, false, 0, 0, 0, false⟩
      subscribed := false
      link := (socketLink cfg.maxFragment).constructed
      pending := none
      disassociated := false }
  running := none

/-! ## A bring-up without events -/

section
variable (answer : ∀ o : WifiSig.Op, WifiSig.Res o)

/-- What a stack that answers each step in one way makes of a bring-up. -/
def bringUpOf (cfg : WifiConfig) : BringUp where
  deviceIsReady := true
  lorawanStart := 0
  hasInterface := answer .netIfGetFirstWifi
  ssidValid := !decide (cfg.ssid.length = 0 ∨ cfg.ssid.length > WIFI_SSID_MAX_LEN)
  connectRequest := answer .requestConnect
  answered := answer .takeAssociateDone
  associated := (answer .statics).associated
  hasAddress _ := answer .netIfIpv4GetGlobalAddr
  staticAccepted := answer .applyStaticIpv4

theorem eval_associate (cfg : WifiConfig) :
    (associate cfg.ssid).eval answer = Concentrator.associate (bringUpOf answer cfg) := by
  unfold associate Concentrator.associate bringUpOf
  simp only [Prog.eval_ite, Prog.eval_then, Prog.eval_pure, Bool.not_not, decide_eq_true_eq]
  rfl

/-- The induction is on the polls. -/
theorem eval_waitForIpv4Address (polls : Nat) : (waitForIpv4Address polls).eval answer =
    (List.range polls).any fun _ => answer .netIfIpv4GetGlobalAddr := by
  induction polls with
  | zero => rfl
  | succ polls ih =>
    show Prog.eval answer (if answer .netIfIpv4GetGlobalAddr then _ else _) = _
    rw [Prog.eval_ite, ih, List.range_succ, List.any_append]
    cases answer .netIfIpv4GetGlobalAddr <;> simp

theorem eval_obtainAddress (cfg : WifiConfig) : (obtainAddress cfg.useDhcp).eval answer =
    Concentrator.obtainAddress cfg.useDhcp (bringUpOf answer cfg) := by
  have hanswer (b : Bool) : (if b then LinkError.noError else .configError) =
      if !b then .configError else .noError := by cases b <;> rfl
  unfold obtainAddress Concentrator.obtainAddress
  rw [Prog.eval_ite]
  split
  · rw [Prog.eval_then, Prog.eval_then, eval_waitForIpv4Address]
    exact hanswer _
  · exact hanswer _

/-- A bring-up that no event comes between is that of the backend. -/
theorem eval_bringUpNetwork (cfg : WifiConfig) : (bringUpNetwork cfg).eval answer =
    Backend.bringUpNetwork cfg.useDhcp true (bringUpOf answer cfg) := by
  unfold bringUpNetwork Backend.bringUpNetwork
  simp only [Prog.eval_ite, Prog.eval_then, eval_associate, eval_obtainAddress]
  rfl

end

end WifiLink

end Concentrator
