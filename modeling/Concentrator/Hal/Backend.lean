import Concentrator.Hal.SocketLink
import Concentrator.Hal.LoraLink
import Mathlib.Tactic.Common

/-!
# The backends and their initialisation

A build has one of three backends. The two socket backends bring a network interface up inside
`initialize()`: the wired one waits for a DHCP lease where it is configured to, and the Wi-Fi one
associates with an access point first. `initializeLink_noError` separates what initialisation asks
of the device (`DeviceUp`) from what it asks of the network (`NetworkUp`).
-/

namespace Concentrator

/-- The backend of a build, with the symbols its calls read. Reference: `Kconfig:16
APP_LINK_BACKEND`. -/
inductive Backend where
  | lora (maxUplinksPerDispatch : UInt8)
  | tcp (useDhcp : Bool) (maxFragment : UInt8)
  | wifi (useDhcp : Bool) (maxFragment : UInt8)

/-- What the device and the network answer during the link's `initialize()`. -/
structure BringUp where
  /-- `device_is_ready()` of the radio. -/
  deviceIsReady : Bool
  lorawanStart : Int
  /-- There is an interface of the kind asked for. -/
  hasInterface : Bool
  /-- The configured SSID has a valid length. -/
  ssidValid : Bool
  /-- `net_mgmt()` of the connect request. -/
  connectRequest : Int
  /-- The association's result came within `ASSOCIATE_WAIT_MS`. -/
  answered : Bool
  /-- The result was a success. -/
  associated : Bool
  /-- The interface has an address, at each poll in turn. -/
  hasAddress : Nat → Bool
  /-- The configured static address is accepted. -/
  staticAccepted : Bool

/-- The wait for a DHCP lease, in milliseconds. Reference: `hal/link/tcp/link_tcp.cpp:39
ADDRESS_WAIT_MS`, `hal/link/wifi/link_wifi.cpp:45 ADDRESS_WAIT_MS`. -/
def ADDRESS_WAIT_MS : Nat := 15 * 1000

/-- The polling step of that wait.
Reference: `hal/link/socket/socket_link.cpp:27 ADDRESS_POLL_MS`. -/
def ADDRESS_POLL_MS : Nat := 250

/-- Wait for an address: a poll every step, as long as the time waited is below the timeout.
Reference: `hal/link/socket/socket_link.cpp:213 wait_for_ipv4_address`. -/
def waitForIpv4Address (hasAddress : Nat → Bool) (timeoutMs : Nat) : Bool :=
  (List.range ((timeoutMs + ADDRESS_POLL_MS - 1) / ADDRESS_POLL_MS)).any hasAddress

/-- Associate with the access point, once.
Reference: `hal/link/wifi/link_wifi.cpp:360 associate`. -/
def associate (up : BringUp) : LinkError :=
  if !up.ssidValid then .configError
  else if up.connectRequest ≠ 0 then .configError
  else if !up.answered then .connectError
  else if !up.associated then .connectError
  else .noError

/-- Get an address for the interface. Reference: `hal/link/tcp/link_tcp.cpp:65-83`,
`hal/link/wifi/link_wifi.cpp:269-287`. -/
def obtainAddress (useDhcp : Bool) (up : BringUp) : LinkError :=
  if useDhcp then
    if !waitForIpv4Address up.hasAddress ADDRESS_WAIT_MS then .configError else .noError
  else if !up.staticAccepted then .configError else .noError

namespace Backend

/-- Bring the interface up. Reference: `hal/link/tcp/link_tcp.cpp:55 bring_up_network`,
`hal/link/wifi/link_wifi.cpp:236 bring_up_network`. -/
def bringUpNetwork (useDhcp isWifi : Bool) (up : BringUp) : LinkError :=
  if !up.hasInterface then .notReady
  else
    let associated := if isWifi then associate up else .noError
    if associated ≠ .noError then associated else obtainAddress useDhcp up

/-- Initialise the transport. Reference: `hal/link/lora/link_lora.cpp:200 initialize`,
`hal/link/socket/socket_link.cpp:35 initialize`. -/
def initializeLink : Backend → BringUp → LinkError
  | .lora _, up =>
    if !up.deviceIsReady then .notReady
    else if up.lorawanStart ≠ 0 then .configError
    else .noError
  | .tcp useDhcp _, up => bringUpNetwork useDhcp false up
  | .wifi useDhcp _, up => bringUpNetwork useDhcp true up

/-- The transport of a backend. -/
def transport : Backend → Transport
  | .lora maxUplinksPerDispatch => loraLink maxUplinksPerDispatch
  | .tcp _ maxFragment | .wifi _ maxFragment => socketLink maxFragment

/-- The allowance is in the range of Kconfig. Reference: `Kconfig:136
APP_LINK_LORA_MAX_UPLINKS_PER_DISPATCH`. -/
def Configured : Backend → Prop
  | .lora maxUplinksPerDispatch =>
    1 ≤ maxUplinksPerDispatch.toNat ∧ maxUplinksPerDispatch.toNat ≤ 8
  | .tcp .. | .wifi .. => True

/-- Every backend allows a transmission a cycle at least, as the interface promises: "never less
than 1". Reference: `hal/link/link.hpp:185`. -/
theorem Configured.allowance {b : Backend} (h : b.Configured) :
    b.transport.getMaxUplinksPerDispatch ≠ 0 := by
  cases b with
  | lora maxUplinksPerDispatch =>
    rintro hzero
    have hrange : 1 ≤ maxUplinksPerDispatch.toNat := h.1
    rw [show maxUplinksPerDispatch = 0 from hzero] at hrange
    exact absurd hrange (by decide)
  | tcp | wifi => exact (by decide : (255 : UInt8) ≠ 0)

/-- The device is there and takes its configuration. -/
def DeviceUp : Backend → BringUp → Prop
  | .lora _, up => up.deviceIsReady = true ∧ up.lorawanStart = 0
  | .tcp useDhcp _, up => up.hasInterface = true ∧ (useDhcp = false → up.staticAccepted = true)
  | .wifi useDhcp _, up =>
    up.hasInterface = true ∧ up.ssidValid = true ∧ up.connectRequest = 0 ∧
      (useDhcp = false → up.staticAccepted = true)

/-- The network gives what the backend waits for during initialisation: nothing for LoRaWAN, a lease
where DHCP is used, and before it, for Wi-Fi, an association. -/
def NetworkUp : Backend → BringUp → Prop
  | .lora _, _ => True
  | .tcp useDhcp _, up =>
    useDhcp = true → waitForIpv4Address up.hasAddress ADDRESS_WAIT_MS = true
  | .wifi useDhcp _, up =>
    (up.answered = true ∧ up.associated = true) ∧
      (useDhcp = true → waitForIpv4Address up.hasAddress ADDRESS_WAIT_MS = true)

/-- With the device up, initialisation succeeds exactly when the network gives what it waits for. -/
theorem initializeLink_noError {b : Backend} {up : BringUp} (hdevice : b.DeviceUp up) :
    b.initializeLink up = .noError ↔ b.NetworkUp up := by
  cases b with
  | lora _ => simp [initializeLink, NetworkUp, hdevice.1, hdevice.2]
  | tcp useDhcp _ =>
    cases useDhcp <;>
      simp_all [initializeLink, NetworkUp, DeviceUp, bringUpNetwork, obtainAddress]
  | wifi useDhcp _ =>
    obtain ⟨hinterface, hssid, hrequest, hstatic⟩ := hdevice
    cases useDhcp <;> cases hanswered : up.answered <;> cases hassociated : up.associated <;>
      simp_all [initializeLink, NetworkUp, bringUpNetwork, associate, obtainAddress]

end Backend

end Concentrator
