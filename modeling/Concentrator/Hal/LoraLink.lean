import Concentrator.Hal.Link

/-!
# The LoRaWAN transport

What the LoRaWAN stack answers during a call is the `LoraAnswer` of the call. Whether the
configured identifiers parse is part of it: `connect()` reads them each time.
-/

namespace Concentrator

/-- What the LoRaWAN stack and the device answer during one call. -/
structure LoraAnswer where
  joinEuiParses : Bool
  appKeyParses : Bool
  devEuiResolves : Bool
  setChannelsMask : Int
  join : Int
  deviceIsReady : Bool
  /-- `lorawan_get_payload_sizes()`: what the next packet carries, and the rate's ceiling. -/
  nextSize : UInt8
  rateCeiling : UInt8
  send : Int

namespace LoraLink

/-- The floor under a network that reports nothing. Reference: `hal/link/lora/link_lora.cpp:50
CONSERVATIVE_MAX_PAYLOAD`. -/
def CONSERVATIVE_MAX_PAYLOAD : UInt8 := 11

/-- Join the network, once; the state is whether the link is joined. Reference:
`hal/link/lora/link_lora.cpp:221 connect`. -/
def connect (ans : LoraAnswer) (_ : Bool) : LinkError × Bool :=
  if !ans.joinEuiParses then (.configError, false)
  else if !ans.appKeyParses then (.configError, false)
  else if !ans.devEuiResolves then (.configError, false)
  else if ans.setChannelsMask ≠ 0 then (.configError, false)
  else if ans.join ≠ 0 then (.connectError, false)
  else (.noError, true)

/-- What the next packet carries. Reference: `hal/link/lora/link_lora.cpp:409
get_available_payload_size`. -/
def getAvailablePayloadSize (ans : LoraAnswer) (isJoined : Bool) : UInt8 :=
  if !isJoined then 0 else ans.nextSize

/-- What the data rate allows. Reference: `hal/link/lora/link_lora.cpp:387 get_max_payload_size`. -/
def getMaxPayloadSize (ans : LoraAnswer) (isJoined : Bool) : UInt8 :=
  if !isJoined then 0 else if ans.rateCeiling > 0 then ans.rateCeiling else CONSERVATIVE_MAX_PAYLOAD

/-- Send one packet. Reference: `hal/link/lora/link_lora.cpp:339 send`. -/
def send (data : List UInt8) (ans : LoraAnswer) (isJoined : Bool) : LinkError × Bool :=
  if !ans.deviceIsReady then (.notReady, isJoined)
  else if !isJoined then (.connectError, isJoined)
  else if data.length > (getAvailablePayloadSize ans isJoined).toNat then
    (.payloadTooLarge, isJoined)
  else if ans.send ≠ 0 then (.sendError, isJoined)
  else (.noError, isJoined)

end LoraLink

/-- The LoRaWAN link as a transport. Reference: `hal/link/lora/link_lora.cpp:194 LoraLink`, `:427
get_max_uplinks_per_dispatch`. -/
def loraLink (maxUplinksPerDispatch : UInt8) : Transport where
  State := Bool
  Answer := LoraAnswer
  constructed := false
  connect := LoraLink.connect
  isConnected isJoined := isJoined
  send := LoraLink.send
  getMaxPayloadSize := LoraLink.getMaxPayloadSize
  getAvailablePayloadSize := LoraLink.getAvailablePayloadSize
  getMaxUplinksPerDispatch := maxUplinksPerDispatch

end Concentrator
