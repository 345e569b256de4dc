import Concentrator.Hal.Backend
import Concentrator.Hal.ParseHex
import Concentrator.Lib.Monitor

/-!
# The LoRaWAN transport, call by call

`link_lora.cpp` as programs over the calls it makes to Zephyr's LoRaWAN stack, to the radio's driver
and to `hwinfo`. `session_obeys` is the order these calls keep through any calls of the transport,
whatever the stack answers; `session_answers` says that what the callers see of it is the transport
`loraLink`.
-/

namespace Concentrator.Lorawan

open LoraLink

variable {κ : Type}

/-! ## The stack -/

/-- Words of a channel mask; the region's own number. Reference: `hal/link/lora/link_lora.cpp:248
LORAWAN_CHANNELS_MASK_SIZE_US915`. -/
abbrev ChannelMask : Type := Vector UInt16 6

/-- What a join presents: over the air, with the stored nonce. Reference:
`hal/link/lora/link_lora.cpp:292`. -/
structure JoinConfig where
  devEui : List UInt8
  joinEui : List UInt8
  appKey : List UInt8
  nwkKey : List UInt8
  devNonce : UInt16
  deriving DecidableEq

/-- The calls of the transport to what is below it. -/
inductive Op where
  | deviceIsReady
  | start
  | setChannelsMask (mask : ChannelMask)
  | setClassA
  | enableAdr (enable : Bool)
  | setDatarate (datarate : UInt8)
  | join (config : JoinConfig)
  /-- `lorawan_get_payload_sizes()`: what the next packet carries, and the rate's ceiling. -/
  | getPayloadSizes
  /-- `lorawan_send()`, unconfirmed, from a buffer. -/
  | send (port : UInt8) (data : List UInt8) (length : UInt8)
  /-- `hwinfo_get_device_id()`, which answers how many bytes it wrote, and them. -/
  | getDeviceId
  | registerDownlinkCallback

/-- The answer to each call. -/
@[reducible] def Op.Res : Op → Type
  | .deviceIsReady => Bool
  | .start | .setChannelsMask _ | .setClassA | .setDatarate _ | .join _ | .send .. => Int
  | .enableAdr _ | .registerDownlinkCallback => Unit
  | .getPayloadSizes => UInt8 × UInt8
  | .getDeviceId => Int × List UInt8

/-- The calls, as a signature. -/
abbrev Calls : Sig := ⟨Op, Op.Res⟩

/-- Make one call. -/
abbrev call (o : Op) : Prog Calls o.Res := Prog.op (S := Calls) o

/-! ## The transport -/

/-- The values from Kconfig, in its ranges. Reference: `config.hpp:154-188`. -/
structure Config where
  joinEui : CString 32
  appKey : CString 32
  /-- `none` where the DevEUI is derived from the SoC. -/
  devEui : Option (CString 32)
  subband : UInt8
  initialDatarate : UInt8
  maxUplinksPerDispatch : UInt8
  subband_range : 1 ≤ subband.toNat ∧ subband.toNat ≤ 8

/-- The members of the link, and the registered callback. Reference:
`hal/link/lora/link_lora.cpp:144 s_downlink_callback`, `:465 m_is_joined`. -/
structure Lora (κ : Type) where
  isJoined : Bool
  isDownlinkRegistered : Bool
  downlinkCallback : Option κ

/-- Reference: `hal/link/lora/link_lora.cpp:197 LoraLink`. -/
def Lora.constructed : Lora κ := ⟨false, false, none⟩

/-- Write a word; `none` is a write out of bounds. -/
def write (mask : ChannelMask) (i : Nat) (word : UInt16) : Option ChannelMask :=
  if h : i < 6 then some (mask.set i word h) else none

/-- The mask of one sub-band. Reference: `hal/link/lora/link_lora.cpp:122
build_us915_channel_mask`. -/
def buildUs915ChannelMask (subband : UInt8) : Option ChannelMask := do
  let index := subband - 1
  let mask ← write (.replicate 6 0) (index / 2).toNat
    ((0x00FF : UInt32) <<< ((index % 2) * 8).toUInt32).toUInt16
  write mask 4 ((1 : UInt32) <<< index.toUInt32).toUInt16

/-- The bytes of a text, if it is accepted. Reference: `hal/link/lora/link_lora.cpp:68
parse_hex`. -/
def parsed (hex : CString 32) (length : BitVec 32) : Option (List UInt8) :=
  match parseHex (some hex) (fun _ => 0) length with
  | some (true, out) => some ((List.range length.toNat).map out)
  | _ => none

/-- Reference: `hal/link/lora/link_lora.cpp:200 initialize`. -/
def initializeLink (lora : Lora κ) : Prog Calls (LinkError × Lora κ) := do
  let ready ← call .deviceIsReady
  if !ready then return (.notReady, lora)
  let result ← call .start
  if result ≠ 0 then return (.configError, lora)
  return (.noError, lora)

/-- Reference: `hal/link/lora/link_lora.cpp:437 resolve_dev_eui`. -/
def resolveDevEui (cfg : Config) : Prog Calls (Option (List UInt8)) :=
  match cfg.devEui with
  | none => do
    let (length, id) ← call .getDeviceId
    if length ≠ 8 then return none
    return some id
  | some hex => return parsed hex EUI_SIZE

/-- The calls of a join, from the mask on. Reference: `hal/link/lora/link_lora.cpp:245-335`. -/
def joinWith (devEui joinEui appKey : List UInt8) (mask : ChannelMask) (datarate : UInt8)
    (lora : Lora κ) : Prog Calls (LinkError × Lora κ) := do
  let masked ← call (.setChannelsMask mask)
  if masked ≠ 0 then return (.configError, lora)
  let _ ← call .setClassA
  call (.enableAdr false)
  let _ ← call (.setDatarate datarate)
  call (.enableAdr true)
  let result ← call (.join ⟨devEui, joinEui, appKey, appKey, 0⟩)
  if result ≠ 0 then return (.connectError, lora)
  return (.noError, { lora with isJoined := true })

/-- Join the network, once. Reference: `hal/link/lora/link_lora.cpp:221 connect`. -/
def connect (cfg : Config) (lora : Lora κ) : Prog Calls (LinkError × Lora κ) :=
  let lora := { lora with isJoined := false }
  match parsed cfg.joinEui EUI_SIZE with
  | none => return (.configError, lora)
  | some joinEui =>
    match parsed cfg.appKey KEY_SIZE with
    | none => return (.configError, lora)
    | some appKey => do
      match ← resolveDevEui cfg with
      | none => return (.configError, lora)
      | some devEui =>
        match buildUs915ChannelMask cfg.subband with
        -- Not for a sub-band that Kconfig allows.
        | none => return (.configError, lora)
        | some mask => joinWith devEui joinEui appKey mask cfg.initialDatarate lora

/-- Reference: `hal/link/lora/link_lora.cpp:387 get_max_payload_size`. -/
def getMaxPayloadSize (lora : Lora κ) : Prog Calls UInt8 := do
  if !lora.isJoined then return 0
  let (_, rateCeiling) ← call .getPayloadSizes
  return if rateCeiling > 0 then rateCeiling else CONSERVATIVE_MAX_PAYLOAD

/-- Reference: `hal/link/lora/link_lora.cpp:409 get_available_payload_size`. -/
def getAvailablePayloadSize (lora : Lora κ) : Prog Calls UInt8 := do
  if !lora.isJoined then return 0
  let (nextSize, _) ← call .getPayloadSizes
  return nextSize

/-- Reference: `hal/link/lora/link_lora.cpp:339 send`. -/
def send (data : List UInt8) (lora : Lora κ) : Prog Calls (LinkError × Lora κ) := do
  let ready ← call .deviceIsReady
  if !ready then return (.notReady, lora)
  if !lora.isJoined then return (.connectError, lora)
  let available ← getAvailablePayloadSize lora
  if data.length > available.toNat then
    -- The stack is asked once more, for the line in the log.
    let _ ← getAvailablePayloadSize lora
    return (.payloadTooLarge, lora)
  let result ← call (.send 1 data (UInt8.ofNat data.length))
  if result ≠ 0 then return (.sendError, lora)
  return (.noError, lora)

/-- Reference: `hal/link/lora/link_lora.cpp:376 register_downlink_callback`. -/
def registerDownlinkCallback (callback : κ) (lora : Lora κ) : Prog Calls (Lora κ) := do
  let lora := { lora with downlinkCallback := some callback }
  if !lora.isDownlinkRegistered then
    call .registerDownlinkCallback
    return { lora with isDownlinkRegistered := true }
  return lora

/-! ## The channel mask -/

/-- A mask enables a channel, a bit each. -/
def enabled (mask : ChannelMask) (channel : Nat) : Bool :=
  (mask.toList.getD (channel / 16) 0).toNat.testBit (channel % 16)

/-- The channels of a sub-band: eight of 125 kHz and one of 500 kHz. -/
def InSubband (subband channel : Nat) : Prop :=
  channel / 8 + 1 = subband ∨ channel = 63 + subband

instance (subband channel : Nat) : Decidable (InSubband subband channel) :=
  inferInstanceAs (Decidable (_ ∨ _))

theorem enabled_build (n : Fin 8) (channel : Fin 96) :
    (buildUs915ChannelMask (UInt8.ofNat (n + 1))).map (enabled · channel) =
      some (decide (InSubband (n + 1) channel)) := by
  revert n channel
  decide

/-- The mask of a sub-band that Kconfig allows: no write is out of bounds, and the channels of the
sub-band are enabled, and no others. -/
theorem buildUs915ChannelMask_spec (cfg : Config) :
    ∃ mask, buildUs915ChannelMask cfg.subband = some mask ∧
      ∀ channel, enabled mask channel = true ↔ InSubband cfg.subband.toNat channel := by
  obtain ⟨hlo, hhi⟩ := cfg.subband_range
  have hsubband : cfg.subband = UInt8.ofNat (cfg.subband.toNat - 1 + 1) := by
    rw [Nat.sub_add_cancel hlo, UInt8.ofNat_toNat]
  have hbits := enabled_build ⟨cfg.subband.toNat - 1, by omega⟩
  rw [← hsubband, Nat.sub_add_cancel hlo] at hbits
  cases hmask : buildUs915ChannelMask cfg.subband with
  | none =>
    rw [hmask] at hbits
    cases hbits 0
  | some mask =>
    refine ⟨mask, rfl, fun channel => ?_⟩
    by_cases hchannel : channel < 96
    · have hbit := hbits ⟨channel, hchannel⟩
      rw [hmask] at hbit
      change some (enabled mask channel) = _ at hbit
      rw [Option.some.inj hbit, decide_eq_true_iff]
    · have hword : mask.toList.getD (channel / 16) 0 = 0 := by
        rw [List.getD_eq_getElem?_getD, List.getElem?_eq_none, Option.getD_none]
        rw [Vector.length_toList]
        omega
      unfold enabled InSubband
      rw [hword]
      simp only [UInt16.toNat_zero, Nat.zero_testBit, Bool.false_eq_true, false_iff]
      omega

/-! ## The order of the calls -/

/-- A call of the interface. Reference: `hal/link/link.hpp:96 ILink`. -/
inductive Request (κ : Type) where
  | initializeLink
  | connect
  | isConnected
  | send (data : List UInt8)
  | registerDownlinkCallback (callback : κ)
  | getMaxPayloadSize
  | getAvailablePayloadSize
  | getMaxUplinksPerDispatch

/-- What a call returns. -/
inductive Result where
  | error (e : LinkError)
  | connected (isConnected : Bool)
  | bytes (size : UInt8)
  | registered
  deriving DecidableEq

/-- What a call does. -/
def Request.prog (cfg : Config) : Request κ → Lora κ → Prog Calls (Result × Lora κ)
  | .initializeLink, lora => do
    let (e, lora) ← Lorawan.initializeLink lora
    return (.error e, lora)
  | .connect, lora => do
    let (e, lora) ← Lorawan.connect cfg lora
    return (.error e, lora)
  | .isConnected, lora => return (.connected lora.isJoined, lora)
  | .send data, lora => do
    let (e, lora) ← Lorawan.send data lora
    return (.error e, lora)
  | .registerDownlinkCallback callback, lora => do
    let lora ← Lorawan.registerDownlinkCallback callback lora
    return (.registered, lora)
  | .getMaxPayloadSize, lora => do
    let size ← Lorawan.getMaxPayloadSize lora
    return (.bytes size, lora)
  | .getAvailablePayloadSize, lora => do
    let size ← Lorawan.getAvailablePayloadSize lora
    return (.bytes size, lora)
  | .getMaxUplinksPerDispatch, lora => return (.bytes cfg.maxUplinksPerDispatch, lora)

/-- Any calls of the interface, one after the other. -/
def session (cfg : Config) : List (Request κ) → Lora κ → Prog Calls (Lora κ)
  | [], lora => return lora
  | r :: rs, lora => do
    let (_, lora) ← r.prog cfg lora
    session cfg rs lora

/-- What is known from the calls that were made. -/
structure Watch where
  /-- `device_is_ready()` was true, and no packet was handed over since. -/
  ready : Bool
  /-- What ADR was set to last. -/
  adr : Option Bool
  /-- The mask was accepted, and no join was tried since. -/
  masked : Bool
  /-- The last join was accepted, and no other was prepared since. -/
  joined : Bool
  /-- What the next packet carries, from the last answer; `none` once a packet was handed over. -/
  nextSize : Option UInt8
  deviceId : Option (List UInt8)
  registered : Bool

/-- No call was made. -/
def Watch.fresh : Watch := ⟨false, none, false, false, none, none, false⟩

/-- The identity a join presents is the configured one: what the texts denote, or the whole
identifier of the SoC. -/
structure Presents (cfg : Config) (w : Watch) (config : JoinConfig) : Prop where
  joinEui : config.joinEui.length = 8 ∧ Hex.Denotes cfg.joinEui.text config.joinEui
  appKey : config.appKey.length = 16 ∧ Hex.Denotes cfg.appKey.text config.appKey
  nwkKey : config.nwkKey = config.appKey
  devEui : match cfg.devEui with
    | none => w.deviceId = some config.devEui
    | some hex => config.devEui.length = 8 ∧ Hex.Denotes hex.text config.devEui
  devNonce : config.devNonce = 0

/-- The order of the calls: the stack is started on a ready radio; a mask enables the channels of
the configured sub-band and no others; the data rate is set while ADR is off, as the stack asks for;
a join takes place behind an accepted mask, with ADR on, and presents the configured identity; a
packet goes to port 1 behind an accepted join and a check that the radio is ready, and is no longer
than what the stack has just answered that it carries, nor is its length cut; and the callback is
registered once. -/
def order (cfg : Config) : Monitor Calls Watch where
  allows w
    | .start => w.ready = true
    | .setChannelsMask mask =>
      ∀ channel, enabled mask channel = true ↔ InSubband cfg.subband.toNat channel
    | .setDatarate datarate => w.adr = some false ∧ datarate = cfg.initialDatarate
    | .join config => w.masked = true ∧ w.adr = some true ∧ Presents cfg w config
    | .getPayloadSizes => w.joined = true
    | .send port data length =>
      port = 1 ∧ w.ready = true ∧ w.joined = true ∧ length.toNat = data.length ∧
        ∃ size, w.nextSize = some size ∧ data.length ≤ size.toNat
    | .registerDownlinkCallback => w.registered = false
    | .deviceIsReady | .setClassA | .enableAdr _ | .getDeviceId => True
  next
    | .deviceIsReady, ready, w => { w with ready := ready }
    | .setChannelsMask _, result, w => { w with masked := decide (result = 0), joined := false }
    | .enableAdr enable, _, w => { w with adr := some enable }
    | .join _, result, w => { w with joined := decide (result = 0), masked := false }
    | .getPayloadSizes, sizes, w => { w with nextSize := some sizes.1 }
    | .send .., _, w => { w with ready := false, nextSize := none }
    | .getDeviceId, answer, w => { w with deviceId := if answer.1 = 8 then some answer.2 else none }
    | .registerDownlinkCallback, _, w => { w with registered := true }
    | .start, _, w | .setClassA, _, w | .setDatarate _, _, w => w

/-- Between two calls of the interface, the members agree with what is known. -/
structure Agrees (lora : Lora κ) (w : Watch) : Prop where
  joined : lora.isJoined = true → w.joined = true
  registered : w.registered = lora.isDownlinkRegistered

theorem parsed_denotes {hex : CString 32} {length : BitVec 32} {bytes : List UInt8}
    (h : parsed hex length = some bytes) :
    bytes.length = length.toNat ∧ Hex.Denotes hex.text bytes := by
  obtain ⟨accepted, out, hrun, hspec⟩ := parseHex_spec hex (fun _ => 0) length
  unfold parsed at h
  rw [hrun] at h
  cases accepted with
  | false => cases h
  | true =>
    cases h
    have hreads := hspec.reads rfl
    rw [← List.range_eq_range'] at hreads
    exact ⟨by rw [List.length_map, List.length_range], hreads⟩

section
variable {cfg : Config} {lora : Lora κ} {w : Watch}

theorem initializeLink_obeys (h : Agrees lora w) :
    (initializeLink lora).ObeysTo (order cfg) (fun r => Agrees r.2) w := by
  refine .op trivial fun ready => .ite (fun _ => ⟨h.joined, h.registered⟩) fun hready => ?_
  have hready : ready = true := by simpa using hready
  refine .op hready fun result => ?_
  exact .ite (fun _ => ⟨h.joined, h.registered⟩) fun _ => ⟨h.joined, h.registered⟩

/-- A DevEUI is produced as it is configured. -/
theorem resolveDevEui_obeys (hregistered : w.registered = lora.isDownlinkRegistered) :
    (resolveDevEui cfg).ObeysTo (order cfg) (fun devEui w' =>
      w'.registered = lora.isDownlinkRegistered ∧ ∀ bytes, devEui = some bytes →
        match cfg.devEui with
        | none => w'.deviceId = some bytes
        | some hex => bytes.length = 8 ∧ Hex.Denotes hex.text bytes) w := by
  unfold resolveDevEui
  split
  · refine .op trivial fun answer => .ite (fun _ => ⟨hregistered, nofun⟩) fun hlength => ?_
    refine ⟨hregistered, fun bytes hbytes => ?_⟩
    cases hbytes
    exact if_pos (not_not.1 hlength)
  · exact ⟨hregistered, fun bytes hbytes => parsed_denotes hbytes⟩

theorem joinWith_obeys {devEui joinEui appKey : List UInt8} {mask : ChannelMask}
    (hmask : ∀ channel, enabled mask channel = true ↔ InSubband cfg.subband.toNat channel)
    (hpresents : Presents cfg w ⟨devEui, joinEui, appKey, appKey, 0⟩)
    (hregistered : w.registered = lora.isDownlinkRegistered) (hjoined : lora.isJoined = false) :
    (joinWith devEui joinEui appKey mask cfg.initialDatarate lora).ObeysTo (order cfg)
      (fun r => Agrees r.2) w := by
  have hidle {w' : Watch} (hw' : w'.registered = lora.isDownlinkRegistered) : Agrees lora w' :=
    ⟨fun h => (Bool.false_ne_true (hjoined.symm.trans h)).elim, hw'⟩
  refine .op hmask fun masked => .ite (fun _ => hidle hregistered) fun hmasked => ?_
  refine .op trivial fun _ => .op trivial fun _ => .op ⟨rfl, rfl⟩ fun _ => .op trivial fun _ => ?_
  refine .op ⟨decide_eq_true (not_not.1 hmasked), rfl, ?_⟩ fun result => ?_
  · exact ⟨hpresents.joinEui, hpresents.appKey, rfl, hpresents.devEui, rfl⟩
  · refine .ite (fun _ => hidle hregistered) fun hresult => ?_
    exact ⟨fun _ => decide_eq_true (not_not.1 hresult), hregistered⟩

theorem connect_obeys (h : Agrees lora w) :
    (connect cfg lora).ObeysTo (order cfg) (fun r => Agrees r.2) w := by
  have hidle {w' : Watch} (hw' : w'.registered = lora.isDownlinkRegistered) :
      Agrees { lora with isJoined := false } w' := ⟨nofun, hw'⟩
  unfold connect
  dsimp only
  split
  · exact hidle h.registered
  · next joinEui hjoinEui =>
    split
    · exact hidle h.registered
    · next appKey happKey =>
      refine (resolveDevEui_obeys h.registered).bind fun devEui w' hw' => ?_
      cases devEui with
      | none => exact hidle hw'.1
      | some devEui =>
        obtain ⟨mask, hmask, hchannels⟩ := buildUs915ChannelMask_spec cfg
        rw [hmask]
        refine joinWith_obeys hchannels ?_ hw'.1 rfl
        exact ⟨parsed_denotes hjoinEui, parsed_denotes happKey, rfl, hw'.2 devEui rfl, rfl⟩

/-- What the size query answers is what the stack answered. -/
theorem getAvailablePayloadSize_obeys (h : Agrees lora w) :
    (getAvailablePayloadSize lora).ObeysTo (order cfg) (fun size w' =>
      Agrees lora w' ∧ w'.ready = w.ready ∧
        (lora.isJoined = true → w'.nextSize = some size)) w := by
  refine .ite (fun hjoined => ⟨h, rfl, fun hj => ?_⟩) fun hjoined => ?_
  · rw [hj] at hjoined
    cases hjoined
  · refine .op (h.joined (by simpa using hjoined)) fun sizes => ?_
    exact ⟨⟨h.joined, h.registered⟩, rfl, fun _ => rfl⟩

theorem getMaxPayloadSize_obeys (h : Agrees lora w) :
    (getMaxPayloadSize lora).ObeysTo (order cfg) (fun _ => Agrees lora) w := by
  refine .ite (fun _ => h) fun hjoined => ?_
  exact .op (h.joined (by simpa using hjoined)) fun sizes => ⟨h.joined, h.registered⟩

theorem send_obeys (data : List UInt8) (h : Agrees lora w) :
    (send data lora).ObeysTo (order cfg) (fun r => Agrees r.2) w := by
  have h' (ready : Bool) : Agrees lora { w with ready := ready } := ⟨h.joined, h.registered⟩
  refine .op trivial fun ready => .ite (fun _ => h' ready) fun hready => ?_
  refine .ite (fun _ => h' ready) fun hjoined => ?_
  have hready : ready = true := by simpa using hready
  have hjoined : lora.isJoined = true := by simpa using hjoined
  refine (getAvailablePayloadSize_obeys (h' ready)).bind fun size w' ⟨hagrees, hw', hsize⟩ => ?_
  refine .ite (fun _ => (getAvailablePayloadSize_obeys hagrees).bind fun _ _ h => h.1)
    fun hlength => ?_
  have hlt := size.toNat_lt
  -- The length fits the byte that it is cast to.
  have hcast : (UInt8.ofNat data.length).toNat = data.length := by
    rw [UInt8.toNat_ofNat']
    exact Nat.mod_eq_of_lt (by omega)
  refine .op ⟨rfl, hw'.trans hready, hagrees.joined hjoined, hcast, size, hsize hjoined, ?_⟩
    fun result => ?_
  · omega
  · exact .ite (fun _ => ⟨hagrees.joined, hagrees.registered⟩)
      fun _ => ⟨hagrees.joined, hagrees.registered⟩

theorem registerDownlinkCallback_obeys (callback : κ) (h : Agrees lora w) :
    (registerDownlinkCallback callback lora).ObeysTo (order cfg) Agrees w := by
  refine .ite (fun hregistered => ?_) fun _ => ⟨h.joined, h.registered⟩
  refine .op (h.registered.trans ?_) fun _ => ⟨h.joined, rfl⟩
  simpa using hregistered

/-- A call of the interface keeps the order. -/
theorem Request.prog_obeys (r : Request κ) (h : Agrees lora w) :
    (r.prog cfg lora).ObeysTo (order cfg) (fun r => Agrees r.2) w := by
  cases r with
  | initializeLink => exact (initializeLink_obeys h).bind fun _ _ h => h
  | connect => exact (connect_obeys h).bind fun _ _ h => h
  | isConnected => exact h
  | send data => exact (send_obeys data h).bind fun _ _ h => h
  | registerDownlinkCallback callback =>
    exact (registerDownlinkCallback_obeys callback h).bind fun _ _ h => h
  | getMaxPayloadSize => exact (getMaxPayloadSize_obeys h).bind fun _ _ h => h
  | getAvailablePayloadSize =>
    exact (getAvailablePayloadSize_obeys h).bind fun _ _ h => h.1
  | getMaxUplinksPerDispatch => exact h

end

/-- **The stack is called in order.** Whatever the callers ask of the transport and whatever the
stack answers, every call to the stack is one that `order` allows. -/
theorem session_obeys (cfg : Config) (rs : List (Request κ)) :
    (session cfg rs Lora.constructed).Obeys (order cfg) Watch.fresh := by
  suffices h : ∀ (lora : Lora κ) (w : Watch), Agrees lora w →
      (session cfg rs lora).ObeysTo (order cfg) Agrees w from
    (h _ _ ⟨fun hjoined => (Bool.false_ne_true hjoined).elim, rfl⟩).obeys
  induction rs with
  | nil => exact fun lora w h => h
  | cons r rs ih => exact fun lora w h => (r.prog_obeys h).bind fun r w' h' => ih r.2 w' h'

/-! ## The transport that callers see -/

/-- What the stack answers during one call of the interface, to each kind of call. -/
structure StackAnswers where
  deviceIsReady : Bool
  start : Int
  setChannelsMask : Int
  setClassA : Int
  setDatarate : Int
  join : Int
  payloadSizes : UInt8 × UInt8
  send : Int
  deviceId : Int × List UInt8

/-- The answer to a call. -/
def StackAnswers.answer (ans : StackAnswers) : (o : Op) → o.Res
  | .deviceIsReady => ans.deviceIsReady
  | .start => ans.start
  | .setChannelsMask _ => ans.setChannelsMask
  | .setClassA => ans.setClassA
  | .enableAdr _ => ()
  | .setDatarate _ => ans.setDatarate
  | .join _ => ans.join
  | .getPayloadSizes => ans.payloadSizes
  | .send .. => ans.send
  | .getDeviceId => ans.deviceId
  | .registerDownlinkCallback => ()

/-- The same answers, as the transport reads them. -/
def StackAnswers.loraAnswer (cfg : Config) (ans : StackAnswers) : LoraAnswer where
  joinEuiParses := parses cfg.joinEui EUI_SIZE
  appKeyParses := parses cfg.appKey KEY_SIZE
  devEuiResolves :=
    match cfg.devEui with
    | none => decide (ans.deviceId.1 = 8)
    | some hex => parses hex EUI_SIZE
  setChannelsMask := ans.setChannelsMask
  join := ans.join
  deviceIsReady := ans.deviceIsReady
  nextSize := ans.payloadSizes.1
  rateCeiling := ans.payloadSizes.2
  send := ans.send

/-- And as the initialisation of the backend reads them, to which the network interfaces of the
other backends do not matter. -/
def StackAnswers.bringUp (ans : StackAnswers) : BringUp where
  deviceIsReady := ans.deviceIsReady
  lorawanStart := ans.start
  hasInterface := false
  ssidValid := false
  connectRequest := 0
  answered := false
  associated := false
  hasAddress _ := false
  staticAccepted := false

/-- What a call returns on the transport of a backend. -/
def Request.onBackend (b : Backend) (up : BringUp) (ans : b.transport.Answer)
    (link : b.transport.State) : Request κ → Result × b.transport.State
  | .initializeLink => (.error (b.initializeLink up), link)
  | .connect => ((b.transport.connect ans link).map .error id)
  | .isConnected => (.connected (b.transport.isConnected link), link)
  | .send data => (b.transport.send data ans link).map .error id
  | .registerDownlinkCallback _ => (.registered, link)
  | .getMaxPayloadSize => (.bytes (b.transport.getMaxPayloadSize ans link), link)
  | .getAvailablePayloadSize => (.bytes (b.transport.getAvailablePayloadSize ans link), link)
  | .getMaxUplinksPerDispatch => (.bytes b.transport.getMaxUplinksPerDispatch, link)

/-- What calls return, each with what the stack answers during it. -/
def results (cfg : Config) : List (Request κ × StackAnswers) → Lora κ → List Result
  | [], _ => []
  | (r, ans) :: rs, lora =>
    let returned := (r.prog cfg lora).eval ans.answer
    returned.1 :: results cfg rs returned.2

/-- The same on the transport. -/
def resultsOnBackend (cfg : Config) : List (Request κ × StackAnswers) → Bool → List Result
  | [], _ => []
  | (r, ans) :: rs, isJoined =>
    let returned := r.onBackend (.lora cfg.maxUplinksPerDispatch) ans.bringUp (ans.loraAnswer cfg)
      isJoined
    returned.1 :: resultsOnBackend cfg rs returned.2

section
variable (cfg : Config) (ans : StackAnswers) (lora : Lora κ)

theorem parsed_isSome (hex : CString 32) (length : BitVec 32) :
    (parsed hex length).isSome = parses hex length := by
  unfold parsed parses
  obtain ⟨accepted, out, hrun, -⟩ := parseHex_spec hex (fun _ => 0) length
  rw [hrun]
  cases accepted <;> rfl

theorem resolveDevEui_eval :
    ((resolveDevEui cfg).eval ans.answer).isSome = (ans.loraAnswer cfg).devEuiResolves := by
  unfold resolveDevEui StackAnswers.loraAnswer
  dsimp only
  split
  · simp only [Prog.eval_then]
    show Option.isSome (Prog.eval _ (if ans.deviceId.1 ≠ 8 then _ else _)) = _
    by_cases h : ans.deviceId.1 = 8 <;> simp [h]
  · exact parsed_isSome _ _

theorem joinWith_eval (devEui joinEui appKey : List UInt8) (mask : ChannelMask) (datarate : UInt8) :
    (joinWith devEui joinEui appKey mask datarate lora).eval ans.answer =
      if ans.setChannelsMask ≠ 0 then (.configError, lora)
      else if ans.join ≠ 0 then (.connectError, lora)
      else (.noError, { lora with isJoined := true }) := by
  simp only [joinWith, Prog.eval_then, Prog.eval_ite, Prog.eval_pure]
  rfl

theorem connect_eval :
    ((connect cfg lora).eval ans.answer).map id Lora.isJoined =
      LoraLink.connect (ans.loraAnswer cfg) lora.isJoined := by
  have hjoinEui : (parsed cfg.joinEui EUI_SIZE).isSome = (ans.loraAnswer cfg).joinEuiParses :=
    parsed_isSome _ _
  have happKey : (parsed cfg.appKey KEY_SIZE).isSome = (ans.loraAnswer cfg).appKeyParses :=
    parsed_isSome _ _
  have hdevEui := resolveDevEui_eval cfg ans
  obtain ⟨mask, hmask, -⟩ := buildUs915ChannelMask_spec cfg
  unfold connect LoraLink.connect
  rw [← hjoinEui, ← happKey, ← hdevEui, hmask]
  cases parsed cfg.joinEui EUI_SIZE with
  | none => rfl
  | some joinEui =>
    cases parsed cfg.appKey KEY_SIZE with
    | none => rfl
    | some appKey =>
      simp only [Prog.eval_then]
      cases (resolveDevEui cfg).eval ans.answer with
      | none => rfl
      | some devEui =>
        simp only [joinWith_eval]
        show Prod.map id Lora.isJoined (if ans.setChannelsMask ≠ 0 then _ else _) =
          if ans.setChannelsMask ≠ 0 then _ else if ans.join ≠ 0 then _ else _
        split_ifs <;> rfl

theorem getAvailablePayloadSize_eval :
    (getAvailablePayloadSize lora).eval ans.answer =
      LoraLink.getAvailablePayloadSize (ans.loraAnswer cfg) lora.isJoined := by
  unfold getAvailablePayloadSize LoraLink.getAvailablePayloadSize
  rw [Prog.eval_ite]
  rfl

theorem getMaxPayloadSize_eval :
    (getMaxPayloadSize lora).eval ans.answer =
      LoraLink.getMaxPayloadSize (ans.loraAnswer cfg) lora.isJoined := by
  unfold getMaxPayloadSize LoraLink.getMaxPayloadSize
  rw [Prog.eval_ite]
  rfl

theorem send_eval (data : List UInt8) :
    ((send data lora).eval ans.answer).map id Lora.isJoined =
      LoraLink.send data (ans.loraAnswer cfg) lora.isJoined := by
  unfold send LoraLink.send
  simp only [Prog.eval_then, Prog.eval_ite, Prog.eval_pure, getAvailablePayloadSize_eval cfg]
  change Prod.map id Lora.isJoined (if (!ans.deviceIsReady) = true then _ else
      if (!lora.isJoined) = true then _ else if _ then _ else if ans.send ≠ 0 then _ else _) =
    if (!ans.deviceIsReady) = true then _ else if (!lora.isJoined) = true then _ else
      if _ then _ else if ans.send ≠ 0 then _ else _
  split_ifs <;> rfl

theorem initializeLink_eval :
    (initializeLink lora).eval ans.answer =
      ((Backend.lora cfg.maxUplinksPerDispatch).initializeLink ans.bringUp, lora) := by
  unfold initializeLink Backend.initializeLink
  simp only [Prog.eval_then, Prog.eval_ite, Prog.eval_pure]
  change (if (!ans.deviceIsReady) = true then _ else if ans.start ≠ 0 then _ else _) =
      (if (!ans.deviceIsReady) = true then _ else if ans.start ≠ 0 then _ else _, lora)
  split_ifs <;> rfl

/-- One call of the interface. -/
theorem Request.prog_eval (r : Request κ) :
    ((r.prog cfg lora).eval ans.answer).map id Lora.isJoined =
      r.onBackend (.lora cfg.maxUplinksPerDispatch) ans.bringUp (ans.loraAnswer cfg)
        lora.isJoined := by
  cases r with
  | initializeLink =>
    simp only [Request.prog, Prog.eval_then, initializeLink_eval cfg]
    rfl
  | connect =>
    simp only [Request.prog, Prog.eval_then]
    exact congrArg (Prod.map Result.error id) (connect_eval cfg ans lora)
  | isConnected => rfl
  | send data =>
    simp only [Request.prog, Prog.eval_then]
    exact congrArg (Prod.map Result.error id) (send_eval cfg ans lora data)
  | registerDownlinkCallback callback =>
    obtain ⟨isJoined, isDownlinkRegistered, downlinkCallback⟩ := lora
    cases isDownlinkRegistered <;> rfl
  | getMaxPayloadSize =>
    simp only [Request.prog, Prog.eval_then, getMaxPayloadSize_eval cfg]
    rfl
  | getAvailablePayloadSize =>
    simp only [Request.prog, Prog.eval_then, getAvailablePayloadSize_eval cfg]
    rfl
  | getMaxUplinksPerDispatch => rfl

end

/-- **What the callers see is the transport.** Through any calls of the interface, with any answers
of the stack during each of them, the calls return what they return on the transport `loraLink`. -/
theorem session_answers (cfg : Config) (rs : List (Request κ × StackAnswers)) :
    results cfg rs Lora.constructed =
      resultsOnBackend cfg rs (loraLink cfg.maxUplinksPerDispatch).constructed := by
  suffices h : ∀ lora : Lora κ, results cfg rs lora = resultsOnBackend cfg rs lora.isJoined from h _
  induction rs with
  | nil => exact fun _ => rfl
  | cons r rs ih =>
    intro lora
    have hr := r.1.prog_eval cfg r.2 lora
    unfold results resultsOnBackend
    dsimp only
    rw [← hr, ih]
    rfl

end Concentrator.Lorawan
