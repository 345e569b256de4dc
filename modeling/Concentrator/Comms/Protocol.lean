import Concentrator.Lib.Layout
import Concentrator.DeviceTable.Basic

/-!
# The uplink wire format

The header and the record of an uplink fragment, as packed little-endian structures, and how an
entry of the device table becomes a record. A fragment is kept as the header and the entries it was
built from; `Fragment.bytes` are the bytes the link is handed.
-/

namespace Concentrator

/-- The layout of an address. -/
def Address.layout : Layout Address :=
  (Layout.bytes ADDRESS_SIZE).iso (fun b => ⟨b.1, b.2⟩) (fun a => ⟨a.bytes, a.size⟩)
    (fun _ => rfl) fun _ => rfl

namespace Comms

/-- No flag is set. Reference: `svc/comms/comms_protocol.hpp:26 NONE`. -/
def UplinkFlags.NONE : UInt8 := 0x00

/-- The first uplink since boot. Reference: `svc/comms/comms_protocol.hpp:34 BOOT`. -/
def UplinkFlags.BOOT : UInt8 := 0x01

/-- An uplink without records. Reference: `svc/comms/comms_protocol.hpp:44 HEARTBEAT`. -/
def UplinkFlags.HEARTBEAT : UInt8 := 0x02

/-- The header of a fragment. Reference: `svc/comms/comms_protocol.hpp:48 UplinkHeader`. -/
structure UplinkHeader where
  concentratorId : UInt32
  sequence : UInt16
  fragmentIndex : UInt8
  fragmentCount : UInt8
  recordCount : UInt8
  droppedAdvReports : UInt8
  evictedDevices : UInt8
  flags : UInt8
  deriving DecidableEq

/-- The packed layout of the header. -/
def UplinkHeader.layout : Layout UplinkHeader :=
  (Layout.u32.seq <| .seq .u16 <| .seq .u8 <| .seq .u8 <| .seq .u8 <| .seq .u8 <|
      .seq .u8 .u8).iso
    (fun (c, s, i, n, r, d, e, f) => ⟨c, s, i, n, r, d, e, f⟩)
    (fun h => (h.concentratorId, h.sequence, h.fragmentIndex, h.fragmentCount, h.recordCount,
      h.droppedAdvReports, h.evictedDevices, h.flags))
    (fun _ => rfl) fun _ => rfl

/-- One endpoint's data. Reference: `svc/comms/comms_protocol.hpp:96 EndpointRecord`. -/
structure EndpointRecord where
  address : Address
  rssi : Int8
  secondsSinceSeen : UInt16
  temperature : Int8
  humidity : UInt8
  pressure : UInt16
  accX : Int16
  accY : Int16
  accZ : Int16
  batteryMv : UInt16
  endpointTimestamp : UInt32
  statusFlags : UInt8
  deriving DecidableEq

/-- The packed layout of the record. -/
def EndpointRecord.layout : Layout EndpointRecord :=
  (Address.layout.seq <| .seq .i8 <| .seq .u16 <| .seq .i8 <| .seq .u8 <| .seq .u16 <|
      .seq .i16 <| .seq .i16 <| .seq .i16 <| .seq .u16 <| .seq .u32 .u8).iso
    (fun (a, s, w, t, h, p, x, y, z, b, e, f) => ⟨a, s, w, t, h, p, x, y, z, b, e, f⟩)
    (fun r => (r.address, r.rssi, r.secondsSinceSeen, r.temperature, r.humidity, r.pressure,
      r.accX, r.accY, r.accZ, r.batteryMv, r.endpointTimestamp, r.statusFlags))
    (fun _ => rfl) fun _ => rfl

/-- The sizes the static assertions ask for.
Reference: `svc/comms/comms_protocol.hpp:76`, `:149`. -/
theorem layout_sizes : UplinkHeader.layout.size = 12 ∧ EndpointRecord.layout.size = 26 :=
  ⟨rfl, rfl⟩

/-- Saturate a counter to a byte. Reference: `svc/comms/subsystem.cpp:120 saturate_to_u8`. -/
def saturateToU8 (value : UInt16) : UInt8 := if value > 0xFF then 0xFF else value.toUInt8

section
variable {ρ : Type} [AsReading ρ]

/-- The record of an entry. The age is saturated, everything else is copied. Reference:
`svc/comms/subsystem.cpp:135 to_record`. -/
def toRecord (entry : Entry ρ) (nowS : UInt32) : EndpointRecord :=
  let reading := AsReading.reading entry.reading
  let ageS := nowS - entry.lastSeenUptimeS
  { address := entry.address
    rssi := entry.rssi
    secondsSinceSeen := if ageS > 0xFFFF then 0xFFFF else ageS.toUInt16
    temperature := reading.temperature
    humidity := reading.humidity
    pressure := reading.pressure
    accX := reading.accX
    accY := reading.accY
    accZ := reading.accZ
    batteryMv := reading.batteryMv
    endpointTimestamp := reading.endpointTimestamp
    statusFlags := reading.statusFlags }

variable (ρ) in
/-- A fragment, as `send_fragment()` builds it: the header, and the entries whose records follow,
aged at `nowS`. -/
structure Fragment where
  header : UplinkHeader
  entries : List (Entry ρ)
  nowS : UInt32

/-- The records of a fragment. -/
def Fragment.records (f : Fragment ρ) : List EndpointRecord :=
  f.entries.map fun entry => toRecord entry f.nowS

/-- The bytes of a fragment: the header, then each record. Reference:
`svc/comms/subsystem.cpp:195-207`. -/
def Fragment.bytes (f : Fragment ρ) : List UInt8 :=
  UplinkHeader.layout.pack f.header ++ f.records.flatMap EndpointRecord.layout.pack

theorem Fragment.length_bytes (f : Fragment ρ) :
    f.bytes.length = 12 + 26 * f.entries.length := by
  have hrecords : ∀ rs : List EndpointRecord,
      (rs.flatMap EndpointRecord.layout.pack).length = 26 * rs.length := by
    intro rs
    induction rs with
    | nil => rfl
    | cons r rs ih =>
      rw [List.flatMap_cons, List.length_append, ih, EndpointRecord.layout.length_pack,
        layout_sizes.2, List.length_cons]
      omega
  rw [bytes, List.length_append, UplinkHeader.layout.length_pack, layout_sizes.1, hrecords, records,
    List.length_map]

variable (ρ) in
/-- What the link is handed: a fragment, or the empty frame that lets the network adjust the rate.
Reference: `svc/comms/subsystem.cpp:292 send_adr_probe`. -/
inductive Uplink where
  | probe
  | fragment (f : Fragment ρ)

/-- The bytes of an uplink. -/
def Uplink.bytes : Uplink ρ → List UInt8
  | .probe => []
  | .fragment f => f.bytes

/-- The entries an uplink carries. -/
def Uplink.entries : Uplink ρ → List (Entry ρ)
  | .probe => []
  | .fragment f => f.entries

end

end Comms

end Concentrator
