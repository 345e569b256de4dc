import Concentrator.Lib.Layout
import Concentrator.DeviceTable.Basic

/-!
# The endpoint's frame and its parser

What an endpoint puts into its advertisement, as bytes, and the walk over the AD structures of a
report that finds it. Every byte the walk reads is read at an index below the length of the data.
-/

namespace Concentrator.Acquisition

/-- The sensor payload. Reference: `svc/acquisition/manufacturer_data_protocol.hpp:28
SensorPayload`. -/
structure SensorPayload where
  snsTemperature : Int8
  snsHumidity : UInt8
  snsPressure : UInt16
  accXRawData : Int16
  accYRawData : Int16
  accZRawData : Int16
  batteryMv : UInt16
  timestamp : UInt32
  statusFlags : UInt8
  deriving DecidableEq

/-- The packed layout of the payload, its fields in the order of their declaration. -/
def SensorPayload.layout : Layout SensorPayload :=
  (Layout.i8.seq <| .seq .u8 <| .seq .u16 <| .seq .i16 <| .seq .i16 <| .seq .i16 <| .seq .u16 <|
      .seq .u32 .u8).iso
    (fun (t, h, p, x, y, z, b, s, f) => ⟨t, h, p, x, y, z, b, s, f⟩)
    (fun d => (d.snsTemperature, d.snsHumidity, d.snsPressure, d.accXRawData, d.accYRawData,
      d.accZRawData, d.batteryMv, d.timestamp, d.statusFlags))
    (fun _ => rfl) fun _ => rfl

/-- The value of the manufacturer specific element. Reference:
`svc/acquisition/manufacturer_data_protocol.hpp:89 ManufacturerFrame`. -/
structure ManufacturerFrame where
  companyId : UInt16
  sensorData : SensorPayload
  deriving DecidableEq

/-- The packed layout of the frame. -/
def ManufacturerFrame.layout : Layout ManufacturerFrame :=
  (Layout.u16.seq SensorPayload.layout).iso (fun (c, d) => ⟨c, d⟩)
    (fun f => (f.companyId, f.sensorData)) (fun _ => rfl) fun _ => rfl

/-- The sizes the static assertions ask for. Reference:
`svc/acquisition/manufacturer_data_protocol.hpp:58`, `:98`. -/
theorem layout_sizes : SensorPayload.layout.size = 17 ∧ ManufacturerFrame.layout.size = 19 :=
  ⟨rfl, rfl⟩

/-- The element type of manufacturer specific data. Reference:
`svc/acquisition/manufacturer_data_protocol.hpp:73 AD_TYPE_MANUFACTURER_SPECIFIC`. -/
def AD_TYPE_MANUFACTURER_SPECIFIC : UInt8 := 0xFF

/-- The walk of `parse_custom_frame()` over the AD structures from `offset` on. Each element spans
its length byte and the bytes this counts. Reference: `svc/acquisition/subsystem.cpp:100-143`. -/
def parseFrom (cfg : Config) (data : List UInt8) (offset : Nat) : Option ManufacturerFrame :=
  if h : offset + 1 < data.length then
    let elementLength := data[offset]
    -- A zero length ends the sequence; the rest is padding.
    if elementLength = 0 then none
    else if offset + 1 + elementLength.toNat > data.length then none
    else
      let elementType := data[offset + 1]
      if elementType = AD_TYPE_MANUFACTURER_SPECIFIC then
        let valueLength := elementLength - 1
        if valueLength.toNat ≠ ManufacturerFrame.layout.size then none
        else
          let frame := ManufacturerFrame.layout.unpack
            ((data.drop (offset + 2)).take ManufacturerFrame.layout.size)
          if frame.companyId = cfg.expectedCompanyId then some frame else none
      else parseFrom cfg data (offset + (1 + elementLength.toNat))
  else none
termination_by data.length - offset

/-- Interpret a report as an endpoint's frame. Reference: `svc/acquisition/subsystem.cpp:91
parse_custom_frame`. -/
def parseCustomFrame (cfg : Config) (report : AdvReport) : Option ManufacturerFrame :=
  parseFrom cfg report.data 0

/-- The reading a frame carries. Reference: `svc/acquisition/subsystem.cpp:165-174`. -/
def toReading (frame : ManufacturerFrame) : Reading where
  temperature := frame.sensorData.snsTemperature
  humidity := frame.sensorData.snsHumidity
  pressure := frame.sensorData.snsPressure
  accX := frame.sensorData.accXRawData
  accY := frame.sensorData.accYRawData
  accZ := frame.sensorData.accZRawData
  batteryMv := frame.sensorData.batteryMv
  endpointTimestamp := frame.sensorData.timestamp
  statusFlags := frame.sensorData.statusFlags

end Concentrator.Acquisition
