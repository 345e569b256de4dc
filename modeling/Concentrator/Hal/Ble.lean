import Mathlib.Tactic.Common

/-!
# Advertising reports

The part of the BLE HAL the services see: an advertiser address, which is the only identity an
endpoint has, and a raw advertising report as the scan callback hands it over.
-/

namespace Concentrator

/-- Length of a BLE device address, in bytes. Reference: `hal/ble/ble.hpp:21 ADDRESS_SIZE`. -/
abbrev ADDRESS_SIZE : Nat := 6

/-- Maximum size of a legacy advertising payload. Reference: `hal/ble/ble.hpp:24
MAX_ADV_DATA_SIZE`. -/
abbrev MAX_ADV_DATA_SIZE : Nat := 31

/-- A BLE address, `uint8_t[ADDRESS_SIZE]`. Reference: `hal/ble/ble.hpp:34`. -/
structure Address where
  bytes : List UInt8
  size : bytes.length = ADDRESS_SIZE
  deriving DecidableEq

@[ext] theorem Address.ext {a b : Address} (h : a.bytes = b.bytes) : a = b := by
  cases a; cases b; cases h; rfl

/-- The address of a zero-initialised structure. -/
instance : Inhabited Address := ⟨⟨List.replicate ADDRESS_SIZE 0, rfl⟩⟩

/-- The address whose bytes are all `b`. -/
def Address.ofByte (b : UInt8) : Address := ⟨List.replicate ADDRESS_SIZE b, rfl⟩

/-- A raw advertising report. `data` holds the valid bytes only, `data[0 .. data_length)`: the scan
callback never stores more than `MAX_ADV_DATA_SIZE`. Reference: `hal/ble/ble.hpp:31 AdvReport`,
`hal/ble/zephyr/ble_zephyr.cpp:43 scan_callback`. -/
structure AdvReport where
  address : Address
  addressType : UInt8
  rssi : Int8
  data : List UInt8
  data_length_le : data.length ≤ MAX_ADV_DATA_SIZE
  deriving DecidableEq

end Concentrator
