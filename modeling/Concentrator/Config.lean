import Mathlib.Algebra.GroupWithZero.Nat
import Mathlib.Tactic.Common

/-!
# The build-time configuration

The Kconfig symbols the modelled code reads through `config.hpp`, with the ranges Kconfig admits
as fields: a configuration outside them cannot be built.
-/

namespace Concentrator

/-- The configuration of one build. Reference: `config.hpp:29-87` and the `range` lines of
`Kconfig:364-481`. -/
structure Config where
  /-- `CONFIG_APP_MAX_DEVICES`. -/
  maxDevices : Nat
  maxDevices_pos : 1 ≤ maxDevices := by decide
  maxDevices_le : maxDevices ≤ 500 := by decide
  /-- `CONFIG_APP_ADV_REPORT_POOL_SIZE`. -/
  advReportPoolSize : Nat
  advReportPoolSize_ge : 4 ≤ advReportPoolSize := by decide
  advReportPoolSize_le : advReportPoolSize ≤ 256 := by decide
  /-- `CONFIG_APP_EXPECTED_COMPANY_ID`. -/
  expectedCompanyId : UInt16
  /-- `CONFIG_APP_DISPATCH_PERIOD_S`. -/
  dispatchPeriodS : UInt32
  dispatchPeriodS_ge : 5 ≤ dispatchPeriodS := by decide
  dispatchPeriodS_le : dispatchPeriodS ≤ 86400 := by decide
  /-- `CONFIG_APP_DEVICE_STALE_AFTER_S`. -/
  deviceStaleAfterS : UInt32
  deviceStaleAfterS_ge : 60 ≤ deviceStaleAfterS := by decide
  deviceStaleAfterS_le : deviceStaleAfterS ≤ 86400 := by decide
  /-- `CONFIG_APP_HEARTBEAT_MAX_SILENCE_S`; zero disables heartbeats. -/
  heartbeatMaxSilenceS : UInt32
  heartbeatMaxSilenceS_le : heartbeatMaxSilenceS ≤ 86400 := by decide
  /-- `CONFIG_APP_CONCENTRATOR_ID`. -/
  concentratorId : UInt32
  /-- `CONFIG_APP_REPORT_BOOT`. -/
  reportBootInFirstUplink : Bool

-- By name, so that a table of one device has the same bounds in every module.
theorem Config.one_pos : 1 ≤ 1 := Nat.le_refl 1

theorem Config.one_le : 1 ≤ 500 := by decide

/-- The Kconfig defaults of a LoRaWAN build, with a table of `maxDevices` devices. Reference: the
`default` lines of `Kconfig:364-481`. -/
def Config.ofDevices (maxDevices : Nat)
    (pos : 1 ≤ maxDevices := by first | exact Config.one_pos | decide)
    (le : maxDevices ≤ 500 := by first | exact Config.one_le | decide) : Config where
  maxDevices := maxDevices
  maxDevices_pos := pos
  maxDevices_le := le
  advReportPoolSize := 32
  expectedCompanyId := 0x04B2
  dispatchPeriodS := 900
  deviceStaleAfterS := 3600
  heartbeatMaxSilenceS := 3600
  concentratorId := 0x00000001
  reportBootInFirstUplink := true

end Concentrator
