import Concentrator.Lib.Prog
import Concentrator.Comms.Protocol
import Concentrator.DeviceTable.Steps
import Concentrator.Hal.Link

/-!
# The dispatch cycle

`dispatch()` as a program whose calls are everything that other threads can come between: the link's
answers, the critical sections of the device table, the clock and the counters. The service's own
variables are calls as well, so that a reader of them sees each change when it happens.

`snapshot()` is two calls, as in the source: it reads the clock, then scans under the lock.
-/

namespace Concentrator.Comms

/-- The variables of the service that a dispatch cycle reads and writes. Reference:
`svc/comms/subsystem.cpp:80-102`. -/
structure Statics where
  sequence : UInt16
  bootUplinkSent : Bool
  lastUplinkUptimeS : UInt32
  deriving DecidableEq

/-- The calls of a dispatch cycle. -/
inductive CommsOp (ρ : Type) where
  | isConnected
  | getMaxPayloadSize
  | getAvailablePayloadSize
  | getMaxUplinksPerDispatch
  | send (uplink : Uplink ρ)
  | getUptimeSeconds
  /-- The locked part of `snapshot(s_snapshot, MAX_DEVICES)`, with the clock it has read. -/
  | scan (nowS : UInt32)
  /-- `mark_reported(copy.address, copy.update_seq)` -/
  | markReported (copy : Entry ρ)
  | getDroppedReportCount
  | getEvictedCount
  | statics
  | modify (f : Statics → Statics)

/-- The answer to each call. -/
@[reducible] def CommsOp.Res {ρ : Type} : CommsOp ρ → Type
  | .isConnected => Bool
  | .getMaxPayloadSize | .getAvailablePayloadSize | .getMaxUplinksPerDispatch => UInt8
  | .send _ => LinkError
  | .getUptimeSeconds => UInt32
  | .scan _ => List (Entry ρ)
  | .getDroppedReportCount | .getEvictedCount => UInt16
  | .statics => Statics
  | .markReported _ | .modify _ => Unit

/-- A call that hands nothing to the link and does not touch the table. -/
def CommsOp.Neutral {ρ : Type} : CommsOp ρ → Prop
  | .send _ | .scan _ | .markReported _ => False
  | _ => True

/-- The calls of a dispatch cycle, as a signature. -/
abbrev CommsSig (ρ : Type) : Sig := ⟨CommsOp ρ, CommsOp.Res⟩

variable {ρ : Type}

/-- A program of the comms thread. -/
abbrev CommsProg (ρ α : Type) : Type := Prog (CommsSig ρ) α

/-- Make one call. -/
abbrev call (o : CommsOp ρ) : CommsProg ρ o.Res := Prog.op (S := CommsSig ρ) o

/-- Acknowledge what a fragment carried. Reference: `svc/comms/subsystem.cpp:221-224`. -/
def markAll : List (Entry ρ) → CommsProg ρ Unit
  | [] => pure ()
  | copy :: copies => do
    call (.markReported copy)
    markAll copies

section
variable (cfg : Config)

/-- The flags of a fragment's header. Reference: `svc/comms/subsystem.cpp:184-194`. -/
def uplinkFlags (statics : Statics) (isHeartbeat : Bool) : UInt8 :=
  let flags := UplinkFlags.NONE
  let flags :=
    if cfg.reportBootInFirstUplink && !statics.bootUplinkSent then flags ||| UplinkFlags.BOOT
    else flags
  if isHeartbeat then flags ||| UplinkFlags.HEARTBEAT else flags

/-- The flag is set for a heartbeat, and for nothing else. -/
theorem uplinkFlags_heartbeat (statics : Statics) (isHeartbeat : Bool) :
    uplinkFlags cfg statics isHeartbeat &&& UplinkFlags.HEARTBEAT ≠ 0 ↔ isHeartbeat = true := by
  unfold uplinkFlags
  cases cfg.reportBootInFirstUplink <;> cases statics.bootUplinkSent <;> cases isHeartbeat <;>
    decide

/-- The header of a fragment. Reference: `svc/comms/subsystem.cpp:174-194`. -/
def uplinkHeader (statics : Statics) (droppedReports evicted : UInt16)
    (recordCount fragmentIndex fragmentCount : UInt8) (isHeartbeat : Bool) : UplinkHeader where
  concentratorId := cfg.concentratorId
  sequence := statics.sequence
  fragmentIndex := fragmentIndex
  fragmentCount := fragmentCount
  recordCount := recordCount
  droppedAdvReports := saturateToU8 droppedReports
  evictedDevices := saturateToU8 evicted
  flags := uplinkFlags cfg statics isHeartbeat

/-- Build and send one fragment of the first `count` entries, and acknowledge them when the link
took it. Reference: `svc/comms/subsystem.cpp:167 send_fragment`. -/
def sendFragment (entries : List (Entry ρ)) (count fragmentIndex fragmentCount : UInt8)
    (nowS : UInt32) (isHeartbeat : Bool) : CommsProg ρ Bool := do
  let statics ← call .statics
  let droppedReports ← call .getDroppedReportCount
  let evicted ← call .getEvictedCount
  let header :=
    uplinkHeader cfg statics droppedReports evicted count fragmentIndex fragmentCount isHeartbeat
  let carried := entries.take count.toNat
  let result ← call (.send (.fragment ⟨header, carried, nowS⟩))
  if result ≠ .noError then
    pure false
  else do
    markAll carried
    let sentAt ← call .getUptimeSeconds
    call (.modify fun statics => { statics with lastUplinkUptimeS := sentAt })
    pure true

/-- Mark the boot as reported. Reference: `svc/comms/subsystem.cpp:267`, `:376`, `:445`. -/
def setBootUplinkSent : CommsProg ρ Unit :=
  call (.modify fun statics => { statics with bootUplinkSent := true })

/-- Begin the next sequence number. Reference: `svc/comms/subsystem.cpp:263`, `:367`, `:394`. -/
def nextSequence : CommsProg ρ Unit :=
  call (.modify fun statics => { statics with sequence := statics.sequence + 1 })

/-- Send a fragment without records that is the only one of its cycle. Reference:
`svc/comms/subsystem.cpp:263-268`, `:367-377`. -/
def sendHeaderOnly (nowS : CommsProg ρ UInt32) : CommsProg ρ Unit := do
  nextSequence
  let nowS ← nowS
  let sent ← sendFragment cfg [] 0 0 1 nowS true
  if sent then setBootUplinkSent else pure ()

/-- Send a fragment without records if the device has been quiet for too long. Reference:
`svc/comms/subsystem.cpp:245 send_heartbeat_if_due`. -/
def sendHeartbeatIfDue : CommsProg ρ Unit :=
  if cfg.heartbeatMaxSilenceS = 0 then pure ()
  else do
    let nowS ← call .getUptimeSeconds
    let statics ← call .statics
    let silentS := nowS - statics.lastUplinkUptimeS
    if silentS < cfg.heartbeatMaxSilenceS then pure ()
    else sendHeaderOnly cfg (pure nowS)

/-- Send an empty frame. Reference: `svc/comms/subsystem.cpp:292 send_adr_probe`. -/
def sendAdrProbe : CommsProg ρ Unit := do
  let _ ← call (.send .probe)
  pure ()

/-- Behind a fragment there was still to send the index does not wrap. -/
theorem toNat_nextIndex {fragmentIndex fragmentCount : UInt8}
    (h : fragmentIndex < fragmentCount) : (fragmentIndex + 1).toNat = fragmentIndex.toNat + 1 := by
  have hlt := UInt8.lt_iff_toNat_lt.1 h
  have hbyte := fragmentCount.toNat_lt
  rw [UInt8.toNat_add, UInt8.toNat_one]
  exact Nat.mod_eq_of_lt (by omega)

/-- The fragment loop, from `fragmentIndex` on, with `sentRecords` already sent; it returns how many
records were sent. The fuel bounds the rounds: the counter has eight bits. Reference:
`svc/comms/subsystem.cpp:423-441`. -/
def fragmentLoop (snapshot : List (Entry ρ)) (recordsPerFragment fragmentCount : UInt8)
    (nowS : UInt32) : (fuel : Nat) → (fragmentIndex : UInt8) → (sentRecords : Nat) → CommsProg ρ Nat
  | 0, _, sentRecords => pure sentRecords
  | fuel + 1, fragmentIndex, sentRecords =>
    if fragmentIndex < fragmentCount then do
      let remaining := snapshot.length - sentRecords
      let count :=
        if remaining > recordsPerFragment.toNat then recordsPerFragment else UInt8.ofNat remaining
      let sent ← sendFragment cfg (snapshot.drop sentRecords) count fragmentIndex fragmentCount nowS
        false
      if sent then
        fragmentLoop snapshot recordsPerFragment fragmentCount nowS fuel (fragmentIndex + 1)
          (sentRecords + count.toNat)
      else pure sentRecords
    else pure sentRecords

/-- Send the records of a snapshot, as far as the link's allowance goes. Reference:
`svc/comms/subsystem.cpp:394-446`. -/
def sendRecords (snapshot : List (Entry ρ)) (recordsPerFragment : UInt8) : CommsProg ρ Unit := do
  nextSequence
  let nowS ← call .getUptimeSeconds
  let fragmentsNeeded :=
    (snapshot.length + recordsPerFragment.toNat - 1) / recordsPerFragment.toNat
  let maxUplinks ← call .getMaxUplinksPerDispatch
  let fragmentsAllowed :=
    if fragmentsNeeded > maxUplinks.toNat then maxUplinks.toNat else fragmentsNeeded
  let fragmentCount := UInt8.ofNat fragmentsAllowed
  let sentRecords ← fragmentLoop cfg snapshot recordsPerFragment fragmentCount nowS 256 0 0
  if sentRecords > 0 then setBootUplinkSent else pure ()

/-- Each of the fragments that a snapshot needs begins within it. -/
theorem start_lt_length {length recordsPerFragment i : Nat} (hpos : 0 < recordsPerFragment)
    (hi : i < (length + recordsPerFragment - 1) / recordsPerFragment) :
    i * recordsPerFragment < length := by
  have hle := (Nat.le_div_iff_mul_le hpos).1 hi
  rw [Nat.succ_mul] at hle
  omega

/-- One dispatch cycle. Reference: `svc/comms/subsystem.cpp:315 dispatch`. -/
def dispatch : CommsProg ρ Unit := do
  let isConnected ← call .isConnected
  if !isConnected then pure ()
  else do
    let rateCeiling ← call .getMaxPayloadSize
    if rateCeiling.toNat ≤ UplinkHeader.layout.size then sendAdrProbe
    else do
      let available ← call .getAvailablePayloadSize
      if available.toNat ≤ UplinkHeader.layout.size then pure ()
      else do
        let recordsPerFragment :=
          UInt8.ofNat ((available.toNat - UplinkHeader.layout.size) / EndpointRecord.layout.size)
        if recordsPerFragment = 0 then sendHeaderOnly cfg (call .getUptimeSeconds)
        else do
          let nowS ← call .getUptimeSeconds
          let snapshot ← call (.scan nowS)
          if snapshot.length = 0 then sendHeartbeatIfDue cfg
          else sendRecords cfg snapshot recordsPerFragment

end

end Concentrator.Comms
