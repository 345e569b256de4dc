import Concentrator.Comms.Dispatch

/-!
# Dispatch cycles among the other threads

The comms thread runs dispatch cycles, one after the other, over the device table, the clock and the
counters, while the acquisition thread records readings, reports are dropped and time passes between
any two of its calls. What the link answers is open: each call is answered as if from an arbitrary
`LinkView`, and every send may be accepted or refused.

The world keeps a log, the latest item first: the statements about what reached the network, and of
what, are statements about the log.
-/

namespace Concentrator.Comms

variable (ρ : Type)

/-- What the log keeps: a reading that was recorded, that a cycle began, what a snapshot saw and
copied out, and what was handed to the link, with its answer. -/
inductive LogItem where
  | upserted (address : Address) (rssi : Int8) (reading : ρ)
  | began
  | scanned (table : Table ρ) (nowS : UInt32) (snapshot : List (Entry ρ))
  | sent (uplink : Uplink ρ) (result : LinkError)

/-- What the threads share, with the number of `upsert()` calls so far and the log. -/
structure World (cfg : Config) where
  table : DeviceTable ρ cfg
  uptime : UInt32
  droppedReportCount : UInt16
  statics : Statics
  upserts : Nat
  log : List (LogItem ρ)

variable {ρ} {cfg : Config}

/-- An item that is no snapshot. -/
def LogItem.NotScan : LogItem ρ → Prop
  | .scanned .. => False
  | _ => True

/-- The entries an item brought to the network. -/
def LogItem.accepted : LogItem ρ → List (Entry ρ)
  | .sent uplink result => if result = .noError then uplink.entries else []
  | _ => []

/-- The entries that fragments the link accepted have carried. -/
def acceptedEntries (log : List (LogItem ρ)) : List (Entry ρ) := log.flatMap LogItem.accepted

/-- The readings that fragments the link accepted have carried. -/
def acceptedReadings (log : List (LogItem ρ)) : List ρ := (acceptedEntries log).map (·.reading)

theorem acceptedReadings_cons (item : LogItem ρ) (log : List (LogItem ρ)) :
    acceptedReadings (item :: log) = item.accepted.map (·.reading) ++ acceptedReadings log := by
  rw [acceptedReadings, acceptedEntries, List.flatMap_cons, List.map_append]
  rfl

/-- What the other threads do: record a reading, let time pass, drop a report. -/
inductive Act where
  | upsert (address : Address) (rssi : Int8) (reading : Reading)
  | tick (seconds : UInt32)
  | dropReport

section
variable [AsReading ρ]

/-- One act of the others. A reading is stamped with the number of its call. Reference:
`svc/device_table/subsystem.cpp:124 upsert`, `svc/acquisition/subsystem.cpp:73`. -/
def Act.run : Act → World ρ cfg → World ρ cfg
  | .upsert address rssi reading, w =>
    { w with
      table := w.table.upsert address rssi (AsReading.stamp w.upserts reading) w.uptime
      upserts := w.upserts + 1
      log := .upserted address rssi (AsReading.stamp w.upserts reading) :: w.log }
  | .tick seconds, w => { w with uptime := w.uptime + seconds }
  | .dropReport, w =>
    { w with droppedReportCount := Table.saturatingSucc w.droppedReportCount }

/-- What a call of the cycle does. -/
def perform : (o : CommsOp ρ) → LinkView → World ρ cfg → o.Res × World ρ cfg
  | .isConnected, view, w => (view.isConnected, w)
  | .getMaxPayloadSize, view, w => (view.maxPayloadSize, w)
  | .getAvailablePayloadSize, view, w => (view.availablePayloadSize, w)
  | .getMaxUplinksPerDispatch, view, w => (view.maxUplinksPerDispatch, w)
  | .send uplink, view, w =>
    (view.sendResult, { w with log := .sent uplink view.sendResult :: w.log })
  | .getUptimeSeconds, _, w => (w.uptime, w)
  | .scan nowS, _, w =>
    let snapshot := w.table.scan cfg.deviceStaleAfterS nowS cfg.maxDevices
    (snapshot, { w with log := .scanned w.table.toTable nowS snapshot :: w.log })
  | .markReported copy, _, w =>
    ((), { w with table := w.table.markReported copy.address copy.updateSeq })
  | .getDroppedReportCount, _, w => (w.droppedReportCount, w)
  | .getEvictedCount, _, w => (w.table.evictedCount, w)
  | .statics, _, w => (w.statics, w)
  | .modify f, _, w => ((), { w with statics := f w.statics })

variable (ρ cfg) in
/-- The comms thread, running dispatch cycles among the other threads. -/
abbrev cycles : Threaded (CommsSig ρ) where
  State := World ρ cfg
  Answer := LinkView
  Act := Act
  perform := perform
  other := Act.run
  start w := some (dispatch cfg, { w with log := .began :: w.log })
  finish w := w

/-- The world after boot. Reference: `svc/device_table/subsystem.cpp:103 initialize`,
`svc/comms/subsystem.cpp:80-102`. -/
def World.boot : World ρ cfg where
  table := .initial
  uptime := 0
  droppedReportCount := 0
  statics := ⟨0, false, 0⟩
  upserts := 0
  log := []

/-- No entry is in use after boot. -/
theorem World.boot_free {e : Entry ρ} (he : e ∈ (World.boot : World ρ cfg).table.entries) :
    e.inUse ≠ true := by
  rw [List.eq_of_mem_replicate he]
  exact Bool.false_ne_true

/-- The comms thread after boot, before its first cycle. -/
def booted : (cycles ρ cfg).Conf := ⟨World.boot, none⟩

end

/-- A link that is connected and takes one fragment of one record a cycle. -/
def openLink : LinkView := ⟨true, 51, 51, 1, .noError⟩

/-- A device heard once, just now. -/
def heardOnce : World Reading (.ofDevices 1) := (Act.upsert (.ofByte 1) (-50) default).run .boot

end Concentrator.Comms
