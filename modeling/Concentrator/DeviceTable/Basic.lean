import Concentrator.Config
import Concentrator.Hal.Ble

/-!
# The device table

The table of endpoint devices: a fixed number of slots, each free or holding the last reading of one
address with the two sequence counters that say whether that reading has reached the network. Each
operation is one critical section of the table's mutex, so it is one function on the table.

The table stores and copies readings and never looks into them, so the model leaves their type `ρ`
open: it is `Reading` in the firmware, and a reading with the number of the call that brought it
where a statement has to tell two equal readings apart.

`upsert_cases` and `markReported_cases` say everything the two writers can do; the invariants of the
table and of its users are read off them.
-/

namespace Concentrator

/-- One reading from an endpoint. Reference: `svc/device_table/subsystem.hpp:23 Reading`. -/
structure Reading where
  temperature : Int8
  humidity : UInt8
  pressure : UInt16
  accX : Int16
  accY : Int16
  accZ : Int16
  batteryMv : UInt16
  endpointTimestamp : UInt32
  statusFlags : UInt8
  deriving DecidableEq, Inhabited

/-- A type whose values stand for readings; `stamp n r` is the value for the reading `r` of the
`n`-th call. -/
class AsReading (ρ : Type) extends Inhabited ρ where
  reading : ρ → Reading
  stamp : Nat → Reading → ρ
  reading_stamp : ∀ n r, reading (stamp n r) = r

instance : AsReading Reading := ⟨id, fun _ r => r, fun _ _ => rfl⟩

/-- A reading with the number of the call that brought it. -/
abbrev Stamped : Type := Reading × Nat

instance : AsReading Stamped := ⟨Prod.fst, fun n r => (r, n), fun _ _ => rfl⟩

/-- One slot of the table. Reference: `svc/device_table/subsystem.hpp:55 Entry`. -/
structure Entry (ρ : Type) where
  address : Address
  rssi : Int8
  reading : ρ
  lastSeenUptimeS : UInt32
  updateSeq : UInt16
  reportedSeq : UInt16
  inUse : Bool
  deriving DecidableEq

variable {ρ : Type}

/-- `Entry{}`: a free slot, all zero. -/
def Entry.empty [Inhabited ρ] : Entry ρ := ⟨default, 0, default, 0, 0, 0, false⟩

/-- An entry is pending when its reading has not been reported. Reference:
`svc/device_table/subsystem.cpp:185`. -/
def Entry.Pending (e : Entry ρ) : Prop := e.updateSeq ≠ e.reportedSeq

instance (e : Entry ρ) : Decidable e.Pending := inferInstanceAs (Decidable (_ ≠ _))

/-- An entry is fresh when it was last seen at most `staleAfterS` before `nowS`, in the unsigned
arithmetic of the source. Reference: `svc/device_table/subsystem.cpp:178`. -/
def Entry.Fresh (staleAfterS nowS : UInt32) (e : Entry ρ) : Prop :=
  ¬ nowS - e.lastSeenUptimeS > staleAfterS

instance (s n : UInt32) (e : Entry ρ) : Decidable (e.Fresh s n) :=
  inferInstanceAs (Decidable (¬ _))

/-- The slots and the eviction counter. Reference: `svc/device_table/subsystem.cpp:24 s_entries`,
`:35 s_evicted_count`. -/
structure Table (ρ : Type) where
  entries : List (Entry ρ)
  evictedCount : UInt16
  deriving DecidableEq

namespace Table

/-- The index of the entry for an address. Reference: `svc/device_table/subsystem.cpp:51
find_entry`. -/
def findEntry (t : Table ρ) (address : Address) : Option Nat :=
  t.entries.findIdx? fun entry => entry.inUse && entry.address == address

/-- The scan for the least recently seen entry: `oldest` is the index kept so far and `seen` the
time of that entry, `index` the index of the next one. Reference:
`svc/device_table/subsystem.cpp:81-89`. -/
def oldestFrom : List (Entry ρ) → (index oldest : Nat) → (seen : UInt32) → Nat
  | [], _, oldest, _ => oldest
  | entry :: rest, index, oldest, seen =>
    if entry.lastSeenUptimeS < seen then oldestFrom rest (index + 1) index entry.lastSeenUptimeS
    else oldestFrom rest (index + 1) oldest seen

/-- Counting up to `UINT16_MAX` and staying there. Reference: `svc/device_table/subsystem.cpp:91`,
`svc/acquisition/subsystem.cpp:73`. -/
def saturatingSucc (n : UInt16) : UInt16 := if n < 0xFFFF then n + 1 else n

/-- A slot for a new device: the first free one, else that of the least recently seen device, whose
eviction is counted. Reference: `svc/device_table/subsystem.cpp:71 claim_slot`. -/
def claimSlot (t : Table ρ) : Nat × Table ρ :=
  match t.entries.findIdx? fun entry => !entry.inUse with
  | some index => (index, t)
  | none =>
    match t.entries with
    | [] => (0, t)
    | first :: _ =>
      (oldestFrom t.entries 0 0 first.lastSeenUptimeS,
        { t with evictedCount := saturatingSucc t.evictedCount })

/-- What `upsert()` writes into the entry it found or claimed. Reference:
`svc/device_table/subsystem.cpp:143-146`. -/
def record (rssi : Int8) (reading : ρ) (nowS : UInt32) (entry : Entry ρ) : Entry ρ :=
  { entry with
    updateSeq := entry.updateSeq + 1
    rssi := rssi
    reading := reading
    lastSeenUptimeS := nowS }

/-- The wiped slot of a new device. Reference: `svc/device_table/subsystem.cpp:137-140`. -/
def newEntry [Inhabited ρ] (address : Address) : Entry ρ :=
  { Entry.empty with address := address, inUse := true }

/-- Record a reading. `nowS` is the uptime the call reads while it holds the lock. Reference:
`svc/device_table/subsystem.cpp:124 upsert`. -/
def upsert [Inhabited ρ] (t : Table ρ) (address : Address) (rssi : Int8) (reading : ρ)
    (nowS : UInt32) : Table ρ :=
  match t.findEntry address with
  | some index => { t with entries := t.entries.modify index (record rssi reading nowS) }
  | none =>
    let (index, t) := t.claimSlot
    { t with entries := t.entries.set index (record rssi reading nowS (newEntry address)) }

/-- The scan of `snapshot()` under the lock, with `written` entries already copied out. Reference:
`svc/device_table/subsystem.cpp:163-192`. -/
def scanFrom (staleAfterS nowS : UInt32) (maxEntries : Nat) :
    List (Entry ρ) → (written : Nat) → List (Entry ρ)
  | [], _ => []
  | entry :: rest, written =>
    if written ≥ maxEntries then []
    else if !entry.inUse then scanFrom staleAfterS nowS maxEntries rest written
    else if nowS - entry.lastSeenUptimeS > staleAfterS then
      scanFrom staleAfterS nowS maxEntries rest written
    else if entry.updateSeq = entry.reportedSeq then
      scanFrom staleAfterS nowS maxEntries rest written
    else entry :: scanFrom staleAfterS nowS maxEntries rest (written + 1)

/-- The critical section of `snapshot()`: the clock was read before, as `nowS`. Reference:
`svc/device_table/subsystem.cpp:151 snapshot`. -/
def scan (t : Table ρ) (staleAfterS nowS : UInt32) (maxEntries : Nat) : List (Entry ρ) :=
  scanFrom staleAfterS nowS maxEntries t.entries 0

/-- Record that a reading reached the network, unless the entry has moved on. Reference:
`svc/device_table/subsystem.cpp:199 mark_reported`. -/
def markReported (t : Table ρ) (address : Address) (updateSeq : UInt16) : Table ρ :=
  match t.findEntry address with
  | some index =>
    { t with
      entries := t.entries.modify index fun entry =>
        if entry.updateSeq = updateSeq then { entry with reportedSeq := updateSeq } else entry }
  | none => t

/-- Number of devices in the table. Reference: `svc/device_table/subsystem.cpp:218
get_device_count`. -/
def getDeviceCount (t : Table ρ) : UInt16 :=
  t.entries.foldl (fun count entry => if entry.inUse then count + 1 else count) 0

/-- The empty table. Reference: `svc/device_table/subsystem.cpp:103 initialize`. -/
def initializeTable [Inhabited ρ] (cfg : Config) : Table ρ :=
  ⟨List.replicate cfg.maxDevices .empty, 0⟩

end Table

end Concentrator
