import Concentrator.DeviceTable.History
import Concentrator.Lib.Linearize

/-!
# The device table in shared memory

The table's functions as the threads run them: each takes the mutex, reads and writes the fields of
the slots one by one, and releases it; `get_evicted_count()` reads the counter without the mutex,
and `snapshot()` reads the clock before it takes it. Nothing here says that a function is carried
out in one piece: between any two accesses another thread may make one.
-/

namespace Concentrator

variable {ρ : Type}

/-- The fields of an entry. Reference: `svc/device_table/subsystem.hpp:55 Entry`. -/
inductive Field where
  | address
  | rssi
  | reading
  | lastSeenUptimeS
  | updateSeq
  | reportedSeq
  | inUse

/-- What a field holds. -/
@[reducible] def Field.Val (ρ : Type) : Field → Type
  | .address => Address
  | .rssi => Int8
  | .reading => ρ
  | .lastSeenUptimeS => UInt32
  | .updateSeq => UInt16
  | .reportedSeq => UInt16
  | .inUse => Bool

/-- The value of a field. -/
def Entry.load (entry : Entry ρ) : (f : Field) → f.Val ρ
  | .address => entry.address
  | .rssi => entry.rssi
  | .reading => entry.reading
  | .lastSeenUptimeS => entry.lastSeenUptimeS
  | .updateSeq => entry.updateSeq
  | .reportedSeq => entry.reportedSeq
  | .inUse => entry.inUse

/-- The entry with a field overwritten. -/
def Entry.store (entry : Entry ρ) : (f : Field) → f.Val ρ → Entry ρ
  | .address, v => { entry with address := v }
  | .rssi, v => { entry with rssi := v }
  | .reading, v => { entry with reading := v }
  | .lastSeenUptimeS, v => { entry with lastSeenUptimeS := v }
  | .updateSeq, v => { entry with updateSeq := v }
  | .reportedSeq, v => { entry with reportedSeq := v }
  | .inUse, v => { entry with inUse := v }

namespace SharedTable

variable {n : Nat}

/-- An access to a field of a slot. -/
inductive SlotAccess (ρ : Type) (n : Nat) where
  | load (i : Fin n) (f : Field)
  | store (i : Fin n) (f : Field) (v : f.Val ρ)

/-- The accesses to the slots. -/
abbrev slots (ρ : Type) (n : Nat) : Sig where
  Op := SlotAccess ρ n
  Res
    | .load _ f => f.Val ρ
    | .store .. => Unit

/-- An access to the table: to a slot, or to the counter of evictions. -/
inductive Access (ρ : Type) (n : Nat) where
  | slot (x : SlotAccess ρ n)
  | loadEvictedCount
  | storeEvictedCount (v : UInt16)

/-- The accesses to the table. -/
abbrev accesses (ρ : Type) (n : Nat) : Sig where
  Op := Access ρ n
  Res
    | .slot x => (slots ρ n).Res x
    | .loadEvictedCount => UInt16
    | .storeEvictedCount _ => Unit

/-- The memory of the table. Reference: `svc/device_table/subsystem.cpp:24 s_entries`,
`:35 s_evicted_count`. -/
structure Memory (ρ : Type) (n : Nat) where
  entries : Fin n → Entry ρ
  evictedCount : UInt16

/-- What an access reads and writes. -/
def Memory.access : (x : Access ρ n) → Memory ρ n → (accesses ρ n).Res x × Memory ρ n
  | .slot (.load i f), m => ((m.entries i).load f, m)
  | .slot (.store i f v), m =>
    ((), { m with entries := Function.update m.entries i ((m.entries i).store f v) })
  | .loadEvictedCount, m => (m.evictedCount, m)
  | .storeEvictedCount v, m => ((), { m with evictedCount := v })

/-! ## On the slots -/

/-- Read a field. -/
def load (i : Fin n) (f : Field) : Prog (slots ρ n) (f.Val ρ) :=
  Prog.op (S := slots ρ n) (.load i f)

/-- Write a field. -/
def store (i : Fin n) (f : Field) (v : f.Val ρ) : Prog (slots ρ n) Unit :=
  Prog.op (S := slots ρ n) (.store i f v)

/-- The search for the entry of an address, in the slots that are left. -/
def findEntryIn (address : Address) : List (Fin n) → Prog (slots ρ n) (Option (Fin n))
  | [] => return none
  | i :: rest => do
    let inUse ← load i .inUse
    if inUse then
      let own ← load i .address
      if own = address then return some i else findEntryIn address rest
    else findEntryIn address rest

/-- Find the entry for an address. Reference: `svc/device_table/subsystem.cpp:51 find_entry`. -/
def findEntry (address : Address) : Prog (slots ρ n) (Option (Fin n)) :=
  findEntryIn address (List.finRange n)

/-- The search for a free slot. Reference: `svc/device_table/subsystem.cpp:73-79`. -/
def freeSlotIn : List (Fin n) → Prog (slots ρ n) (Option (Fin n))
  | [] => return none
  | i :: rest => do
    let inUse ← load i .inUse
    if inUse then freeSlotIn rest else return some i

/-- The search for the least recently seen entry, which reads the time of the entry kept so far
again and again. Reference: `svc/device_table/subsystem.cpp:83-89`. -/
def oldestIn : List (Fin n) → (oldest : Fin n) → Prog (slots ρ n) (Fin n)
  | [], oldest => return oldest
  | i :: rest, oldest => do
    let seen ← load i .lastSeenUptimeS
    let least ← load oldest .lastSeenUptimeS
    oldestIn rest (if seen < least then i else oldest)

/-- `*p_entry = entry`, field by field. -/
def storeEntry (i : Fin n) (entry : Entry ρ) : Prog (slots ρ n) Unit := do
  store i .address entry.address
  store i .rssi entry.rssi
  store i .reading entry.reading
  store i .lastSeenUptimeS entry.lastSeenUptimeS
  store i .updateSeq entry.updateSeq
  store i .reportedSeq entry.reportedSeq
  store i .inUse entry.inUse

/-- A copy of a slot, field by field. -/
def loadEntry (i : Fin n) : Prog (slots ρ n) (Entry ρ) := do
  let address ← load i .address
  let rssi ← load i .rssi
  let reading ← load i .reading
  let lastSeenUptimeS ← load i .lastSeenUptimeS
  let updateSeq ← load i .updateSeq
  let reportedSeq ← load i .reportedSeq
  let inUse ← load i .inUse
  return ⟨address, rssi, reading, lastSeenUptimeS, updateSeq, reportedSeq, inUse⟩

/-- Make a slot the entry of a new device. Reference: `svc/device_table/subsystem.cpp:134-140`. -/
def wipe [Inhabited ρ] (i : Fin n) (address : Address) : Prog (slots ρ n) Unit := do
  storeEntry i .empty
  store i .address address
  store i .inUse true

/-- What `upsert()` writes before it reads the clock. Reference:
`svc/device_table/subsystem.cpp:143-145`. -/
def writeReading (i : Fin n) (rssi : Int8) (reading : ρ) : Prog (slots ρ n) Unit := do
  let updateSeq ← load i .updateSeq
  store i .updateSeq (updateSeq + 1)
  store i .rssi rssi
  store i .reading reading

/-- The scan of `snapshot()` over the slots that are left, with `written` entries copied out.
Reference: `svc/device_table/subsystem.cpp:163-192`. -/
def scanIn (staleAfterS nowS : UInt32) (maxEntries : Nat) :
    List (Fin n) → (written : Nat) → Prog (slots ρ n) (List (Entry ρ))
  | [], _ => return []
  | i :: rest, written =>
    if written ≥ maxEntries then return []
    else do
      let inUse ← load i .inUse
      if !inUse then scanIn staleAfterS nowS maxEntries rest written
      else
        let seen ← load i .lastSeenUptimeS
        if nowS - seen > staleAfterS then scanIn staleAfterS nowS maxEntries rest written
        else
          let updateSeq ← load i .updateSeq
          let reportedSeq ← load i .reportedSeq
          if updateSeq = reportedSeq then scanIn staleAfterS nowS maxEntries rest written
          else
            let entry ← loadEntry i
            let entries ← scanIn staleAfterS nowS maxEntries rest (written + 1)
            return entry :: entries

/-- Acknowledge the entry of an address, if it has not moved on. Reference:
`svc/device_table/subsystem.cpp:203-213`. -/
def acknowledge (address : Address) (updateSeq : UInt16) : Prog (slots ρ n) Unit := do
  match ← findEntry address with
  | none => return ()
  | some i =>
    let own ← load i .updateSeq
    if own = updateSeq then store i .reportedSeq updateSeq else return ()

/-- The count of the entries in use, over the slots that are left. Reference:
`svc/device_table/subsystem.cpp:224-230`. -/
def countIn : List (Fin n) → (count : UInt16) → Prog (slots ρ n) UInt16
  | [], count => return count
  | i :: rest, count => do
    let inUse ← load i .inUse
    countIn rest (if inUse then count + 1 else count)

/-! ## The functions of the table -/

variable {cfg : Config}

/-- What a thread that works on the table of a build can do. -/
abbrev calls (ρ : Type) (cfg : Config) : Sig := (accesses ρ cfg.maxDevices).locking UInt32

/-- A program of such a thread. -/
abbrev TableProg (ρ : Type) (cfg : Config) : Type → Type := Prog (calls ρ cfg)

/-- Accesses to the slots, among the accesses to the table. -/
def onSlots {α : Type} (p : Prog (slots ρ cfg.maxDevices) α) : TableProg ρ cfg α :=
  p.hoist (fun x => .access (.slot x)) fun _ r => r

/-- `s_mutex.lock()`. -/
def lock : TableProg ρ cfg Unit := Prog.op (S := calls ρ cfg) .lock

/-- `s_mutex.unlock()`. -/
def unlock : TableProg ρ cfg Unit := Prog.op (S := calls ρ cfg) .unlock

/-- `hal::system::get_uptime_seconds()`. -/
def getUptimeSeconds : TableProg ρ cfg UInt32 :=
  Prog.op (S := calls ρ cfg) .clock

/-- Read the counter of evictions. -/
def loadEvictedCount : TableProg ρ cfg UInt16 :=
  Prog.op (S := calls ρ cfg) (.access .loadEvictedCount)

/-- Write the counter of evictions. -/
def storeEvictedCount (v : UInt16) : TableProg ρ cfg Unit :=
  Prog.op (S := calls ρ cfg) (.access (.storeEvictedCount v))

/-- Find a slot for a new device. Reference: `svc/device_table/subsystem.cpp:71 claim_slot`. -/
def claimSlot : TableProg ρ cfg (Fin cfg.maxDevices) := do
  match ← onSlots (freeSlotIn (List.finRange cfg.maxDevices)) with
  | some i => return i
  | none =>
    let oldest ← onSlots (oldestIn (List.finRange cfg.maxDevices) ⟨0, cfg.maxDevices_pos⟩)
    let evictedCount ← loadEvictedCount
    if evictedCount < 0xFFFF then
      let evictedCount ← loadEvictedCount
      storeEvictedCount (evictedCount + 1)
      return oldest
    else return oldest

/-- The entry `upsert()` writes to: that of the address, or a slot made its own. Reference:
`svc/device_table/subsystem.cpp:128-141`. -/
def claimEntry [Inhabited ρ] (address : Address) : TableProg ρ cfg (Fin cfg.maxDevices) := do
  match ← onSlots (findEntry address) with
  | some i => return i
  | none =>
    let i ← claimSlot
    onSlots (wipe i address)
    return i

/-- Record a reading. Reference: `svc/device_table/subsystem.cpp:124 upsert`. -/
def upsert [Inhabited ρ] (address : Address) (rssi : Int8) (reading : ρ) :
    TableProg ρ cfg Unit := do
  lock
  let i ← claimEntry address
  onSlots (writeReading i rssi reading)
  let nowS ← getUptimeSeconds
  onSlots (store i .lastSeenUptimeS nowS)
  unlock

/-- Copy out what there is to report; `out` tells whether there is a buffer to copy to. Reference:
`svc/device_table/subsystem.cpp:151 snapshot`. -/
def snapshot (out : Bool) (maxEntries : Nat) : TableProg ρ cfg (List (Entry ρ)) :=
  if !out || maxEntries = 0 then return []
  else do
    let nowS ← getUptimeSeconds
    lock
    let entries ←
      onSlots (scanIn cfg.deviceStaleAfterS nowS maxEntries (List.finRange cfg.maxDevices) 0)
    unlock
    return entries

/-- Record that a reading reached the network. Reference: `svc/device_table/subsystem.cpp:199
mark_reported`. -/
def markReported (address : Address) (updateSeq : UInt16) : TableProg ρ cfg Unit := do
  lock
  onSlots (acknowledge address updateSeq)
  unlock

/-- Number of devices in the table. Reference: `svc/device_table/subsystem.cpp:218
get_device_count`. -/
def getDeviceCount : TableProg ρ cfg UInt16 := do
  lock
  let count ← onSlots (countIn (List.finRange cfg.maxDevices) 0)
  unlock
  return count

/-- Number of devices evicted, read without the mutex. Reference:
`svc/device_table/subsystem.cpp:237 get_evicted_count`. -/
def getEvictedCount : TableProg ρ cfg UInt16 := loadEvictedCount

/-- A call of one of the table's functions. Reference: `svc/device_table/subsystem.hpp:94-141`. -/
inductive Method (ρ : Type) where
  | upsert (address : Address) (rssi : Int8) (reading : ρ)
  | snapshot (out : Bool) (maxEntries : Nat)
  | markReported (address : Address) (updateSeq : UInt16)
  | getDeviceCount
  | getEvictedCount
  deriving DecidableEq

/-- What a call returns. -/
inductive Result (ρ : Type) where
  | done
  | entries (copied : List (Entry ρ))
  | count (n : UInt16)
  deriving DecidableEq

/-- What a thread runs when it calls a function. -/
def body [Inhabited ρ] : Method ρ → TableProg ρ cfg (Result ρ)
  | .upsert address rssi reading => do
    upsert address rssi reading
    return .done
  | .snapshot out maxEntries => return .entries (← snapshot out maxEntries)
  | .markReported address updateSeq => do
    markReported address updateSeq
    return .done
  | .getDeviceCount => return .count (← getDeviceCount)
  | .getEvictedCount => return .count (← getEvictedCount)

/-- The table in shared memory, as `initialize()` leaves it. -/
abbrev object (ρ : Type) [Inhabited ρ] (cfg : Config) :
    Shared (accesses ρ cfg.maxDevices) (Method ρ) (Result ρ) UInt32 where
  Mem := Memory ρ cfg.maxDevices
  init := ⟨fun _ => .empty, 0⟩
  access := Memory.access
  body := body

end SharedTable

end Concentrator
