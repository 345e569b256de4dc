import Concentrator.DeviceTable.Shared
import Mathlib.Data.List.FinRange

/-!
# The device table is linearizable

What a function of the table does on the slots while it holds the mutex is what the model's
operation does on the list of entries (`findEntry_exec`, `scanIn_exec`, ...).
-/

namespace Concentrator.SharedTable

variable {ρ : Type} {n : Nat}

/-! ## The functions on the slots, when nobody else accesses them -/

/-- An access to a slot, in the memory of the table. -/
def slotAccess (x : SlotAccess ρ n) (m : Memory ρ n) : (slots ρ n).Res x × Memory ρ n :=
  Memory.access (.slot x) m

/-- What a program on the slots returns and leaves behind when nobody else accesses them. -/
abbrev alone {α : Type} (p : Prog (slots ρ n) α) (m : Memory ρ n) : α × Memory ρ n :=
  p.exec slotAccess m

@[simp] theorem alone_pure {α : Type} (a : α) (m : Memory ρ n) :
    alone (pure a : Prog (slots ρ n) α) m = (a, m) := rfl

@[simp] theorem alone_bind {α β : Type} (p : Prog (slots ρ n) α) (f : α → Prog (slots ρ n) β)
    (m : Memory ρ n) : alone (p >>= f) m = alone (f (alone p m).1) (alone p m).2 :=
  Prog.exec_bind _ p f m

theorem alone_load {α : Type} (i : Fin n) (f : Field) (k : f.Val ρ → Prog (slots ρ n) α)
    (m : Memory ρ n) : alone (load i f >>= k) m = alone (k ((m.entries i).load f)) m := rfl

/-- The memory with a slot overwritten. -/
def Memory.set (m : Memory ρ n) (i : Fin n) (entry : Entry ρ) : Memory ρ n :=
  { m with entries := Function.update m.entries i entry }

@[simp] theorem alone_store (i : Fin n) (f : Field) (v : f.Val ρ) (m : Memory ρ n) :
    alone (store i f v) m = ((), m.set i ((m.entries i).store f v)) := rfl

@[simp] theorem alone_ite {α : Type} (c : Prop) [Decidable c] (p q : Prog (slots ρ n) α)
    (m : Memory ρ n) : alone (if c then p else q) m = if c then alone p m else alone q m :=
  apply_ite (fun p => alone p m) c p q

@[simp] theorem Memory.set_entries_self (m : Memory ρ n) (i : Fin n) (entry : Entry ρ) :
    (m.set i entry).entries i = entry := Function.update_self ..

@[simp] theorem Memory.set_set (m : Memory ρ n) (i : Fin n) (entry entry' : Entry ρ) :
    (m.set i entry).set i entry' = m.set i entry' := by
  simp [Memory.set]

theorem Memory.set_self (m : Memory ρ n) (i : Fin n) : m.set i (m.entries i) = m :=
  congrArg (Memory.mk · m.evictedCount) (Function.update_eq_self i m.entries)

@[simp] theorem Memory.set_evictedCount (m : Memory ρ n) (i : Fin n) (entry : Entry ρ) :
    (m.set i entry).evictedCount = m.evictedCount := rfl

/-- The search visits the slots in order and stops at the first that holds the address. -/
theorem findEntryIn_alone (address : Address) (l : List (Fin n)) (m : Memory ρ n) :
    alone (findEntryIn address l) m =
      (l.find? fun i => (m.entries i).inUse && (m.entries i).address == address, m) := by
  induction l with
  | nil => rfl
  | cons i rest ih =>
    rw [findEntryIn, alone_load, alone_ite, alone_load, alone_ite, alone_pure, ih, Entry.load,
      Entry.load, List.find?_cons]
    cases (m.entries i).inUse with
    | false => rfl
    | true =>
      by_cases h : (m.entries i).address = address
      · simp [h]
      · rw [if_neg h, beq_false_of_ne h]
        rfl

theorem freeSlotIn_alone (l : List (Fin n)) (m : Memory ρ n) :
    alone (freeSlotIn l) m = (l.find? fun i => !(m.entries i).inUse, m) := by
  induction l with
  | nil => rfl
  | cons i rest ih =>
    rw [freeSlotIn, alone_load, alone_ite, alone_pure, ih, Entry.load, List.find?_cons]
    cases (m.entries i).inUse <;> rfl

/-- The search for the least recently seen entry is the model's, over the entries of the slots. -/
theorem oldestIn_alone (m : Memory ρ n) :
    ∀ (l : List (Fin n)) (index : Nat) (oldest : Fin n),
      l.map Fin.val = List.range' index l.length →
      ∃ i, alone (oldestIn l oldest) m = (i, m) ∧
        i.val = Table.oldestFrom (l.map m.entries) index oldest.val
          (m.entries oldest).lastSeenUptimeS
  | [], _, oldest, _ => ⟨oldest, rfl, rfl⟩
  | i :: rest, index, oldest, hl => by
    obtain ⟨hi, hrest⟩ := List.cons.inj hl
    rw [oldestIn, alone_load, alone_load, Entry.load, Entry.load, List.map_cons, Table.oldestFrom]
    split
    · next hlt =>
      obtain ⟨j, hj, hval⟩ := oldestIn_alone m rest (index + 1) i hrest
      exact ⟨j, hj, hi ▸ hval⟩
    · exact oldestIn_alone m rest (index + 1) oldest hrest

theorem loadEntry_alone (i : Fin n) (m : Memory ρ n) :
    alone (loadEntry i) m = (m.entries i, m) := by
  rfl

theorem scanIn_alone (staleAfterS nowS : UInt32) (maxEntries : Nat) (l : List (Fin n))
    (written : Nat) (m : Memory ρ n) :
    alone (scanIn staleAfterS nowS maxEntries l written) m =
      (Table.scanFrom staleAfterS nowS maxEntries (l.map m.entries) written, m) := by
  induction l generalizing written with
  | nil => rfl
  | cons i rest ih =>
    rw [scanIn, List.map_cons, Table.scanFrom, alone_ite, alone_load, alone_ite, alone_load,
      alone_ite, alone_load, alone_load, alone_ite, alone_bind, loadEntry_alone, alone_bind,
      alone_pure, alone_pure, ih, ih]
    simp only [Entry.load, apply_ite (fun l => (l, m))]
    rfl

theorem countIn_alone (l : List (Fin n)) (count : UInt16) (m : Memory ρ n) :
    alone (countIn l count) m =
      ((l.map m.entries).foldl (fun count entry => if entry.inUse then count + 1 else count) count,
        m) := by
  induction l generalizing count with
  | nil => rfl
  | cons i rest ih =>
    rw [countIn, alone_load, ih]
    rfl

theorem storeEntry_alone (i : Fin n) (entry : Entry ρ) (m : Memory ρ n) :
    alone (storeEntry i entry) m = ((), m.set i entry) := by
  simp [storeEntry, Entry.store]

theorem wipe_alone [Inhabited ρ] (i : Fin n) (address : Address) (m : Memory ρ n) :
    alone (wipe i address) m = ((), m.set i (Table.newEntry address)) := by
  simp [wipe, storeEntry_alone, Entry.store, Table.newEntry]

/-! ## The memory as a table -/

/-- The table that the memory is. -/
def Memory.table (m : Memory ρ n) : Table ρ := ⟨List.ofFn m.entries, m.evictedCount⟩

/-- The first slot that passes a test, by its index. -/
theorem find?_finRange (p : Fin n → Bool) :
    ((List.finRange n).find? p).map Fin.val = (List.finRange n).findIdx? p := by
  rw [List.find?_eq_bind_findIdx?_getElem?]
  cases hp : (List.finRange n).findIdx? p with
  | none => rfl
  | some i =>
    have hi : i < n := by
      simpa using (List.findIdx?_eq_some_iff_getElem.1 hp).1
    simp [hi]

/-- Overwriting a slot overwrites an element of the list of entries. -/
theorem Memory.set_table (m : Memory ρ n) (i : Fin n) (entry : Entry ρ) :
    (m.set i entry).table = { m.table with entries := m.table.entries.set i entry } := by
  refine congrArg (Table.mk · m.evictedCount) (List.ext_getElem? fun j => ?_)
  rw [List.getElem?_set]
  by_cases hij : i.val = j
  · subst hij
    simp [Memory.table]
  · rw [if_neg hij, Memory.table, List.getElem?_ofFn, List.getElem?_ofFn]
    split
    · next hj =>
      have hne : (⟨j, hj⟩ : Fin n) ≠ i := fun h => hij (congrArg Fin.val h).symm
      exact congrArg some (Function.update_of_ne hne ..)
    · rfl

theorem Memory.getElem?_table (m : Memory ρ n) (i : Fin n) :
    m.table.entries[i.val]? = some (m.entries i) := by
  simp [Memory.table]

theorem Memory.table_entries (m : Memory ρ n) :
    m.table.entries = (List.finRange n).map m.entries :=
  List.ofFn_eq_map

theorem findEntry_alone (address : Address) (m : Memory ρ n) :
    ∃ r, alone (findEntry address) m = (r, m) ∧ r.map Fin.val = m.table.findEntry address := by
  refine ⟨_, findEntryIn_alone address _ m, ?_⟩
  rw [find?_finRange, Table.findEntry, m.table_entries, List.findIdx?_map]
  rfl

theorem freeSlot_alone (m : Memory ρ n) :
    ∃ r, alone (freeSlotIn (List.finRange n)) m = (r, m) ∧
      r.map Fin.val = m.table.entries.findIdx? fun entry => !entry.inUse := by
  refine ⟨_, freeSlotIn_alone _ m, ?_⟩
  rw [find?_finRange, m.table_entries, List.findIdx?_map]
  rfl

theorem oldest_alone (m : Memory ρ n) (first : Fin n) :
    ∃ i, alone (oldestIn (List.finRange n) first) m = (i, m) ∧
      i.val = Table.oldestFrom m.table.entries 0 first.val (m.entries first).lastSeenUptimeS := by
  rw [m.table_entries]
  exact oldestIn_alone m _ 0 first (by simp [List.range_eq_range'])

/-- What `writeReading` and the store of the time after it leave in the slot. -/
theorem writeReading_alone (i : Fin n) (rssi : Int8) (reading : ρ) (m : Memory ρ n) :
    ∃ entry, alone (writeReading i rssi reading) m = ((), m.set i entry) ∧
      ∀ nowS, entry.store .lastSeenUptimeS nowS =
        Table.record rssi reading nowS (m.entries i) := by
  refine ⟨{ m.entries i with
    updateSeq := (m.entries i).updateSeq + 1
    rssi := rssi
    reading := reading }, ?_, fun _ => rfl⟩
  rw [writeReading, alone_load]
  simp [Entry.store, Entry.load]

theorem acknowledge_alone (address : Address) (updateSeq : UInt16) (m : Memory ρ n) :
    (alone (acknowledge address updateSeq) m).2.table = m.table.markReported address updateSeq := by
  obtain ⟨r, hr, hfind⟩ := findEntry_alone address m
  rw [acknowledge, alone_bind, hr, Table.markReported, ← hfind]
  cases r with
  | none => rfl
  | some i =>
    show (alone (load i .updateSeq >>= _) m).2.table =
      ⟨m.table.entries.modify i.val _, m.table.evictedCount⟩
    rw [modify_eq_set_of_getElem? (m.getElem?_table i), ← m.set_table, alone_load, alone_ite,
      Entry.load]
    by_cases h : (m.entries i).updateSeq = updateSeq
    · rw [if_pos h, if_pos h]
      rfl
    · rw [if_neg h, if_neg h, m.set_self]
      rfl

/-- A scan for no entries copies none out. -/
theorem scan_zero (t : Table ρ) (staleAfterS nowS : UInt32) : t.scan staleAfterS nowS 0 = [] := by
  unfold Table.scan
  cases t.entries <;> rfl

/-! ## The atomic table -/

variable [Inhabited ρ] {cfg : Config}

/-- The table that carries out each call at one instant. Its state has the calls so far, the latest
first; what the table holds is what they leave (`History.after`). An upsert records a time at which
it had been called, and no earlier one than the upserts before it; a snapshot is taken with a time
between the call and the instant it is carried out. -/
def atomicTable (ρ : Type) [Inhabited ρ] (cfg : Config) : Atomic (Method ρ) (Result ρ) UInt32 where
  State := List (Call ρ)
  init := []
  step
    | .upsert address rssi reading, called, _, r, calls, calls' =>
      r = .done ∧ ∃ nowS, called ≤ nowS ∧ calls' = .upsert ⟨address, rssi, reading, nowS⟩ :: calls ∧
        History.Nondecreasing calls'
    | .snapshot out maxEntries, called, now, r, calls, calls' =>
      calls' = calls ∧ ∃ nowS, called ≤ nowS ∧ nowS ≤ now ∧
        r = .entries (if out then
          (History.after cfg calls).scan cfg.deviceStaleAfterS nowS maxEntries else [])
    | .markReported address updateSeq, _, _, r, calls, calls' =>
      r = .done ∧ calls' = .markReported address updateSeq :: calls
    | .getDeviceCount, _, _, r, calls, calls' =>
      calls' = calls ∧ r = .count (History.after cfg calls).getDeviceCount
    | .getEvictedCount, _, _, r, calls, calls' =>
      calls' = calls ∧ r = .count (History.after cfg calls).evictedCount

/-- While no one holds the mutex, the memory is the table that the calls leave, and they recorded
times that have been. The counter of evictions is that of the table at every point. -/
def tableView (ρ : Type) [Inhabited ρ] (cfg : Config) :
    View (object ρ cfg) (atomicTable ρ cfg) where
  free now P m := ∃ calls : List (Call ρ), P = {calls} ∧
    m.table = (History.after cfg calls).toTable ∧ History.Nondecreasing calls ∧
    ∀ u ∈ History.upserts calls, u.nowS ≤ now
  seen P m := ∀ calls ∈ P, m.evictedCount = (History.after cfg calls).evictedCount

theorem onSlots_conforms {α β : Type} {o : Method ρ} {called e : UInt32}
    {Q : β → UInt32 → Option (Set (List (Call ρ)) × Memory ρ cfg.maxDevices) → Option (Result ρ) →
      Prop} {p : Prog (slots ρ cfg.maxDevices) α} {f : α → TableProg ρ cfg β}
    {P : Set (List (Call ρ))} {m : Memory ρ cfg.maxDevices} {d : Option (Result ρ)}
    (hne : P.Nonempty) (hseen : (tableView ρ cfg).seen P m)
    (h : ∀ now, e ≤ now → (tableView ρ cfg).seen P (alone p m).2 →
      (tableView ρ cfg).Conforms o called Q (f (alone p m).1) now (some (P, (alone p m).2)) d) :
    (tableView ρ cfg).Conforms o called Q (onSlots p >>= f) e (some (P, m)) d := by
  refine View.Conforms.alone (fun x m hs => ?_) hne hseen h
  cases x <;> exact hs

/-- The mutex is released, and the call takes effect with that: from `calls` it makes `calls'`. -/
theorem unlock_conforms {β : Type} {o : Method ρ} {called e : UInt32}
    {Q : β → UInt32 → Option (Set (List (Call ρ)) × Memory ρ cfg.maxDevices) → Option (Result ρ) →
      Prop} {f : Unit → TableProg ρ cfg β} {calls calls' : List (Call ρ)}
    {m : Memory ρ cfg.maxDevices} {r : Result ρ}
    (hstep : ∀ now, e ≤ now → (atomicTable ρ cfg).step o called now r calls calls')
    (htable : m.table = (History.after cfg calls').toTable)
    (hnd : History.Nondecreasing calls') (htimes : ∀ u ∈ History.upserts calls', u.nowS ≤ e)
    (h : ∀ now, e ≤ now → (tableView ρ cfg).Conforms o called Q (f ()) now none (some r)) :
    (tableView ρ cfg).Conforms o called Q (unlock >>= f) e (some ({calls}, m)) none := by
  refine View.Conforms.unlock fun now hnow => ⟨{calls'}, some r, ?_, ?_, ?_, h now hnow⟩
  · refine .effect ⟨calls', rfl⟩ ?_
    rintro _ rfl
    exact ⟨calls, rfl, hstep now hnow⟩
  · rintro _ rfl
    exact congrArg Table.evictedCount htable
  · exact ⟨calls', rfl, htable, hnd, fun u hu => UInt32.le_trans (htimes u hu) hnow⟩

/-- At the end of a function that returns `a`: the mutex is free and the call has taken effect. -/
def Done {α : Type} (result : α → Result ρ) (a : α) (_ : UInt32)
    (w : Option (Set (List (Call ρ)) × Memory ρ cfg.maxDevices)) (d : Option (Result ρ)) : Prop :=
  w = none ∧ d = some (result a)

/-- A call of a function that is done at the end returns its answer. -/
theorem conforms_of_done {α : Type} {o : Method ρ} {called : UInt32} {p : TableProg ρ cfg α}
    {result : α → Result ρ}
    (h : (tableView ρ cfg).Conforms o called (Done result) p called none none) :
    (tableView ρ cfg).Conforms o called ((tableView ρ cfg).Returns o called)
      (p >>= fun a => pure (result a)) called none none := by
  refine h.bind fun a e w d hdone => ?_
  obtain ⟨rfl, rfl⟩ := hdone
  exact ⟨rfl, fun _ _ P _ _ hne => .stay hne⟩

/-- The memory of a free mutex has the counter of its table. -/
theorem seen_of_table {calls : List (Call ρ)} {m : Memory ρ cfg.maxDevices}
    (h : m.table = (History.after cfg calls).toTable) : (tableView ρ cfg).seen {calls} m := by
  rintro _ rfl
  exact congrArg Table.evictedCount h

theorem markReported_conforms (address : Address) (updateSeq : UInt16) (called : UInt32) :
    (tableView ρ cfg).Conforms (.markReported address updateSeq) called (Done fun _ => .done)
      (markReported address updateSeq) called none none := by
  refine View.Conforms.lock fun now hnow P m hfree _ => ?_
  obtain ⟨calls, rfl, htable, hnd, htimes⟩ := hfree
  refine onSlots_conforms ⟨calls, rfl⟩ (seen_of_table htable) fun now' hnow' _ => ?_
  refine unlock_conforms (f := pure) (fun _ _ => ⟨rfl, rfl⟩) ?_ hnd
    (fun u hu => UInt32.le_trans (htimes u hu) hnow') fun _ _ => ⟨rfl, rfl⟩
  rw [acknowledge_alone, htable]
  rfl

theorem getDeviceCount_conforms (called : UInt32) :
    (tableView ρ cfg).Conforms .getDeviceCount called (Done .count) getDeviceCount called none
      none := by
  refine View.Conforms.lock fun now hnow P m hfree _ => ?_
  obtain ⟨calls, rfl, htable, hnd, htimes⟩ := hfree
  refine onSlots_conforms ⟨calls, rfl⟩ (seen_of_table htable) fun now' hnow' _ => ?_
  rw [countIn_alone, ← m.table_entries, htable]
  exact unlock_conforms (fun _ _ => ⟨rfl, rfl⟩) htable hnd
    (fun u hu => UInt32.le_trans (htimes u hu) hnow') fun _ _ => ⟨rfl, rfl⟩

/-- The counter is read without the mutex: it is that of the table at every point. -/
theorem getEvictedCount_conforms (called : UInt32) :
    (tableView ρ cfg).Conforms .getEvictedCount called (Done .count) getEvictedCount called none
      none := by
  refine fun now hnow P m hseen hne => ⟨rfl, some (.count m.evictedCount), ?_, rfl, rfl⟩
  exact .effect hne fun calls hcalls =>
    ⟨calls, hcalls, rfl, congrArg Result.count (hseen calls hcalls)⟩

/-- The clock is read before the mutex is taken, so the scan may be made with an earlier time. -/
theorem snapshot_conforms (out : Bool) (maxEntries : Nat) (called : UInt32) :
    (tableView ρ cfg).Conforms (.snapshot out maxEntries) called
      ((tableView ρ cfg).Returns (.snapshot out maxEntries) called)
      (body (.snapshot out maxEntries)) called none none := by
  show (tableView ρ cfg).Conforms _ _ _
    (snapshot out maxEntries >>= fun entries => pure (Result.entries entries)) _ _ _
  unfold snapshot
  split
  · next h =>
    -- Nothing to copy to: the call takes effect at its return.
    refine ⟨rfl, fun now hnow P m _ hne => .effect hne fun calls hcalls => ?_⟩
    refine ⟨calls, hcalls, rfl, now, hnow, UInt32.le_refl now, congrArg Result.entries ?_⟩
    cases out with
    | false => rfl
    | true =>
      have hzero : maxEntries = 0 := by simpa using h
      rw [hzero, scan_zero]
      rfl
  · next h =>
    have hout : out = true := by simp_all
    refine conforms_of_done (View.Conforms.clock fun nowS hnowS => ?_)
    refine View.Conforms.lock fun now hnow P m hfree _ => ?_
    obtain ⟨calls, rfl, htable, hnd, htimes⟩ := hfree
    refine onSlots_conforms ⟨calls, rfl⟩ (seen_of_table htable) fun now' hnow' _ => ?_
    rw [scanIn_alone, ← m.table_entries, htable]
    refine unlock_conforms (fun now'' hnow'' => ⟨rfl, nowS, hnowS, ?_, ?_⟩) htable hnd
      (fun u hu => UInt32.le_trans (htimes u hu) hnow') fun _ _ => ⟨rfl, rfl⟩
    · exact UInt32.le_trans hnow (UInt32.le_trans hnow' hnow'')
    · rw [hout]
      rfl

/-! ## The upsert -/

/-- The upsert of an address that is not in the table. -/
theorem upsert_of_absent {t t' : Table ρ} {address : Address} {i : Nat}
    (hfind : t.findEntry address = none) (hclaim : t.claimSlot = (i, t')) (rssi : Int8)
    (reading : ρ) (nowS : UInt32) :
    t.upsert address rssi reading nowS =
      { t' with
        entries :=
          t'.entries.set i (Table.record rssi reading nowS (Table.newEntry address)) } := by
  rw [Table.upsert, hfind, hclaim]

omit [Inhabited ρ] in
/-- The slot claimed from a full table. -/
theorem claimSlot_of_full {m : Memory ρ n} {first i : Fin n} (hfirst : first.val = 0)
    (hfull : m.table.entries.findIdx? (fun entry => !entry.inUse) = none)
    (hi : i.val = Table.oldestFrom m.table.entries 0 first.val (m.entries first).lastSeenUptimeS) :
    m.table.claimSlot =
      (i.val, { m.table with evictedCount := Table.saturatingSucc m.evictedCount }) := by
  have hhead := m.getElem?_table first
  rw [Table.claimSlot, hfull]
  rw [hfirst] at hhead hi
  cases hentries : m.table.entries with
  | nil =>
    rw [hentries] at hhead
    cases hhead
  | cons entry rest =>
    rw [hentries] at hhead hi
    cases hhead
    rw [hi]
    exact congrArg (fun es => (_, Table.mk es _)) hentries.symm

/-- The upsert of an address that is in the slot `i`. -/
theorem upsert_of_found {m : Memory ρ n} {address : Address} {i : Fin n}
    (hfind : m.table.findEntry address = some i.val) (rssi : Int8) (reading : ρ) (nowS : UInt32) :
    m.table.upsert address rssi reading nowS =
      (m.set i (Table.record rssi reading nowS (m.entries i))).table := by
  rw [Table.upsert, hfind, m.set_table, ← modify_eq_set_of_getElem? (m.getElem?_table i)]

/-- The calls that an upsert may turn out to have made when it has taken effect and its time, `e` or
later, is still to be read. -/
def Unread (address : Address) (rssi : Int8) (reading : ρ) (calls : List (Call ρ)) (e : UInt32) :
    Set (List (Call ρ)) :=
  {calls' | ∃ nowS, e ≤ nowS ∧ calls' = .upsert ⟨address, rssi, reading, nowS⟩ :: calls}

/-- How far an upsert has got at the time `e`: it has not taken effect on the calls so far, or it
has, and its time is still to be read. -/
def Settling (address : Address) (rssi : Int8) (reading : ρ) (calls : List (Call ρ)) (e : UInt32)
    (P : Set (List (Call ρ))) (d : Option (Result ρ)) : Prop :=
  (d = none ∧ P = {calls}) ∨
    (d = some .done ∧ ∀ calls' ∈ Unread address rssi reading calls e, calls' ∈ P)

omit [Inhabited ρ] in
theorem Settling.later {address : Address} {rssi : Int8} {reading : ρ} {calls : List (Call ρ)}
    {e e' : UInt32} {P : Set (List (Call ρ))} {d : Option (Result ρ)}
    (h : Settling address rssi reading calls e P d) (he : e ≤ e') :
    Settling address rssi reading calls e' P d := by
  refine h.imp_right fun hsome => ⟨hsome.1, ?_⟩
  rintro _ ⟨nowS, hle, rfl⟩
  exact hsome.2 _ ⟨nowS, UInt32.le_trans he hle, rfl⟩

omit [Inhabited ρ] in
theorem nondecreasing_upsert {calls : List (Call ρ)} {u : Upsert ρ}
    (hnd : History.Nondecreasing calls) (h : ∀ u' ∈ History.upserts calls, u'.nowS ≤ u.nowS) :
    History.Nondecreasing (.upsert u :: calls) :=
  List.pairwise_cons.2 ⟨h, hnd⟩

/-- An eviction is counted before the slot is written and before the time is read. Whatever the time
will be, the counter is that of the table after the upsert. -/
theorem seen_unread {calls : List (Call ρ)} {m : Memory ρ cfg.maxDevices} {address : Address}
    {i : Nat} {t : Table ρ} (htable : m.table = (History.after cfg calls).toTable)
    (habsent : m.table.findEntry address = none) (hclaim : m.table.claimSlot = (i, t)) (rssi : Int8)
    (reading : ρ) (e : UInt32) {m' : Memory ρ cfg.maxDevices}
    (hcount : m'.evictedCount = t.evictedCount) :
    (tableView ρ cfg).seen (Unread address rssi reading calls e) m' := by
  rintro _ ⟨nowS, -, rfl⟩
  show m'.evictedCount = ((History.after cfg calls).toTable.upsert _ _ _ _).evictedCount
  rw [← htable, upsert_of_absent habsent hclaim, hcount]

section
variable {address : Address} {calls : List (Call ρ)} {m : Memory ρ cfg.maxDevices}
  {called e : UInt32} (rssi : Int8) (reading : ρ) (hcalled : called ≤ e)
  (htable : m.table = (History.after cfg calls).toTable) (hnd : History.Nondecreasing calls)
  (htimes : ∀ u ∈ History.upserts calls, u.nowS ≤ e)

include hcalled htable hnd htimes

theorem claimSlot_conforms (habsent : m.table.findEntry address = none) :
    (tableView ρ cfg).Conforms (.upsert address rssi reading) called
      (fun i e' w d => e ≤ e' ∧ ∃ P m', w = some (P, m') ∧ P.Nonempty ∧
        (tableView ρ cfg).seen P m' ∧ Settling address rssi reading calls e' P d ∧
        m.table.claimSlot = (i.val, m'.table))
      claimSlot e (some ({calls}, m)) none := by
  refine onSlots_conforms ⟨calls, rfl⟩ (seen_of_table htable) fun now hnow _ => ?_
  obtain ⟨r, hr, hfree⟩ := freeSlot_alone m
  rw [hr]
  cases r with
  | some i =>
    refine ⟨hnow, _, _, rfl, ⟨calls, rfl⟩, seen_of_table htable, .inl ⟨rfl, rfl⟩, ?_⟩
    rw [Table.claimSlot, ← hfree]
    rfl
  | none =>
    refine onSlots_conforms ⟨calls, rfl⟩ (seen_of_table htable) fun now₁ hnow₁ _ => ?_
    obtain ⟨i, hi, hval⟩ := oldest_alone m ⟨0, cfg.maxDevices_pos⟩
    have hclaim := claimSlot_of_full rfl hfree.symm hval
    rw [hi]
    refine View.Conforms.access fun now₂ hnow₂ =>
      ⟨{calls}, none, .stay ⟨calls, rfl⟩, seen_of_table htable, ?_⟩
    have hlater := UInt32.le_trans hnow (UInt32.le_trans hnow₁ hnow₂)
    split
    · next hlt =>
      have hsat : Table.saturatingSucc m.evictedCount = m.evictedCount + 1 := if_pos hlt
      rw [hsat] at hclaim
      refine View.Conforms.access fun now₃ hnow₃ =>
        ⟨{calls}, none, .stay ⟨calls, rfl⟩, seen_of_table htable, ?_⟩
      -- Those who read the counter see the eviction from here on, so the call takes effect here.
      refine View.Conforms.access fun now₄ hnow₄ => ?_
      have hlast := UInt32.le_trans hlater (UInt32.le_trans hnow₃ hnow₄)
      have hseen : (tableView ρ cfg).seen (Unread address rssi reading calls now₄)
          { m with evictedCount := m.evictedCount + 1 } :=
        seen_unread htable habsent hclaim rssi reading now₄ rfl
      have hne : (Unread address rssi reading calls now₄).Nonempty :=
        ⟨_, now₄, UInt32.le_refl _, rfl⟩
      refine ⟨_, some .done, .effect hne ?_, hseen, hlast, _, _, rfl, hne, hseen,
        .inr ⟨rfl, fun _ h => h⟩, hclaim⟩
      rintro _ ⟨nowS, hle, rfl⟩
      have hread := UInt32.le_trans hlast hle
      exact ⟨calls, rfl, rfl, nowS, UInt32.le_trans hcalled hread, rfl,
        nondecreasing_upsert hnd fun u hu => UInt32.le_trans (htimes u hu) hread⟩
    · next hge =>
      have hsat : Table.saturatingSucc m.evictedCount = m.evictedCount := if_neg hge
      rw [hsat] at hclaim
      exact ⟨hlater, _, _, rfl, ⟨calls, rfl⟩, seen_of_table htable, .inl ⟨rfl, rfl⟩, hclaim⟩

theorem claimEntry_conforms :
    (tableView ρ cfg).Conforms (.upsert address rssi reading) called
      (fun i e' w d => e ≤ e' ∧ ∃ P m', w = some (P, m') ∧ P.Nonempty ∧
        (tableView ρ cfg).seen P m' ∧ Settling address rssi reading calls e' P d ∧
        ∀ nowS, (m'.set i (Table.record rssi reading nowS (m'.entries i))).table =
          m.table.upsert address rssi reading nowS)
      (claimEntry address) e (some ({calls}, m)) none := by
  refine onSlots_conforms ⟨calls, rfl⟩ (seen_of_table htable) fun now hnow _ => ?_
  obtain ⟨r, hr, hfind⟩ := findEntry_alone address m
  rw [hr]
  cases r with
  | some i =>
    exact ⟨hnow, _, _, rfl, ⟨calls, rfl⟩, seen_of_table htable, .inl ⟨rfl, rfl⟩,
      fun nowS => (upsert_of_found hfind.symm rssi reading nowS).symm⟩
  | none =>
    have hclaim := claimSlot_conforms rssi reading (UInt32.le_trans hcalled hnow) htable hnd
      (fun u hu => UInt32.le_trans (htimes u hu) hnow) hfind.symm
    refine hclaim.bind fun i e' w d h => ?_
    obtain ⟨he, P, m', rfl, hne, hseen, hset, hclaim⟩ := h
    refine onSlots_conforms hne hseen fun now' hnow' hseen' => ?_
    rw [wipe_alone] at hseen' ⊢
    refine ⟨UInt32.le_trans hnow (UInt32.le_trans he hnow'), _, _, rfl, hne, hseen',
      hset.later hnow', fun nowS => ?_⟩
    rw [upsert_of_absent hfind.symm hclaim, Memory.set_entries_self, Memory.set_set,
      Memory.set_table]

end

theorem upsert_conforms (address : Address) (rssi : Int8) (reading : ρ) (called : UInt32) :
    (tableView ρ cfg).Conforms (.upsert address rssi reading) called (Done fun _ => .done)
      (upsert address rssi reading) called none none := by
  refine View.Conforms.lock fun now hnow P m hfree _ => ?_
  obtain ⟨calls, rfl, htable, hnd, htimes⟩ := hfree
  refine (claimEntry_conforms rssi reading hnow htable hnd htimes).bind fun i e w d h => ?_
  obtain ⟨he, P, m₁, rfl, hne, hseen, hset, hrecord⟩ := h
  obtain ⟨entry, hwrite, hentry⟩ := writeReading_alone i rssi reading m₁
  refine onSlots_conforms hne hseen fun now₁ hnow₁ hseen₁ => ?_
  rw [hwrite] at hseen₁ ⊢
  refine View.Conforms.clock fun nowS hnowS => ?_
  refine onSlots_conforms hne hseen₁ fun now₂ hnow₂ _ => ?_
  have hread := UInt32.le_trans he (UInt32.le_trans hnow₁ hnowS)
  have htimes' : ∀ u ∈ History.upserts calls, u.nowS ≤ nowS :=
    fun u hu => UInt32.le_trans (htimes u hu) hread
  have hnd' := nondecreasing_upsert (u := ⟨address, rssi, reading, nowS⟩) hnd htimes'
  rw [alone_store, Memory.set_entries_self, Memory.set_set, hentry]
  have htable' : (m₁.set i (Table.record rssi reading nowS (m₁.entries i))).table =
      (History.after cfg (.upsert ⟨address, rssi, reading, nowS⟩ :: calls)).toTable := by
    rw [hrecord, htable]
    rfl
  refine View.Conforms.unlock (f := pure) fun now₃ hnow₃ =>
    ⟨_, some .done, ?_, seen_of_table htable', ⟨_, rfl, htable', hnd', fun u hu => ?_⟩, rfl, rfl⟩
  · rcases hset.later (UInt32.le_trans hnow₁ hnowS) with ⟨rfl, rfl⟩ | ⟨rfl, hunread⟩
    · refine .effect ⟨_, rfl⟩ ?_
      rintro _ rfl
      exact ⟨calls, rfl, rfl, nowS, UInt32.le_trans hnow hread, rfl, hnd'⟩
    · refine .narrow ⟨_, rfl⟩ ?_
      rintro _ rfl
      exact hunread _ ⟨nowS, UInt32.le_refl _, rfl⟩
  · have hpast := UInt32.le_trans hnow₂ hnow₃
    rcases List.mem_cons.1 hu with rfl | hu
    · exact hpast
    · exact UInt32.le_trans (htimes' u hu) hpast

/-! ## The result -/

/-- Every function of the table conforms. -/
theorem tableView_sound : (tableView ρ cfg).Sound where
  init now := ⟨[], rfl, by simp [Memory.table, History.after, DeviceTable.initial,
    Table.initializeTable, List.ofFn_const], .nil, nofun⟩
  init_seen := by
    rintro _ rfl
    rfl
  later := by
    rintro now now' P m hle ⟨calls, hP, htable, hnd, htimes⟩
    exact ⟨calls, hP, htable, hnd, fun u hu => UInt32.le_trans (htimes u hu) hle⟩
  conforms o called := by
    cases o with
    | upsert address rssi reading =>
      exact conforms_of_done (upsert_conforms address rssi reading called)
    | snapshot out maxEntries => exact snapshot_conforms out maxEntries called
    | markReported address updateSeq =>
      exact conforms_of_done (markReported_conforms address updateSeq called)
    | getDeviceCount => exact conforms_of_done (getDeviceCount_conforms called)
    | getEvictedCount => exact conforms_of_done (getEvictedCount_conforms called)

/-- **The device table is linearizable.** However many threads call its functions, and however their
accesses to the memory fall among each other, the calls and the returns, with their times, are those
of the table that carries out each call at one instant. While no one holds the mutex, the memory is
the table that the calls leave, whose times do not decrease and have been. -/
theorem linearizable {Tid : Type} [DecidableEq Tid] {c : (object ρ cfg).Conf Tid}
    (h : ((object ρ cfg).lts Tid).Reachable c) :
    ∃ calls pending, (atomicTable ρ cfg).Runs c.now calls pending c.history ∧
      (c.owner = none → c.mem.table = (History.after cfg calls).toTable ∧
        History.Nondecreasing calls ∧ ∀ u ∈ History.upserts calls, u.nowS ≤ c.now) := by
  obtain ⟨P, calls, p, hcalls, hruns, hfree⟩ := tableView_sound.runs_of_reachable h
  refine ⟨calls, p, hruns, fun ho => ?_⟩
  obtain ⟨calls', rfl, htable⟩ := hfree ho
  cases hcalls
  exact htable

/-- A table of one slot: the thread 0 is evicting the first device, and the thread 1 has read the
counter without the mutex. -/
theorem linearizable_evicting : ∃ c : (object Reading (.ofDevices 1)).Conf Nat,
    ((object Reading (.ofDevices 1)).lts Nat).Reachable c ∧ c.owner = some 0 ∧
    c.history.head? = some (.ret 1 (.count 1) 7) ∧
    ∃ calls pending, (atomicTable Reading (.ofDevices 1)).Runs c.now calls pending c.history ∧
      (c.owner = none → c.mem.table = (History.after (.ofDevices 1) calls).toTable ∧
        History.Nondecreasing calls ∧ ∀ u ∈ History.upserts calls, u.nowS ≤ c.now) := by
  obtain ⟨c, hreach, htest⟩ := Lts.Reachable.exists_of_run
    (L := (object Reading (.ofDevices 1)).lts Nat)
    ([.pass 7, .call 0 (.upsert (.ofByte 1) (-50) default)] ++ List.replicate 19 (.act 0) ++
      [.ret 0, .call 0 (.upsert (.ofByte 2) (-60) default)] ++ List.replicate 9 (.act 0) ++
      [.call 1 .getEvictedCount, .act 1, .ret 1])
    (fun c => decide (c.owner = some 0 ∧ c.history.head? = some (.ret 1 (.count 1) 7)))
    (.init ⟨0, rfl⟩) (by decide)
  obtain ⟨howner, hhead⟩ := of_decide_eq_true htest
  exact ⟨c, hreach, howner, hhead, linearizable hreach⟩

end Concentrator.SharedTable
