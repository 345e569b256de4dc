import Concentrator.DeviceTable.Linearizable
import Concentrator.Lib.Progress

/-!
# How long a call of the device table can take

Each function of the table makes a bounded number of accesses, whatever it reads: a few for each
slot, and a few more. So the mutex is never held for longer, and a call waits no longer for it.
-/

namespace Concentrator.SharedTable

variable {ρ : Type} {n : Nat}

/-! ## The functions on the slots -/

theorem findEntryIn_atMost (address : Address) (l : List (Fin n)) :
    (findEntryIn address l : Prog (slots ρ n) _).AtMost (2 * l.length) := by
  induction l with
  | nil => trivial
  | cons i rest ih =>
    intro inUse
    exact Prog.AtMost.ite (fun own => .ite trivial ih) (ih.mono (Nat.le_succ _))

theorem freeSlotIn_atMost (l : List (Fin n)) :
    (freeSlotIn l : Prog (slots ρ n) _).AtMost l.length := by
  induction l with
  | nil => trivial
  | cons i rest ih => exact fun inUse => .ite ih trivial

theorem oldestIn_atMost (l : List (Fin n)) (oldest : Fin n) :
    (oldestIn l oldest : Prog (slots ρ n) _).AtMost (2 * l.length) := by
  induction l generalizing oldest with
  | nil => trivial
  | cons i rest ih => exact fun seen least => ih _

theorem countIn_atMost (l : List (Fin n)) (count : UInt16) :
    (countIn l count : Prog (slots ρ n) _).AtMost l.length := by
  induction l generalizing count with
  | nil => trivial
  | cons i rest ih => exact fun inUse => ih _

/-- A slot that is copied out takes the most: four reads to decide, and its seven fields. -/
theorem scanIn_atMost (staleAfterS nowS : UInt32) (maxEntries : Nat) (l : List (Fin n))
    (written : Nat) :
    (scanIn staleAfterS nowS maxEntries l written : Prog (slots ρ n) _).AtMost (11 * l.length) := by
  induction l generalizing written with
  | nil => trivial
  | cons i rest ih =>
    have hrest (written k : Nat) : (scanIn staleAfterS nowS maxEntries rest written :
        Prog (slots ρ n) _).AtMost (11 * rest.length + k) :=
      (ih written).mono (Nat.le_add_right _ k)
    unfold scanIn
    refine .ite trivial fun inUse => ?_
    refine .ite (hrest written 10) fun seen => ?_
    refine .ite (hrest written 9) fun updateSeq reportedSeq => ?_
    refine .ite (hrest written 7) fun _ _ _ _ _ _ _ => ?_
    exact (ih (written + 1)).bind (m := 0) (fun entries => trivial) (Nat.le_refl _)

theorem acknowledge_atMost (address : Address) (updateSeq : UInt16) :
    (acknowledge address updateSeq : Prog (slots ρ n) _).AtMost (2 * n + 2) := by
  have hfind := findEntryIn_atMost (ρ := ρ) address (List.finRange n)
  rw [List.length_finRange] at hfind
  refine hfind.bind (fun r => ?_) (Nat.le_refl _)
  cases r with
  | none => trivial
  | some i => exact fun own => .ite (fun _ => trivial) trivial

/-! ## The functions of the table -/

variable {cfg : Config}

theorem onSlots_atMost {α : Type} {p : Prog (slots ρ cfg.maxDevices) α} {k : Nat}
    (hp : p.AtMost k) : (onSlots p : TableProg ρ cfg α).AtMost k :=
  hp.hoist

theorem claimSlot_atMost : (claimSlot : TableProg ρ cfg _).AtMost (3 * cfg.maxDevices + 3) := by
  have hfree := freeSlotIn_atMost (ρ := ρ) (List.finRange cfg.maxDevices)
  have holdest := oldestIn_atMost (ρ := ρ) (List.finRange cfg.maxDevices) ⟨0, cfg.maxDevices_pos⟩
  rw [List.length_finRange] at hfree holdest
  have hevict (oldest : Fin cfg.maxDevices) : (do
      let evictedCount ← loadEvictedCount
      if evictedCount < 0xFFFF then
        let evictedCount ← loadEvictedCount
        storeEvictedCount (evictedCount + 1)
        return oldest
      else return oldest : TableProg ρ cfg _).AtMost 3 :=
    fun _ => .ite (fun _ _ => trivial) trivial
  have hfull := (onSlots_atMost holdest).bind hevict (Nat.le_refl _)
  refine (onSlots_atMost hfree).bind (fun r => ?_) (k := 3 * cfg.maxDevices + 3)
    (m := 2 * cfg.maxDevices + 3) (by omega)
  cases r with
  | none => exact hfull
  | some i => trivial

variable [Inhabited ρ]

theorem claimEntry_atMost (address : Address) :
    (claimEntry address : TableProg ρ cfg _).AtMost (5 * cfg.maxDevices + 12) := by
  have hfind := findEntryIn_atMost (ρ := ρ) address (List.finRange cfg.maxDevices)
  rw [List.length_finRange] at hfind
  have hwipe (i : Fin cfg.maxDevices) : (do
      onSlots (wipe i address)
      return i : TableProg ρ cfg _).AtMost 9 := fun _ _ _ _ _ _ _ _ _ => trivial
  have hnew := claimSlot_atMost.bind hwipe (Nat.le_refl _)
  refine (onSlots_atMost hfind).bind (fun r => ?_) (m := 3 * cfg.maxDevices + 12)
    (k := 5 * cfg.maxDevices + 12) (by omega)
  cases r with
  | none => exact hnew
  | some i => trivial

theorem upsert_atMost (address : Address) (rssi : Int8) (reading : ρ) :
    (upsert address rssi reading : TableProg ρ cfg _).AtMost (5 * cfg.maxDevices + 20) := by
  refine .op fun _ => (claimEntry_atMost address).bind (fun i => ?_) (m := 7) (Nat.le_refl _)
  exact fun _ _ _ _ _ _ _ => trivial

omit [Inhabited ρ] in
theorem snapshot_atMost (out : Bool) (maxEntries : Nat) :
    (snapshot out maxEntries : TableProg ρ cfg _).AtMost (11 * cfg.maxDevices + 3) := by
  refine .ite trivial (.op fun nowS => .op fun _ => ?_)
  have hscan := scanIn_atMost (ρ := ρ) cfg.deviceStaleAfterS nowS maxEntries
    (List.finRange cfg.maxDevices) 0
  rw [List.length_finRange] at hscan
  exact (onSlots_atMost hscan).bind (fun entries => fun _ => trivial) (m := 1) (Nat.le_refl _)

omit [Inhabited ρ] in
theorem markReported_atMost (address : Address) (updateSeq : UInt16) :
    (markReported address updateSeq : TableProg ρ cfg _).AtMost (2 * cfg.maxDevices + 4) :=
  .op fun _ => (onSlots_atMost (acknowledge_atMost address updateSeq)).bind (m := 1)
    (fun _ _ => trivial) (Nat.le_refl _)

omit [Inhabited ρ] in
theorem getDeviceCount_atMost :
    (getDeviceCount : TableProg ρ cfg _).AtMost (cfg.maxDevices + 2) := by
  have hcount := countIn_atMost (ρ := ρ) (List.finRange cfg.maxDevices) 0
  rw [List.length_finRange] at hcount
  exact .op fun _ => (onSlots_atMost hcount).bind (m := 1) (fun _ _ => trivial) (Nat.le_refl _)

/-- The steps of the longest functions, for a table of this size. -/
def longestCall (cfg : Config) : Nat := 11 * cfg.maxDevices + 20

theorem body_atMost (o : Method ρ) : (body o : TableProg ρ cfg _).AtMost (longestCall cfg) := by
  unfold longestCall
  cases o with
  | upsert address rssi reading =>
    exact (upsert_atMost address rssi reading).bind (m := 0) (fun _ => trivial) (by omega)
  | snapshot out maxEntries =>
    exact (snapshot_atMost out maxEntries).bind (m := 0) (fun _ => trivial) (by omega)
  | markReported address updateSeq =>
    exact (markReported_atMost address updateSeq).bind (m := 0) (fun _ => trivial) (by omega)
  | getDeviceCount => exact getDeviceCount_atMost.bind (m := 0) (fun _ => trivial) (by omega)
  | getEvictedCount => exact fun _ => trivial

/-- **Every call of the table can be brought to its end.** Whatever the threads have called and
however far they have got, a call returns after some steps of the thread that holds the mutex and of
its own, no more than twice those of the longest function; the other threads need not take part. -/
theorem call_completes {Tid : Type} [DecidableEq Tid] {c : (object ρ cfg).Conf Tid}
    (h : ((object ρ cfg).lts Tid).Reachable c) {t : Tid} {q : TableProg ρ cfg (Result ρ)}
    (hr : c.running t = some q) :
    ∃ ls c', ls.length ≤ 2 * longestCall cfg + 1 ∧
      ((object ρ cfg).lts Tid).run ls c = some c' ∧ c'.running t = none ∧
      ∀ l ∈ ls, l = .ret t ∨ ∃ u, l = .act u ∧ (u = t ∨ c.owner = some u) :=
  tableView_sound.completes body_atMost h hr

/-- The thread 0 holds the mutex in the middle of an upsert, and the thread 1 waits for it. -/
theorem call_completes_waiting : ∃ (c : (object Reading (.ofDevices 1)).Conf Nat)
    (q : TableProg Reading (.ofDevices 1) (Result Reading)),
    ((object Reading (.ofDevices 1)).lts Nat).Reachable c ∧ c.owner = some 0 ∧
    c.running 1 = some q ∧ ((object Reading (.ofDevices 1)).lts Nat).step (.act 1) c = none ∧
    ∃ (ls : List (Shared.Label Nat (Method Reading) UInt32))
      (c' : (object Reading (.ofDevices 1)).Conf Nat),
      ls.length ≤ 2 * longestCall (.ofDevices 1) + 1 ∧
      ((object Reading (.ofDevices 1)).lts Nat).run ls c = some c' ∧ c'.running 1 = none ∧
      ∀ l ∈ ls, l = .ret 1 ∨ ∃ u, l = .act u ∧ (u = 1 ∨ c.owner = some u) := by
  obtain ⟨c, hreach, htest⟩ := Lts.Reachable.exists_of_run
    (L := (object Reading (.ofDevices 1)).lts Nat)
    ([.call 0 (.upsert (.ofByte 1) (-50) default), .call 1 .getDeviceCount] ++
      List.replicate 9 (.act 0))
    (fun c => decide (c.owner = some 0) && (c.running 1).isSome &&
      (((object Reading (.ofDevices 1)).lts Nat).step (.act 1) c).isNone)
    (.init ⟨0, rfl⟩) (by decide)
  simp only [Bool.and_eq_true, decide_eq_true_eq, Option.isNone_iff_eq_none] at htest
  obtain ⟨⟨howner, hrunning⟩, hwaits⟩ := htest
  obtain ⟨q, hq⟩ := Option.isSome_iff_exists.1 hrunning
  exact ⟨c, q, hreach, howner, hq, hwaits, call_completes hreach hq⟩

end Concentrator.SharedTable
