import Concentrator.Comms.Cycle
import Mathlib.Data.List.Basic

/-!
# The snapshot and the clock it read

`snapshot()` reads the clock before it takes the lock, and the acquisition thread may record
readings in between. A device seen at a later second than the one read has a negative age, which the
unsigned subtraction turns into a very large one: the device is overtaken, and is left out as if it
were stale. `snapshot_complete_iff` says that nothing else is ever left out: a snapshot is complete
exactly when no fresh pending device was overtaken.
-/

namespace Concentrator.Comms

variable {ρ : Type}

/-- What a snapshot of `t` should be, for a scan at `scanS`: entries of the table in the order of
their slots, none twice, all those that are in use, pending and fresh, and none that is free or not
pending. -/
structure Complete (staleAfterS scanS : UInt32) (t : Table ρ) (snapshot : List (Entry ρ)) :
    Prop where
  inOrder : snapshot.Sublist t.entries
  once : (snapshot.map (·.address)).Nodup
  copied : ∀ e ∈ t.entries, e.Reportable staleAfterS scanS → e ∈ snapshot
  only : ∀ e ∈ snapshot, e.inUse = true ∧ e.Pending

/-- The entry was last seen after the clock read `nowS`, by a clock that reads `scanS` at the scan,
and not so long after that its age has wrapped around once more. -/
def Overtaken (staleAfterS nowS scanS : UInt32) (e : Entry ρ) : Prop :=
  scanS - e.lastSeenUptimeS < scanS - nowS ∧
    (scanS - nowS).toNat + staleAfterS.toNat < 2 ^ 32 + (scanS - e.lastSeenUptimeS).toNat

/-- Of the entries that are fresh at the scan, the overtaken ones are those that the age test takes
for stale. -/
theorem overtaken_iff {staleAfterS nowS scanS : UInt32} {e : Entry ρ}
    (hfresh : e.Fresh staleAfterS scanS) :
    Overtaken staleAfterS nowS scanS e ↔ ¬ e.Fresh staleAfterS nowS := by
  have hage : nowS - e.lastSeenUptimeS = (scanS - e.lastSeenUptimeS) - (scanS - nowS) := by grind
  unfold Entry.Fresh at hfresh ⊢
  unfold Overtaken
  rw [hage]
  generalize scanS - e.lastSeenUptimeS = age at hfresh ⊢
  generalize scanS - nowS = gap
  have hage := age.toNat_lt
  have hgap := gap.toNat_lt
  have hsub : (age - gap).toNat = (2 ^ 32 - gap.toNat + age.toNat) % 2 ^ 32 := UInt32.toNat_sub ..
  simp only [gt_iff_lt, UInt32.lt_iff_toNat_lt, hsub] at hfresh ⊢
  omega

/-- The entries in use of a well-formed table, in order: no address is there twice. -/
theorem nodup_scan {cfg : Config} {t : Table ρ} (h : t.WF cfg) (staleAfterS nowS : UInt32) :
    ((t.entries.filter fun e => e.Reportable staleAfterS nowS).map (·.address)).Nodup := by
  refine List.Nodup.sublist (List.Sublist.map _ ?_) h.nodup_inUseAddresses
  refine List.monotone_filter_right _ fun e he => ?_
  exact (of_decide_eq_true he).1

section
variable [AsReading ρ] {cfg : Config}

/-- `snapshot(s_snapshot, MAX_DEVICES)`: the clock is read, the others act, and the table is scanned
under the lock. The world is the one of the scan. Reference: `svc/device_table/subsystem.cpp:151
snapshot`. -/
def snapshot (gap : List Act) (view : LinkView) (w : World ρ cfg) :
    List (Entry ρ) × World ρ cfg :=
  let nowS := (perform .getUptimeSeconds view w).1
  let w := gap.foldl (fun w x => x.run w) w
  ((perform (.scan nowS) view w).1, w)

/-- **A snapshot misses the overtaken devices, and no others.** Whatever the others do between the
clock and the lock, the snapshot is complete for the table it scans exactly when no entry that is in
use, pending and fresh at the scan was last seen after the clock was read. -/
theorem snapshot_complete_iff (gap : List Act) (view : LinkView) (w : World ρ cfg) :
    let scanned := (snapshot gap view w).2
    Complete cfg.deviceStaleAfterS scanned.uptime scanned.table.toTable (snapshot gap view w).1 ↔
      ∀ e ∈ scanned.table.entries, e.Reportable cfg.deviceStaleAfterS scanned.uptime →
        ¬ Overtaken cfg.deviceStaleAfterS w.uptime scanned.uptime e := by
  intro scanned
  have hwf := scanned.table.wf
  have hsnapshot : (snapshot gap view w).1 =
      scanned.table.entries.filter fun e => e.Reportable cfg.deviceStaleAfterS w.uptime :=
    hwf.scan_eq_filter cfg.deviceStaleAfterS w.uptime
  have hmem (e : Entry ρ) : e ∈ (snapshot gap view w).1 ↔
      e ∈ scanned.table.entries ∧ e.Reportable cfg.deviceStaleAfterS w.uptime := by
    rw [hsnapshot, List.mem_filter, decide_eq_true_iff]
  constructor
  · intro h e he hrep
    rw [overtaken_iff hrep.2.1, not_not]
    exact ((hmem e).1 (h.copied e he hrep)).2.2.1
  · intro h
    refine ⟨hsnapshot ▸ List.filter_sublist, hsnapshot ▸ nodup_scan hwf _ _, fun e he hrep => ?_,
      fun e he => ?_⟩
    · have hfresh := h e he hrep
      rw [overtaken_iff hrep.2.1, not_not] at hfresh
      exact (hmem e).2 ⟨he, hrep.1, hfresh, hrep.2.2⟩
    · obtain ⟨-, huse, -, hpending⟩ := (hmem e).1 he
      exact ⟨huse, hpending⟩

end

/-- A device that is recorded one second after the clock was read is in use, pending and seen in the
very second of the scan, and the snapshot leaves it out. -/
theorem snapshot_complete_fails :
    let gap : List Act := [.tick 1, .upsert (.ofByte 1) (-50) default]
    let taken := snapshot gap openLink (World.boot : World Reading (.ofDevices 1))
    taken.1 = [] ∧ (∃ e ∈ taken.2.table.entries, e.Reportable 3600 taken.2.uptime) ∧
      ¬ Complete 3600 taken.2.uptime taken.2.table.toTable taken.1 := by
  intro gap taken
  have hempty : taken.1 = [] := by decide
  have hrep : ∃ e ∈ taken.2.table.entries, e.Reportable 3600 taken.2.uptime := by decide
  refine ⟨hempty, hrep, fun h => ?_⟩
  obtain ⟨e, he, hrep⟩ := hrep
  have hmem := h.copied e he hrep
  rw [hempty] at hmem
  cases hmem

end Concentrator.Comms
