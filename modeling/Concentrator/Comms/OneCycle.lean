import Concentrator.Comms.Fragmentation
import Concentrator.Comms.Snapshot
import Concentrator.Hal.SocketLink
import Mathlib.Data.List.Perm.Subperm
import Mathlib.Data.List.Nodup

/-!
# One cycle on a socket link

A socket link has the same answer to both payload questions, and allows 255 transmissions a cycle.
So one cycle clears the table if a fragment has room for a record and the devices to report fit 255
fragments (`oneCycle_clears_iff`). At the small end of what Kconfig admits they do not: a fragment
below 38 bytes carries no record at all, and one below 64 bytes a single one, for up to 500 devices.

Time may pass during the cycle. A device may go stale before the snapshot reads the clock, and is
then not reported.
-/

namespace Concentrator.Comms

open Threaded

/-! ## What a cycle leaves -/

section
variable {ρ : Type} {cfg : Config}

/-- What a log has more than an earlier one. -/
def since (earlier log : List (LogItem ρ)) : List (LogItem ρ) :=
  log.take (log.length - earlier.length)

theorem since_append (items earlier : List (LogItem ρ)) :
    since earlier (items ++ earlier) = items := by
  rw [since, List.length_append, Nat.add_sub_cancel]
  exact List.take_left

/-- The entries a snapshot would copy out now, given room. -/
def World.reportable (w : World ρ cfg) : List (Entry ρ) :=
  w.table.entries.filter fun e => e.Reportable cfg.deviceStaleAfterS w.uptime

/-- The clock values the snapshots of a log were taken with. -/
def scanTimes (log : List (LogItem ρ)) : List UInt32 :=
  log.filterMap fun
    | .scanned _ nowS _ => some nowS
    | _ => none

/-- From `w` on, every device that was fresh and pending there has been transmitted exactly once,
and no fresh device is pending. -/
structure Cleared (w w' : World ρ cfg) : Prop where
  transmitted : ∀ e ∈ w.reportable, e ∈ acceptedEntries (since w.log w'.log) ∧
    ((acceptedEntries (since w.log w'.log)).map (·.address)).count e.address = 1
  nonePending : w'.reportable = []

variable [AsReading ρ]

variable (ρ cfg) in
/-- One cycle over a connected socket link that accepts every send, with no upsert during it, and
with a clock that does not wrap around. -/
def socketGuard (maxFragment : UInt8) : (cycles ρ cfg).Guard where
  call _ view _ := ∃ ans link, (socketLink maxFragment).isConnected link = true ∧
    view = (socketLink maxFragment).view ans link .noError
  other
    | .upsert .., _ => False
    | .tick seconds, w => w.uptime ≤ w.uptime + seconds
    | .dropReport, _ => True
  start _ := False

variable (ρ cfg) in
/-- Runs in which the clock does not wrap around. -/
def steadyClock : (cycles ρ cfg).Guard where
  call _ _ _ := True
  other
    | .tick seconds, w => w.uptime ≤ w.uptime + seconds
    | _, _ => True

/-- The records a fragment has room for. -/
def recordsPerFragment (maxFragment : UInt8) : Nat := (maxFragment.toNat - 12) / 26

/-- What one cycle over such a link does: it sends no record, when a fragment has no room for one,
else the first entries of the snapshot, as many as 255 fragments carry. -/
inductive Swept (maxFragment : UInt8) (w w' : World ρ cfg) : Prop where
  | headerOnly (noRoom : recordsPerFragment maxFragment = 0) (later : w.uptime ≤ w'.uptime)
    (table : w'.table.toTable = w.table.toTable)
    (accepted : acceptedEntries (since w.log w'.log) = [])
  | records (nowS : UInt32) (delivered : List (Entry ρ))
    (room : recordsPerFragment maxFragment ≠ 0) (began : w.uptime ≤ nowS) (later : nowS ≤ w'.uptime)
    (scanned : scanTimes (since w.log w'.log) = [nowS])
    (delivers : delivered = (w.table.entries.filter fun e =>
      e.Reportable cfg.deviceStaleAfterS nowS).take (255 * recordsPerFragment maxFragment))
    (accepted : (acceptedEntries (since w.log w'.log)).Perm delivered)
    (table : w'.table.toTable = w.table.acked (delivered.map (·.address)))

/-! ## The cycle over such a link -/

variable {maxFragment : UInt8} {w : World ρ cfg}

/-- A connected socket link answers both payload questions with its fragment size, and allows 255
transmissions. -/
theorem socketGuard_answers {o : CommsOp ρ} {view : LinkView}
    (hg : (socketGuard ρ cfg maxFragment).call o view w) :
    Answers maxFragment maxFragment 255 o (perform o view w).1 := by
  obtain ⟨ans, link, hconnected, rfl⟩ := hg
  have hsize : (socketLink maxFragment).getMaxPayloadSize ans link = maxFragment :=
    if_pos hconnected
  cases o with
  | isConnected => exact hconnected
  | getMaxPayloadSize => exact hsize
  | getAvailablePayloadSize => exact hsize
  | getMaxUplinksPerDispatch => rfl
  | _ => trivial

/-- A clock that was read for a snapshot was read since `w`. -/
def Stage.Stamp (w w' : World ρ cfg) : Stage ρ → Prop
  | .stamped _ nowS => w.uptime ≤ nowS ∧ nowS ≤ w'.uptime
  | _ => True

/-- Since `w`, the clock has not gone back, every send was accepted, and the snapshots were taken
with what the clock read. -/
structure Steady (w : World ρ cfg) (stage : Stage ρ) (w' : World ρ cfg) : Prop where
  later : w.uptime ≤ w'.uptime
  log : ∃ items, w'.log = items ++ w.log ∧
    (∀ uplink result, .sent uplink result ∈ items → result = .noError) ∧
    ∀ nowS ∈ scanTimes items, w.uptime ≤ nowS ∧ nowS ≤ w'.uptime
  stamp : stage.Stamp w w'

omit [AsReading ρ] in
theorem Round.stamp_ended {w' : World ρ cfg} (round : Round ρ) : round.ended.Stamp w w' :=
  Round.ended_cases _ (fun _ => trivial) fun _ => trivial

omit [AsReading ρ] in
theorem Round.stamp_stage {w' : World ρ cfg} (round : Round ρ) : round.stage.Stamp w w' :=
  Round.stage_cases _ (fun _ => trivial) fun _ => round.stamp_ended

omit [AsReading ρ] in
theorem Stage.Makes.stamp_next {stage : Stage ρ} {o : CommsOp ρ} (view : LinkView)
    {w' : World ρ cfg} (hmakes : stage.Makes cfg o) (hlater : w.uptime ≤ w'.uptime) :
    (stage.next cfg o (perform o view w').1).Stamp w (perform o view w').2 := by
  cases hmakes with
  | stamp => exact ⟨hlater, UInt32.le_refl _⟩
  | allowance | note => exact Round.stamp_stage _
  | link | rate | silence =>
    show Stage.Stamp _ _ (if _ then _ else _)
    split <;> trivial
  | packet | scan =>
    show Stage.Stamp _ _ (if _ then _ else if _ then _ else _)
    split
    · trivial
    · split <;> trivial
  | send =>
    show Stage.Stamp _ _ (if _ then _ else _)
    split
    · trivial
    · exact Round.stamp_ended _
  | _ => trivial

variable (ρ cfg) in
/-- A cycle over such a link goes on like this. -/
theorem steady_follows (w : World ρ cfg) :
    Follows (M := cycles ρ cfg) (cycleWatch ρ cfg) (socketGuard ρ cfg maxFragment) (Steady w) where
  stable := by
    intro stage x w' hg h
    obtain ⟨items, hlog, haccepted, htimes⟩ := h.log
    cases x with
    | upsert => exact hg.elim
    | dropReport => exact ⟨h.later, h.log, h.stamp⟩
    | tick seconds =>
      have hlate {nowS : UInt32} (hnow : w.uptime ≤ nowS ∧ nowS ≤ w'.uptime) :
          w.uptime ≤ nowS ∧ nowS ≤ w'.uptime + seconds :=
        ⟨hnow.1, UInt32.le_trans hnow.2 hg⟩
      refine ⟨UInt32.le_trans h.later hg, ⟨items, hlog, haccepted, fun nowS hnow =>
        hlate (htimes nowS hnow)⟩, ?_⟩
      cases stage with
      | stamped share nowS => exact hlate h.stamp
      | _ => trivial
  call := by
    intro stage o view w' hmakes hg h
    have hstamp := hmakes.stamp_next view h.later
    obtain ⟨items, hlog, haccepted, htimes⟩ := h.log
    cases o with
    | send uplink =>
      obtain ⟨ans, link, -, rfl⟩ := hg
      refine ⟨h.later, ⟨_ :: items, congrArg (_ :: ·) hlog, fun uplink' result hmem => ?_, htimes⟩,
        hstamp⟩
      rcases List.mem_cons.1 hmem with heq | hmem
      · cases heq
        rfl
      · exact haccepted uplink' result hmem
    | scan nowS =>
      have hnow : w.uptime ≤ nowS ∧ nowS ≤ w'.uptime := by
        cases hmakes
        exact h.stamp
      refine ⟨h.later, ⟨_ :: items, congrArg (_ :: ·) hlog, fun uplink result hmem => ?_,
        fun nowS' hmem => ?_⟩, hstamp⟩
      · rcases List.mem_cons.1 hmem with heq | hmem
        · cases heq
        · exact haccepted uplink result hmem
      · rcases List.mem_cons.1 hmem with rfl | hmem
        · exact hnow
        · exact htimes nowS' hmem
    | _ => exact ⟨h.later, ⟨items, hlog, haccepted, htimes⟩, hstamp⟩

omit [AsReading ρ] in
/-- The entries of the fragments from the `i`-th on, when all are accepted, are the next ones of the
snapshot. -/
theorem Fragments.entries_eq {snapshot : List (Entry ρ)} {r n i : Nat}
    {frags : List (Fragment ρ × LinkError)} (h : Fragments snapshot r n i frags)
    (hall : ∀ f ∈ frags, f.2 = .noError) :
    frags.flatMap (fun f => f.1.entries) = (snapshot.drop (i * r)).take ((n - i) * r) := by
  induction h with
  | done => rw [Nat.sub_self, Nat.zero_mul, List.take_zero]; rfl
  | refused _ _ hne => exact absurd (hall _ (.head _)) hne
  | @accepted i f rest hi hf _ ih =>
    have hshare : f.entries = (snapshot.drop (i * r)).take r := by
      rw [hf.entries, ← List.length_drop, ← List.take_take, List.take_length]
    have hsum : (n - i) * r = r + (n - (i + 1)) * r := by
      have hnext : n - i = n - (i + 1) + 1 := by omega
      rw [hnext, Nat.succ_mul]
      exact Nat.add_comm _ _
    rw [List.flatMap_cons, ih fun f hf => hall f (.tail _ hf), hshare, hsum, List.take_add,
      List.drop_drop, ← Nat.succ_mul]

omit [AsReading ρ] in
/-- Accepted fragments bring their entries to the network. -/
theorem acceptedEntries_frags {frags : List (Fragment ρ × LinkError)}
    (hall : ∀ f ∈ frags, f.2 = .noError) :
    (acceptedEntries (frags.map sentItem).reverse).Perm (frags.flatMap fun f => f.1.entries) := by
  have hitems : acceptedEntries (frags.map sentItem) = frags.flatMap fun f => f.1.entries := by
    unfold acceptedEntries
    rw [List.flatMap_map]
    refine List.flatMap_congr fun f hf => ?_
    exact if_pos (hall f hf)
  rw [← hitems]
  exact (List.reverse_perm _).flatMap_right _

/-- The entries of a snapshot that `n` fragments carry are those that 255 carry, when `n` are as
many as are needed and allowed. -/
theorem take_allowed {α : Type} (l : List α) {r : Nat} (hr : r ≠ 0) :
    l.take (min ((l.length + r - 1) / r) 255 * r) = l.take (255 * r) := by
  rcases Nat.le_total 255 ((l.length + r - 1) / r) with hle | hle
  · rw [Nat.min_eq_right hle]
  · have hneeded : l.length ≤ (l.length + r - 1) / r * r := by
      have hdiv := Nat.div_add_mod' (l.length + r - 1) r
      have hmod := Nat.mod_lt (l.length + r - 1) (Nat.pos_of_ne_zero hr)
      omega
    have hall := Nat.le_trans hneeded (Nat.mul_le_mul_right r hle)
    rw [Nat.min_eq_left hle, List.take_of_length_le hneeded, List.take_of_length_le hall]

omit [AsReading ρ] in
/-- When the fragments of a cycle are all accepted, they carry as much of the snapshot as goes into
255 fragments. -/
theorem Planned.entries_eq {snapshot : List (Entry ρ)} {frags : List (Fragment ρ × LinkError)}
    (h : Planned maxFragment 255 snapshot frags) (hall : ∀ f ∈ frags, f.2 = .noError)
    (hroom : recordsPerFragment maxFragment ≠ 0 ∨ snapshot = []) :
    frags.flatMap (fun f => f.1.entries) =
      snapshot.take (255 * recordsPerFragment maxFragment) := by
  by_cases hnil : snapshot = []
  · rw [hnil, List.take_nil, List.flatMap_eq_nil_iff]
    exact h.recordless hnil
  · rw [(h.fragments hnil).entries_eq hall, Nat.zero_mul, List.drop_zero, Nat.sub_zero]
    exact take_allowed snapshot (hroom.resolve_right hnil)

omit [AsReading ρ] in
theorem delivered_frags {frags : List (Fragment ρ × LinkError)}
    (hall : ∀ f ∈ frags, f.2 = .noError) :
    frags.flatMap deliveredBy = (frags.flatMap fun f => f.1.entries).map (·.address) := by
  rw [List.map_flatMap]
  exact List.flatMap_congr fun f hf => if_pos (hall f hf)

omit [AsReading ρ] in
/-- Fragments are no snapshots. -/
theorem scanTimes_frags (frags : List (Fragment ρ × LinkError)) :
    scanTimes (frags.map sentItem).reverse = [] := by
  rw [scanTimes, List.filterMap_eq_nil_iff]
  intro item hitem
  obtain ⟨f, -, rfl⟩ := List.mem_map.1 (List.mem_reverse.1 hitem)
  rfl

omit [AsReading ρ] in
/-- What a cycle over such a link has done. -/
theorem CycleDone.swept {w' : World ρ cfg}
    (h : CycleDone maxFragment 255 w w'.table.toTable w'.log) (hsteady : Steady w .finished w') :
    Swept maxFragment w w' := by
  obtain ⟨snapshot, frags, ⟨⟨base, hbase, hlog⟩, htable⟩, hplanned⟩ := h
  obtain ⟨items, hitems, haccepted, htimes⟩ := hsteady.log
  have hall (hsub : (frags.map sentItem).reverse ⊆ items) (f : Fragment ρ × LinkError)
      (hf : f ∈ frags) : f.2 = .noError :=
    haccepted _ _ (hsub (List.mem_reverse.2 (List.mem_map.2 ⟨f, hf, rfl⟩)))
  cases hbase with
  | bare hnone =>
    obtain rfl : items = (frags.map sentItem).reverse :=
      List.append_cancel_right (hitems.symm.trans hlog)
    have hall := hall (List.Subset.refl _)
    have hentries := hplanned.entries_eq hall (.inr rfl)
    rw [List.take_nil] at hentries
    refine .headerOnly ?_ hsteady.later ?_ ?_
    · unfold recordsPerFragment
      omega
    · rw [htable, delivered_frags hall, hentries, List.map_nil, Table.acked_nil]
    · rw [hlog, since_append]
      exact (hentries ▸ acceptedEntries_frags hall).eq_nil
  | scanned nowS hroom hscan =>
    rw [List.append_cons] at hlog
    obtain rfl := List.append_cancel_right (hitems.symm.trans hlog)
    have hroom' : recordsPerFragment maxFragment ≠ 0 := by
      unfold recordsPerFragment
      omega
    have hall := hall (List.subset_append_left _ _)
    have hentries := hplanned.entries_eq hall (.inl hroom')
    have hscans : scanTimes ((frags.map sentItem).reverse ++
        [.scanned w.table.toTable nowS snapshot]) = [nowS] := by
      rw [scanTimes, List.filterMap_append]
      exact congrArg (· ++ [nowS]) (scanTimes_frags frags)
    obtain ⟨hbegan, hlater⟩ := htimes nowS (hscans ▸ .head _)
    rw [w.table.wf.scan_eq_filter] at hscan
    refine .records nowS (snapshot.take (255 * recordsPerFragment maxFragment)) hroom' hbegan
      hlater ?_ (by rw [hscan]) ?_ ?_
    · rw [hlog, since_append, hscans]
    · rw [hlog, since_append, acceptedEntries, List.flatMap_append, ← hentries]
      exact (List.append_nil _).symm ▸ acceptedEntries_frags hall
    · rw [htable, delivered_frags hall, hentries]

/-- What a cycle over such a link has done then. -/
theorem cycle_swept (hfragment : 32 ≤ maxFragment.toNat) {c : (cycles ρ cfg).Conf}
    (hc : Reach (socketGuard ρ cfg maxFragment) ⟨w, some (dispatch cfg)⟩ c)
    (hnone : c.running = none) : Swept maxFragment w c.state := by
  have hother (x : Act) (w : World ρ cfg) (hx : (socketGuard ρ cfg maxFragment).other x w) :
      (quietGuard ρ cfg maxFragment maxFragment 255).other x w := by
    cases x with
    | upsert => exact hx
    | tick => trivial
    | dropReport => trivial
  have hquiet := fragmented_follows ρ cfg 255 (by omega) (UInt8.le_refl maxFragment) w
  have hboth := (hquiet.guard (fun _ _ _ hg => socketGuard_answers hg) hother).and
    (steady_follows ρ cfg w)
  obtain ⟨hdone, hsteady⟩ := hboth.ended (fun _ hg => hg) (fun _ h => h) (dispatch_stages ρ cfg)
    ⟨⟨rfl, rfl⟩, UInt32.le_refl _, ⟨[], rfl, nofun, nofun⟩, trivial⟩ hc hnone
  exact hdone.swept hsteady

/-! ## What is left pending -/

/-- No device was last seen after now. -/
def SeenBefore (w : World ρ cfg) : Prop :=
  ∀ e ∈ w.table.entries, e.inUse = true → e.lastSeenUptimeS ≤ w.uptime

/-- The others keep it, while the clock does not wrap around. -/
theorem seenBefore_stable : Stable (steadyClock ρ cfg) SeenBefore := by
  intro x w hg h e he huse
  cases x with
  | upsert address rssi reading =>
    rcases w.table.wf.mem_upsert he with ⟨b, -, -, rfl⟩ | ⟨hold, -⟩
    · exact UInt32.le_refl _
    · exact h e hold huse
  | tick seconds => exact UInt32.le_trans (h e he huse) hg
  | dropReport => exact h e he huse

omit [AsReading ρ] in
/-- So does every call: an acknowledgement does not touch the time. -/
theorem perform_seenBefore (o : CommsOp ρ) (view : LinkView) (h : SeenBefore w) :
    SeenBefore (perform o view w).2 := by
  cases o with
  | markReported copy =>
    intro e he huse
    rcases w.table.wf.mem_markReported he with ⟨e₀, he₀, -, -, rfl⟩ | ⟨hold, -⟩
    · exact h e₀ he₀ huse
    · exact h e hold huse
  | _ => exact h

/-- So it holds in every run. -/
theorem reach_seenBefore {c : (cycles ρ cfg).Conf} (hc : Reach (steadyClock ρ cfg) booted c) :
    SeenBefore c.state := by
  have hboot : SeenBefore (booted : (cycles ρ cfg).Conf).state :=
    fun e he huse => absurd huse (World.boot_free he)
  refine hc.kept seenBefore_stable (fun o view w _ => perform_seenBefore o view)
    (fun w p w' h hstart => ?_) (fun _ h => h) rfl hboot
  cases hstart
  exact h

omit [AsReading ρ] in
/-- A device that is fresh at some time was so before, back to when it was last seen. -/
theorem fresh_before {staleAfterS nowS laterS : UInt32} {e : Entry ρ}
    (hseen : e.lastSeenUptimeS ≤ nowS) (hlater : nowS ≤ laterS) (h : e.Fresh staleAfterS laterS) :
    e.Fresh staleAfterS nowS := by
  have hle := UInt32.le_iff_toNat_le.1 hseen
  have hlater' := UInt32.le_iff_toNat_le.1 hlater
  unfold Entry.Fresh at h ⊢
  rw [gt_iff_lt, UInt32.lt_iff_toNat_lt, UInt32.toNat_sub_of_le _ _ hseen]
  rw [gt_iff_lt, UInt32.lt_iff_toNat_lt,
    UInt32.toNat_sub_of_le _ _ (UInt32.le_trans hseen hlater)] at h
  omega

omit [AsReading ρ] in
theorem mem_reportable {e : Entry ρ} : e ∈ w.reportable ↔
    e ∈ w.table.entries ∧ e.Reportable cfg.deviceStaleAfterS w.uptime := by
  rw [World.reportable, List.mem_filter, decide_eq_true_iff]

omit [AsReading ρ] in
/-- What is fresh and pending after some acknowledgements was so before, and is none of these. -/
theorem reportable_before {w' : World ρ cfg} {addresses : List Address} (hseen : SeenBefore w)
    (hlater : w.uptime ≤ w'.uptime) (htable : w'.table.toTable = w.table.acked addresses)
    {e : Entry ρ} (he : e ∈ w'.reportable) : e ∈ w.reportable ∧ e.address ∉ addresses := by
  obtain ⟨hmem, huse, hfresh, hpending⟩ := mem_reportable.1 he
  have hleft : e ∈ (w.table.acked addresses).pending := by
    rw [← htable, Table.pending, List.mem_filter, decide_eq_true_iff]
    exact ⟨hmem, huse, hpending⟩
  rw [Table.pending_acked, List.mem_filter, decide_eq_true_iff, Table.pending, List.mem_filter,
    decide_eq_true_iff] at hleft
  obtain ⟨⟨hmem, huse, hpending⟩, hnot⟩ := hleft
  exact ⟨mem_reportable.2 ⟨hmem, huse, fresh_before (hseen e hmem huse) hlater hfresh, hpending⟩,
    hnot⟩

omit [AsReading ρ] in
/-- A cycle that sends no record clears the table only when there is nothing to report. -/
theorem cleared_headerOnly {w' : World ρ cfg} (hseen : SeenBefore w) (hlater : w.uptime ≤ w'.uptime)
    (htable : w'.table.toTable = w.table.toTable)
    (haccepted : acceptedEntries (since w.log w'.log) = []) :
    Cleared w w' ↔ w.reportable = [] := by
  have hacked : w'.table.toTable = w.table.acked [] := by rw [Table.acked_nil, htable]
  constructor
  · intro hcleared
    refine List.eq_nil_iff_forall_not_mem.2 fun e he => ?_
    have hsent := (hcleared.transmitted e he).1
    rw [haccepted] at hsent
    cases hsent
  · intro hnone
    refine ⟨fun e he => ?_, List.eq_nil_iff_forall_not_mem.2 fun e he => ?_⟩
    · rw [hnone] at he
      cases he
    · have hbefore := (reportable_before hseen hlater hacked he).1
      rw [hnone] at hbefore
      cases hbefore

omit [AsReading ρ] in
/-- A cycle that delivers and acknowledges part of the snapshot clears the table when every device
to report is in it. -/
theorem cleared_records {w' : World ρ cfg} {delivered : List (Entry ρ)} (hseen : SeenBefore w)
    (hlater : w.uptime ≤ w'.uptime) (hnodup : (delivered.map (·.address)).Nodup)
    (haccepted : (acceptedEntries (since w.log w'.log)).Perm delivered)
    (htable : w'.table.toTable = w.table.acked (delivered.map (·.address))) :
    Cleared w w' ↔ w.reportable ⊆ delivered := by
  constructor
  · exact fun hcleared e he => haccepted.mem_iff.1 (hcleared.transmitted e he).1
  · intro hsub
    refine ⟨fun e he => ⟨haccepted.mem_iff.2 (hsub he), ?_⟩,
      List.eq_nil_iff_forall_not_mem.2 fun e he => ?_⟩
    · rw [(haccepted.map (·.address)).count_eq]
      exact List.count_eq_one_of_mem hnodup (List.mem_map_of_mem (hsub he))
    · obtain ⟨hbefore, hnot⟩ := reportable_before hseen hlater htable he
      exact hnot (List.mem_map_of_mem (hsub hbefore))

omit [AsReading ρ] in
/-- The part of a snapshot that goes into 255 fragments has every device to report when there is
room for all and none has gone stale. -/
theorem reportable_subset_iff (hseen : SeenBefore w) {nowS : UInt32} (hbegan : w.uptime ≤ nowS)
    (n : Nat) :
    w.reportable ⊆ (w.table.entries.filter fun e =>
      e.Reportable cfg.deviceStaleAfterS nowS).take n ↔
    w.reportable.length ≤ n ∧ ∀ e ∈ w.reportable, e.Fresh cfg.deviceStaleAfterS nowS := by
  constructor
  · intro hsub
    have hnodup : w.reportable.Nodup := List.Nodup.of_map _ (nodup_scan w.table.wf _ _)
    refine ⟨Nat.le_trans (hnodup.subperm hsub).length_le (List.length_take_le _ _),
      fun e he => ?_⟩
    have hmem := List.mem_of_mem_take (hsub he)
    rw [List.mem_filter, decide_eq_true_iff] at hmem
    exact hmem.2.2.1
  · rintro ⟨hlength, hfresh⟩
    have hsame : (w.table.entries.filter fun e => e.Reportable cfg.deviceStaleAfterS nowS) =
        w.reportable := by
      refine List.filter_congr fun e he => decide_eq_decide.2 ⟨fun hrep => ?_, fun hrep => ?_⟩
      · exact ⟨hrep.1, fresh_before (hseen e he hrep.1) hbegan hrep.2.1, hrep.2.2⟩
      · exact ⟨hrep.1, hfresh e (mem_reportable.2 ⟨he, hrep⟩), hrep.2.2⟩
    rw [hsame, List.take_of_length_le hlength]
    exact List.Subset.refl _

omit [AsReading ρ] in
/-- Where a cycle clears the table: there is nothing to report, or a fragment has room for a record,
255 fragments have room for all, and no device goes stale before the snapshot reads the clock. -/
theorem cleared_iff {w' : World ρ cfg} (hseen : SeenBefore w) (h : Swept maxFragment w w') :
    Cleared w w' ↔ w.reportable = [] ∨
      38 ≤ maxFragment.toNat ∧
      w.reportable.length ≤ 255 * recordsPerFragment maxFragment ∧
      ∀ nowS ∈ scanTimes (since w.log w'.log), ∀ e ∈ w.reportable,
        e.Fresh cfg.deviceStaleAfterS nowS := by
  have hroom : 38 ≤ maxFragment.toNat ↔ recordsPerFragment maxFragment ≠ 0 := by
    unfold recordsPerFragment
    omega
  rw [hroom]
  cases h with
  | headerOnly noRoom later table accepted =>
    rw [cleared_headerOnly hseen later table accepted]
    exact ⟨.inl, fun h => h.elim id fun h => absurd noRoom h.1⟩
  | records nowS delivered room began later scanned delivers accepted table =>
    have hnodup : (delivered.map (·.address)).Nodup := by
      rw [delivers]
      exact (nodup_scan w.table.wf _ _).sublist (List.Sublist.map _ (List.take_sublist _ _))
    have hnow : (∀ now ∈ scanTimes (since w.log w'.log), ∀ e ∈ w.reportable,
        e.Fresh cfg.deviceStaleAfterS now) ↔
          ∀ e ∈ w.reportable, e.Fresh cfg.deviceStaleAfterS nowS := by
      rw [scanned]
      exact List.forall_mem_singleton
    rw [cleared_records hseen (UInt32.le_trans began later) hnodup accepted table, delivers,
      reportable_subset_iff hseen began, hnow]
    refine ⟨fun h => .inr ⟨room, h⟩, fun h => h.elim (fun hnone => ?_) And.right⟩
    rw [hnone]
    exact ⟨Nat.zero_le _, fun _ he => (nomatch he)⟩

/-- A cycle over such a link runs to its end. -/
theorem cycle_ends (maxFragment : UInt8) (w : World ρ cfg) :
    ∃ c, Reach (socketGuard ρ cfg maxFragment) ⟨w, some (dispatch cfg)⟩ c ∧ c.running = none := by
  refine finishes (G := socketGuard ρ cfg maxFragment) (fun o w => ?_) (dispatch cfg) w
  exact ⟨_, ⟨0, 0, 0, fun _ => 1⟩, ⟨0, true, []⟩, rfl, rfl⟩

/-- **What one cycle clears.** From every reachable state, one cycle over a connected socket link
that accepts every send, with no upsert during it, runs to its end; and then every device that was
fresh and pending has been transmitted exactly once and no fresh device is pending, exactly where
there was nothing to report, or a fragment has room for a record, 255 fragments have room for all,
and no device goes stale before the snapshot reads the clock. -/
theorem oneCycle_clears_iff (hfragment : 32 ≤ maxFragment.toNat)
    (hw : Reach (steadyClock ρ cfg) booted ⟨w, none⟩) :
    (∃ c, Reach (socketGuard ρ cfg maxFragment) ⟨w, some (dispatch cfg)⟩ c ∧ c.running = none) ∧
    ∀ c, Reach (socketGuard ρ cfg maxFragment) ⟨w, some (dispatch cfg)⟩ c → c.running = none →
      (Cleared w c.state ↔ w.reportable = [] ∨
        38 ≤ maxFragment.toNat ∧
        w.reportable.length ≤ 255 * recordsPerFragment maxFragment ∧
        ∀ nowS ∈ scanTimes (since w.log c.state.log), ∀ e ∈ w.reportable,
          e.Fresh cfg.deviceStaleAfterS nowS) :=
  ⟨cycle_ends maxFragment w, fun _ hc hnone =>
    cleared_iff (reach_seenBefore hw) (cycle_swept hfragment hc hnone)⟩

end

theorem heardOnce_reached : Reach (steadyClock Reading (.ofDevices 1)) booted ⟨heardOnce, none⟩ :=
  Reach.refl.step (l := .other (.upsert (.ofByte 1) (-50) default)) trivial rfl

/-- The widest fragment clears it within the hour. -/
theorem oneCycle_clears_iff_one :
    ∃ c : (cycles Reading (.ofDevices 1)).Conf,
      Reach (socketGuard Reading (.ofDevices 1) 242) ⟨heardOnce, some (dispatch (.ofDevices 1))⟩ c ∧
      c.running = none ∧
      ((∀ nowS ∈ scanTimes (since heardOnce.log c.state.log), nowS ≤ 3600) →
        Cleared heardOnce c.state) := by
  have hfragment : 32 ≤ (242 : UInt8).toNat := by decide
  obtain ⟨⟨c, hc, hnone⟩, hall⟩ := oneCycle_clears_iff hfragment heardOnce_reached
  have hroom : heardOnce.reportable.length ≤ 255 * recordsPerFragment 242 := by decide
  have hboot : ∀ e ∈ heardOnce.reportable, e.lastSeenUptimeS = 0 := by decide
  refine ⟨c, hc, hnone, fun hsoon => (hall c hc hnone).2 (.inr ⟨by decide, hroom, ?_⟩)⟩
  intro nowS hnow e he
  have hle := hsoon nowS hnow
  unfold Entry.Fresh
  rw [hboot e he, UInt32.sub_zero]
  exact UInt32.not_lt.2 hle

/-- The narrowest one has no room for a record. -/
theorem oneCycle_fails :
    ∃ c : (cycles Reading (.ofDevices 1)).Conf,
      Reach (socketGuard Reading (.ofDevices 1) 32) ⟨heardOnce, some (dispatch (.ofDevices 1))⟩ c ∧
      c.running = none ∧ ¬ Cleared heardOnce c.state := by
  obtain ⟨c, hc, hnone⟩ := cycle_ends 32 heardOnce
  refine ⟨c, hc, hnone, fun hcleared => ?_⟩
  rcases (cleared_iff (reach_seenBefore heardOnce_reached)
    (cycle_swept (by decide) hc hnone)).1 hcleared with hempty | ⟨hroom, -⟩
  · exact absurd hempty (by decide)
  · exact absurd hroom (by decide)

end Concentrator.Comms
