import Concentrator.Comms.OneCycle
import Concentrator.Comms.Course

/-!
# What a heartbeat says

On the wire the HEARTBEAT flag says that there is nothing new to report. A cycle sets it in two
places: when the snapshot is empty, and when the packet has room for a header but not for a record.
In the second it has not looked at the table. `Honest` says what the far end may conclude from the
flag, and `heartbeatsHonest_iff` when it may.

A statement about the moment of a send is one about the history, which keeps the state that each
call was made in.
-/

namespace Concentrator.Comms

open Threaded

variable {ρ : Type} {cfg : Config}

/-- A fragment handed over in `w` says what is so: with the flag, no device is fresh and pending,
and without it, there is a record. -/
structure Honest (f : Fragment ρ) (w : World ρ cfg) : Prop where
  quiet : f.header.flags &&& UplinkFlags.HEARTBEAT ≠ 0 → w.reportable = []
  carries : f.header.flags &&& UplinkFlags.HEARTBEAT = 0 → f.entries ≠ []

/-- Time passes without an age wrapping around. -/
def World.Ages (w : World ρ cfg) (seconds : UInt32) : Prop :=
  ∀ e ∈ w.table.entries, e.inUse = true →
    w.uptime - e.lastSeenUptimeS ≤ w.uptime + seconds - e.lastSeenUptimeS

/-- No age has wrapped around since the clock was `nowS`. -/
def World.Older (w : World ρ cfg) (nowS : UInt32) : Prop :=
  ∀ e ∈ w.table.entries, e.inUse = true → nowS - e.lastSeenUptimeS ≤ w.uptime - e.lastSeenUptimeS

/-- What was not reportable before is not now. -/
theorem World.Older.reportable {w : World ρ cfg} {nowS : UInt32} (h : w.Older nowS)
    (hnone : ∀ e ∈ w.table.entries, ¬ e.Reportable cfg.deviceStaleAfterS nowS) :
    w.reportable = [] := by
  refine List.eq_nil_iff_forall_not_mem.2 fun e he => ?_
  obtain ⟨hmem, huse, hfresh, hpending⟩ := mem_reportable.1 he
  refine hnone e hmem ⟨huse, fun hstale => hfresh ?_, hpending⟩
  exact UInt32.lt_of_lt_of_le hstale (h e hmem huse)

variable [AsReading ρ]

/-- Every fragment of a history was honest when it was handed over. -/
def AllHonest (history : List (Noted (cycles ρ cfg))) : Prop :=
  ∀ f result w, .call (.send (.fragment f)) result w ∈ history → Honest f w

variable (ρ cfg) in
/-- One cycle that is given these answers, whatever the others are, with no upsert during it. -/
def givenAnswers (connected : Bool) (rateCeiling available : UInt8) : (recorded ρ cfg).Guard where
  call
    | .isConnected, view, _ => view.isConnected = connected
    | .getMaxPayloadSize, view, _ => view.maxPayloadSize = rateCeiling
    | .getAvailablePayloadSize, view, _ => view.availablePayloadSize = available
    | _, _, _ => True
  other
    | .upsert .., _ => False
    | .tick seconds, s => s.1.Ages seconds
    | .dropReport, _ => True
  start _ := False

/-- However a cycle that begins in `w` and is given these answers goes on, its fragments are
honest. -/
def HeartbeatsHonest (connected : Bool) (rateCeiling available : UInt8) (w : World ρ cfg) : Prop :=
  ∀ c, Reach (givenAnswers ρ cfg connected rateCeiling available)
    ⟨(w, []), some (dispatch cfg)⟩ c → AllHonest c.state.2

variable {connected : Bool} {rateCeiling available : UInt8} {w : World ρ cfg}

/-- Where there was nothing to report, there still is not. -/
theorem stable_quiet : Stable (givenAnswers ρ cfg connected rateCeiling available)
    fun s => s.1.reportable = [] := by
  intro x s hg h
  cases x with
  | upsert => exact hg.elim
  | tick seconds =>
    refine World.Older.reportable hg fun e he hrep => ?_
    rw [List.eq_nil_iff_forall_not_mem] at h
    exact h e (mem_reportable.2 ⟨he, hrep⟩)
  | dropReport => exact h

/-- Ages that have not wrapped around do not. -/
theorem stable_older (nowS : UInt32) : Stable (givenAnswers ρ cfg connected rateCeiling available)
    fun s => s.1.Older nowS := by
  intro x s hg h
  cases x with
  | upsert => exact hg.elim
  | tick seconds => exact fun e he huse => UInt32.le_trans (h e he huse) (hg e he huse)
  | dropReport => exact h

/-- What is known about the table in each phase of a cycle. -/
def QuietPhase (connected : Bool) (rateCeiling : UInt8) (w : World ρ cfg) :
    Phase ρ → (recorded ρ cfg).State → Prop
  | .begun, s => w.reportable = [] → s.1.reportable = []
  | .connected, s => connected = true ∧ (w.reportable = [] → s.1.reportable = [])
  | .usable, s => (connected = true ∧ 12 < rateCeiling.toNat) ∧
      (w.reportable = [] → s.1.reportable = [])
  | .stamped nowS, s => s.1.Older nowS
  | .taken snapshot, s | .numbered snapshot, s | .clocked snapshot _, s =>
    snapshot = [] → s.1.reportable = []
  | .asked _, s => s.1.reportable = []
  | .sending p index _, s => p.isHeartbeat = true →
      p.fragmentCount = 1 ∧ (index = 0 → s.1.reportable = [])
  | .noting p _ _ _, _ | .noted p _ _ _, _ => p.isHeartbeat = true → p.fragmentCount = 1
  | _, _ => True

/-- The history is honest, and this is known about the table. -/
structure HonestPhase (connected : Bool) (rateCeiling : UInt8) (w : World ρ cfg) (ph : Phase ρ)
    (s : (recorded ρ cfg).State) : Prop where
  honest : AllHonest s.2
  quiet : QuietPhase connected rateCeiling w ph s

theorem honestPhase_stable {ph : Phase ρ} :
    Stable (givenAnswers ρ cfg connected rateCeiling available)
      (HonestPhase connected rateCeiling w ph) := by
  intro x s hg h
  refine ⟨h.honest, ?_⟩
  have hquiet := h.quiet
  cases ph with
  | begun => exact fun hw => stable_quiet x s hg (hquiet hw)
  | connected => exact ⟨hquiet.1, fun hw => stable_quiet x s hg (hquiet.2 hw)⟩
  | usable => exact ⟨hquiet.1, fun hw => stable_quiet x s hg (hquiet.2 hw)⟩
  | stamped nowS => exact stable_older nowS x s hg hquiet
  | taken | numbered | clocked => exact fun hnil => stable_quiet x s hg (hquiet hnil)
  | asked => exact stable_quiet x s hg hquiet
  | sending => exact fun hb => ⟨(hquiet hb).1, fun h0 => stable_quiet x s hg ((hquiet hb).2 h0)⟩
  | _ => exact hquiet

/-- Any other call than handing over a fragment leaves the history honest. -/
theorem AllHonest.cons {history : List (Noted (cycles ρ cfg))} (h : AllHonest history)
    {o : CommsOp ρ} {answer : o.Res} {w : World ρ cfg} (ho : ∀ f, o ≠ .send (.fragment f)) :
    AllHonest (.call o answer w :: history) := by
  intro f result w' hmem
  rcases List.mem_cons.1 hmem with heq | hmem
  · cases heq
    exact (ho f rfl).elim
  · exact h f result w' hmem

theorem AllHonest.send {history : List (Noted (cycles ρ cfg))} (h : AllHonest history)
    {f : Fragment ρ} {result : LinkError} {w : World ρ cfg} (hf : Honest f w) :
    AllHonest (.call (.send (.fragment f)) result w :: history) := by
  intro f' result' w' hmem
  rcases List.mem_cons.1 hmem with heq | hmem
  · cases heq
    exact hf
  · exact h f' result' w' hmem

omit [AsReading ρ] in
/-- A fragment that is sent where a heartbeat finds nothing to report is honest. -/
theorem honest_fragment {p : Plan} {index count : UInt8} {rest : List (Entry ρ)}
    (hshare : p.Share rest count) {w : World ρ cfg}
    (hquiet : p.isHeartbeat = true → w.reportable = []) (droppedReports evicted : UInt16) :
    Honest (p.fragment cfg w.statics droppedReports evicted count index rest) w := by
  refine ⟨fun hflag => hquiet ((uplinkFlags_heartbeat _ _ _).1 hflag), fun hflag => ?_⟩
  have hrecords : p.isHeartbeat = false := by
    rw [← Bool.not_eq_true, ← uplinkFlags_heartbeat cfg w.statics]
    exact not_not_intro hflag
  rw [Plan.Share, hrecords] at hshare
  have hlength : (rest.take count.toNat).length = count.toNat :=
    List.length_take_of_le hshare.2
  exact List.ne_nil_of_length_pos (hlength ▸ hshare.1)

/-- A heartbeat is the only fragment of its cycle. -/
theorem HonestPhase.quiet_sending {p : Plan} {index : UInt8} {rest : List (Entry ρ)}
    {s : (recorded ρ cfg).State}
    (h : HonestPhase connected rateCeiling w (.sending p index rest) s)
    (hindex : index < p.fragmentCount) (hb : p.isHeartbeat = true) : s.1.reportable = [] := by
  obtain ⟨hone, hquiet⟩ := h.quiet hb
  refine hquiet (UInt8.toNat_inj.1 ?_)
  have hlt := UInt8.lt_iff_toNat_lt.1 hindex
  rw [hone, UInt8.toNat_one] at hlt
  rw [UInt8.toNat_zero]
  omega

/-- A cycle that sends a header alone although there is something to report. -/
def Squeezed (connected : Bool) (rateCeiling available : UInt8) (w : World ρ cfg) : Prop :=
  connected = true ∧ 12 < rateCeiling.toNat ∧ 12 < available.toNat ∧ available.toNat < 38 ∧
    w.reportable ≠ []

/-- Unless it is squeezed, a cycle is honest. -/
theorem honestPhase_course (hw : ¬ Squeezed connected rateCeiling available w) :
    Course (givenAnswers ρ cfg connected rateCeiling available)
      (HonestPhase connected rateCeiling w) where
  stable := honestPhase_stable
  quiet {ph s} o view ho hg h := by
    have honest : AllHonest ((recorded ρ cfg).perform o view s).2.2 := by
      refine h.honest.cons fun f heq => ?_
      rw [heq] at ho
      exact ho
    refine ⟨honest, ?_⟩
    have hquiet := h.quiet
    cases o with
    | statics | getDroppedReportCount | getEvictedCount => cases ph <;> exact hquiet
    | _ => exact ho.elim
  began hg _ := hg.elim
  link view hg h := by
    have hquiet := h.quiet
    split
    · next hup => exact ⟨h.honest.cons nofun, hg ▸ hup, hquiet⟩
    · exact ⟨h.honest.cons nofun, trivial⟩
  rate view hg h := by
    have hquiet := h.quiet
    split
    · exact ⟨h.honest.cons nofun, trivial⟩
    · next hroom => exact ⟨h.honest.cons nofun, ⟨hquiet.1, hg ▸ Nat.lt_of_not_le hroom⟩, hquiet.2⟩
  packet view hg h := by
    have hquiet := h.quiet
    split
    · exact ⟨h.honest.cons nofun, trivial⟩
    next hheader =>
    split
    · next hrecord =>
      refine ⟨h.honest.cons nofun, fun _ => hquiet.2 ?_⟩
      by_contra hsome
      rw [show view.availablePayloadSize = available from hg] at hheader hrecord
      exact hw ⟨hquiet.1.1, hquiet.1.2, Nat.lt_of_not_le hheader, hrecord, hsome⟩
    · exact ⟨h.honest.cons nofun, trivial⟩
  probe _ h := ⟨h.honest.cons nofun, trivial⟩
  stamp _ h := ⟨h.honest.cons nofun, fun _ _ _ => UInt32.le_refl _⟩
  scan {s nowS} view h := by
    refine ⟨h.honest.cons nofun, fun hnil => ?_⟩
    have hscan := s.1.table.wf.scan_eq_filter cfg.deviceStaleAfterS nowS
    refine World.Older.reportable h.quiet fun e he hrep => ?_
    have hmem : e ∈ s.1.table.scan cfg.deviceStaleAfterS nowS cfg.maxDevices := by
      rw [hscan]
      exact List.mem_filter.2 ⟨he, decide_eq_true hrep⟩
    rw [show s.1.table.scan _ _ _ = [] from hnil] at hmem
    cases hmem
  disabled _ h := ⟨h.honest, trivial⟩
  ask _ h := ⟨h.honest.cons nofun, h.quiet rfl⟩
  silent _ h := ⟨h.honest, trivial⟩
  due _ h := ⟨h.honest, fun _ => h.quiet⟩
  number _ h := ⟨h.honest.cons nofun, h.quiet⟩
  clock _ h := ⟨h.honest.cons nofun, h.quiet⟩
  header _ h := ⟨h.honest, fun _ => ⟨rfl, fun _ => h.quiet rfl⟩⟩
  headerAt h := ⟨h.honest, fun _ => ⟨rfl, fun _ => h.quiet rfl⟩⟩
  plan _ _ _ _ _ h := ⟨h.honest.cons nofun, fun hb => nomatch hb⟩
  accept dropped evicted _ hindex hshare _ h :=
    ⟨h.honest.send (honest_fragment hshare (h.quiet_sending hindex) dropped evicted),
      fun hb => (h.quiet hb).1⟩
  refuse dropped evicted _ hindex hshare _ h :=
    ⟨h.honest.send (honest_fragment hshare (h.quiet_sending hindex) dropped evicted), trivial⟩
  mark _ _ h := ⟨h.honest.cons nofun, h.quiet⟩
  read _ h := ⟨h.honest.cons nofun, h.quiet⟩
  note {s p index rest sentAt} _ hindex h := by
    refine ⟨h.honest.cons nofun, fun hb => ⟨h.quiet hb, fun hzero => ?_⟩⟩
    have hzero := congrArg UInt8.toNat hzero
    rw [toNat_nextIndex hindex] at hzero
    exact absurd hzero (Nat.succ_ne_zero _)
  finish _ h := ⟨h.honest, trivial⟩
  boot _ h := ⟨h.honest.cons nofun, trivial⟩
  leave h := ⟨h.honest, trivial⟩

/-- A cycle may make its next call with any answer that the guard allows. -/
theorem exists_recorded {G : (recorded ρ cfg).Guard} {o : CommsOp ρ}
    {k : o.Res → CommsProg ρ Unit} {history : List (Noted (cycles ρ cfg))}
    {P : (recorded ρ cfg).Conf → Prop} {answer : o.Res} {w w' : World ρ cfg} (view : LinkView)
    (hp : perform o view w = (answer, w')) (hg : G.call o view (w, history))
    (h : ∃ c, Reach G (resume (k answer) (w', .call o answer w :: history)) c ∧ P c) :
    ∃ c, Reach G (resume (call o >>= k) (w, history)) c ∧ P c := by
  obtain ⟨c, hreach, hc⟩ := h
  refine ⟨c, Reach.call view hg ?_, hc⟩
  show Reach G (resume (k (perform o view w).1)
    ((perform o view w).2, .call o (perform o view w).1 w :: history)) c
  rwa [hp]

/-- The heartbeat of a squeezed cycle, begun in `w`. -/
def squeezedHeartbeat (w : World ρ cfg) : Fragment ρ where
  header := uplinkHeader cfg { w.statics with sequence := w.statics.sequence + 1 }
    w.droppedReportCount w.table.evictedCount 0 0 1 true
  entries := []
  nowS := w.uptime

/-- A squeezed cycle hands its heartbeat over without having looked at the table. -/
theorem exists_squeezedHeartbeat (hrate : 12 < rateCeiling.toNat) (hheader : 12 < available.toNat)
    (hrecord : available.toNat < 38) (w : World ρ cfg) :
    ∃ c, Reach (givenAnswers ρ cfg true rateCeiling available)
        ⟨(w, []), some (dispatch cfg)⟩ c ∧
      ∃ w', w'.reportable = w.reportable ∧
        .call (.send (.fragment (squeezedHeartbeat w))) LinkError.sendError w' ∈ c.state.2 := by
  let view : LinkView := ⟨true, rateCeiling, available, 1, .sendError⟩
  let w' : World ρ cfg :=
    { w with statics := { w.statics with sequence := w.statics.sequence + 1 } }
  have hnone : UInt8.ofNat ((available.toNat - UplinkHeader.layout.size) /
      EndpointRecord.layout.size) = 0 := by
    rw [layout_sizes.1, layout_sizes.2, Nat.div_eq_of_lt (by omega)]
    rfl
  show ∃ c, Reach (givenAnswers ρ cfg true rateCeiling available)
    (resume (dispatch cfg) (w, [])) c ∧ _
  unfold dispatch
  refine exists_recorded view (rfl : _ = (true, w)) rfl ?_
  rw [if_neg (by decide)]
  refine exists_recorded view (rfl : _ = (rateCeiling, w)) rfl ?_
  rw [if_neg (by rw [layout_sizes.1]; omega)]
  refine exists_recorded view (rfl : _ = (available, w)) rfl ?_
  rw [if_neg (by rw [layout_sizes.1]; omega)]
  dsimp only
  rw [if_pos hnone]
  unfold sendHeaderOnly sendFragment
  refine exists_recorded view (rfl : _ = ((), w')) trivial ?_
  refine exists_recorded view (rfl : _ = (w.uptime, w')) trivial ?_
  refine exists_recorded view (rfl : _ = (w'.statics, w')) trivial ?_
  refine exists_recorded view (rfl : _ = (w.droppedReportCount, w')) trivial ?_
  refine exists_recorded view (rfl : _ = (w.table.evictedCount, w')) trivial ?_
  refine exists_recorded view (rfl : _ = (LinkError.sendError, _)) trivial ?_
  exact ⟨_, .refl, w', rfl, .head _⟩

/-- So it is not honest if there is something to report. -/
theorem not_heartbeatsHonest (hw : Squeezed connected rateCeiling available w) :
    ¬ HeartbeatsHonest connected rateCeiling available w := by
  obtain ⟨rfl, hrate, hheader, hrecord, hsome⟩ := hw
  intro hall
  obtain ⟨c, hreach, w', hreportable, hmem⟩ :=
    exists_squeezedHeartbeat hrate hheader hrecord w
  have honest := hall c hreach _ _ _ hmem
  have hflag := (uplinkFlags_heartbeat cfg
    { w.statics with sequence := w.statics.sequence + 1 } true).2 rfl
  exact hsome (hreportable ▸ honest.quiet hflag)

/-- **What a heartbeat says.** With no upsert during a cycle, and whatever is in the table, whatever
the clock reads and whatever the link answers: a heartbeat is handed over only where no device is
fresh and pending, and any other fragment carries a record, exactly if the cycle is not one that
sends a header alone, the packet having no room for a record, although there is something to
report. -/
theorem heartbeatsHonest_iff (connected : Bool) (rateCeiling available : UInt8)
    (w : World ρ cfg) : HeartbeatsHonest connected rateCeiling available w ↔
      ¬ (connected = true ∧ 12 < rateCeiling.toNat ∧ 12 < available.toNat ∧
        available.toNat < 38 ∧ w.reportable ≠ []) := by
  refine ⟨fun hall hw => not_heartbeatsHonest hw hall, fun hw c hc => ?_⟩
  have h₀ : HonestPhase connected rateCeiling w .begun ((w, []) : (recorded ρ cfg).State) :=
    ⟨nofun, id⟩
  obtain ⟨ph, hph⟩ := (honestPhase_course hw).reach_cycle h₀ hc
  exact hph.honest

/-- A packet with room for 20 bytes, and a device that was heard just now. -/
theorem heartbeatsHonest_fails :
    Reach (steadyClock Reading (.ofDevices 1)) booted ⟨heardOnce, none⟩ ∧
      ¬ HeartbeatsHonest true 51 20 heardOnce := by
  refine ⟨heardOnce_reached, not_heartbeatsHonest ⟨rfl, by decide, by decide, by decide, ?_⟩⟩
  decide

end Concentrator.Comms
