import Concentrator.Comms.OneCycle
import Concentrator.Comms.Course

/-!
# The ages of the records

A record says how long ago its device was seen, by the clock that the cycle reads after the
snapshot. The snapshot lets through what is fresh by the clock it read itself, and a device that is
recorded in between may have been seen after that. As long as the clock does not wrap around, the
age still does not: what a snapshot copies out was seen by the time of the scan, and the cycle reads
its own clock later (`age_exact`).
-/

namespace Concentrator.Comms

open Threaded

variable {ρ : Type}

/-- The clock that the snapshot of the cycle has read. -/
def lastScan : List (LogItem ρ) → Option UInt32
  | [] => none
  | .began :: _ => none
  | .scanned _ nowS _ :: _ => some nowS
  | _ :: log => lastScan log

variable [AsReading ρ]

/-- An entry that goes out at `nowS`, after a snapshot at `scanS`: its age is not negative, is what
the record says, up to saturation, and is no more than the time since the snapshot beyond what the
snapshot let through. -/
structure ExactAge (staleAfterS scanS nowS : UInt32) (e : Entry ρ) : Prop where
  seen : e.lastSeenUptimeS ≤ nowS
  age : (toRecord e nowS).secondsSinceSeen.toNat =
    min 65535 (nowS.toNat - e.lastSeenUptimeS.toNat)
  bound : (toRecord e nowS).secondsSinceSeen.toNat ≤
    min 65535 (staleAfterS.toNat + (nowS.toNat - scanS.toNat))

/-- The age of a record is saturated at the largest a record can hold. -/
theorem toRecord_age {e : Entry ρ} {nowS : UInt32} (hseen : e.lastSeenUptimeS ≤ nowS) :
    (toRecord e nowS).secondsSinceSeen.toNat =
      min 65535 (nowS.toNat - e.lastSeenUptimeS.toNat) := by
  have hage := UInt32.toNat_sub_of_le _ _ hseen
  show (if nowS - e.lastSeenUptimeS > 0xFFFF then 0xFFFF
    else (nowS - e.lastSeenUptimeS).toUInt16).toNat = _
  rw [← hage]
  split
  · next hlarge =>
    have hlarge := UInt32.lt_iff_toNat_lt.1 hlarge
    exact (Nat.min_eq_left (Nat.le_of_lt hlarge)).symm
  · next hsmall =>
    have hsmall : (nowS - e.lastSeenUptimeS).toNat ≤ 65535 :=
      UInt32.le_iff_toNat_le.1 (UInt32.not_lt.1 hsmall)
    rw [Nat.min_eq_right hsmall, UInt32.toNat_toUInt16]
    exact Nat.mod_eq_of_lt (Nat.lt_succ_of_le hsmall)

/-- What a snapshot at `scanS` let through and was seen by `nowS` has an exact age. It may have been
seen after `scanS`, and then it is younger still. -/
theorem exactAge_of_fresh {staleAfterS scanS nowS : UInt32} {e : Entry ρ} (hscan : scanS ≤ nowS)
    (hseen : e.lastSeenUptimeS ≤ nowS) (hfresh : e.Fresh staleAfterS scanS) :
    ExactAge staleAfterS scanS nowS e := by
  refine ⟨hseen, toRecord_age hseen, ?_⟩
  have hle := UInt32.le_iff_toNat_le.1 hscan
  have hfresh := UInt32.le_iff_toNat_le.1 (UInt32.not_lt.1 hfresh)
  rw [toRecord_age hseen]
  by_cases hafter : e.lastSeenUptimeS ≤ scanS
  · have hle' := UInt32.le_iff_toNat_le.1 hafter
    rw [UInt32.toNat_sub_of_le _ _ hafter] at hfresh
    omega
  · have hlt := UInt32.lt_iff_toNat_lt.1 (UInt32.not_le.1 hafter)
    omega

/-- Every record in the log has an exact age, and the cycle that sent it took a snapshot first. -/
def AgesExact (staleAfterS : UInt32) (log : List (LogItem ρ)) : Prop :=
  ∀ f result before, .sent (.fragment f) result :: before <:+ log → ∀ e ∈ f.entries,
    ∃ scanS, lastScan before = some scanS ∧ scanS ≤ f.nowS ∧ ExactAge staleAfterS scanS f.nowS e

/-- Copies that a snapshot of this cycle let through, seen by `nowS`. -/
def Copied (staleAfterS nowS : UInt32) (log : List (LogItem ρ)) (copies : List (Entry ρ)) : Prop :=
  copies = [] ∨ ∃ scanS, lastScan log = some scanS ∧ scanS ≤ nowS ∧
    ∀ e ∈ copies, e.lastSeenUptimeS ≤ nowS ∧ e.Fresh staleAfterS scanS

variable {cfg : Config} {staleAfterS nowS laterS : UInt32} {log : List (LogItem ρ)}

theorem AgesExact.cons {item : LogItem ρ} (h : AgesExact staleAfterS log)
    (hitem : ∀ f result, item = .sent (.fragment f) result → f.entries = []) :
    AgesExact staleAfterS (item :: log) := by
  intro f result before hsuffix e he
  rcases List.suffix_cons_iff.1 hsuffix with heq | hsuffix
  · rw [hitem f result (List.cons.inj heq).1.symm] at he
    cases he
  · exact h f result before hsuffix e he

/-- A fragment of copies that were let through. -/
theorem AgesExact.sent {f : Fragment ρ} {result : LinkError} {copies : List (Entry ρ)}
    (h : AgesExact staleAfterS log) (hcopies : Copied staleAfterS f.nowS log copies)
    (hentries : ∀ e ∈ f.entries, e ∈ copies) :
    AgesExact staleAfterS (.sent (.fragment f) result :: log) := by
  intro f' result' before hsuffix e he
  rcases List.suffix_cons_iff.1 hsuffix with heq | hsuffix
  · cases heq
    rcases hcopies with rfl | ⟨scanS, hlog, hscan, hcopies⟩
    · cases hentries e he
    · obtain ⟨hseen, hfresh⟩ := hcopies e (hentries e he)
      exact ⟨scanS, hlog, hscan, exactAge_of_fresh hscan hseen hfresh⟩
  · exact h f' result' before hsuffix e he

omit [AsReading ρ] in
theorem Copied.later {copies : List (Entry ρ)} (h : Copied staleAfterS nowS log copies)
    (hlater : nowS ≤ laterS) : Copied staleAfterS laterS log copies := by
  rcases h with rfl | ⟨scanS, hlog, hscan, hcopies⟩
  · exact .inl rfl
  · refine .inr ⟨scanS, hlog, UInt32.le_trans hscan hlater, fun e he => ?_⟩
    exact ⟨UInt32.le_trans (hcopies e he).1 hlater, (hcopies e he).2⟩

omit [AsReading ρ] in
theorem Copied.drop {copies : List (Entry ρ)} (h : Copied staleAfterS nowS log copies) (n : Nat) :
    Copied staleAfterS nowS log (copies.drop n) := by
  rcases h with rfl | ⟨scanS, hlog, hscan, hcopies⟩
  · exact .inl List.drop_nil
  · exact .inr ⟨scanS, hlog, hscan, fun e he => hcopies e (List.mem_of_mem_drop he)⟩

/-- The clocks and the copies in each phase of a cycle. -/
def CopiedPhase : Phase ρ → (recorded ρ cfg).State → Prop
  | .stamped nowS, s => nowS ≤ s.1.uptime
  | .taken snapshot, s | .numbered snapshot, s =>
    Copied cfg.deviceStaleAfterS s.1.uptime s.1.log snapshot
  | .clocked snapshot nowS, s => Copied cfg.deviceStaleAfterS nowS s.1.log snapshot
  | .sending p _ rest, s | .noting p _ rest _, s | .noted p _ rest _, s =>
    Copied cfg.deviceStaleAfterS p.nowS s.1.log rest
  | _, _ => True

/-- What is kept about the ages in each phase. -/
structure AgesPhase (ph : Phase ρ) (s : (recorded ρ cfg).State) : Prop where
  seen : SeenBefore s.1
  ages : AgesExact cfg.deviceStaleAfterS s.1.log
  copied : CopiedPhase ph s

/-- The others keep it, while the clock does not wrap around. -/
theorem agesPhase_stable {ph : Phase ρ} :
    Stable (steadyClock ρ cfg).withHistory (AgesPhase ph) := by
  intro x s hg h
  refine ⟨seenBefore_stable x s.1 hg h.seen, ?_, ?_⟩
  · cases x with
    | upsert => exact h.ages.cons nofun
    | tick | dropReport => exact h.ages
  · have hcopied := h.copied
    cases x with
    | upsert | dropReport => cases ph <;> exact hcopied
    | tick seconds =>
      cases ph with
      | stamped nowS => exact UInt32.le_trans hcopied hg
      | taken | numbered => exact Copied.later hcopied hg
      | _ => exact hcopied

/-- The clocks and the copies follow the course of a cycle. -/
theorem agesPhase_course : Course (steadyClock ρ cfg).withHistory AgesPhase where
  stable := agesPhase_stable
  quiet {ph s} o view ho _ h := by
    refine ⟨perform_seenBefore o view h.seen, ?_, ?_⟩
    · have hages := h.ages
      cases o with
      | statics | getDroppedReportCount | getEvictedCount => exact hages
      | _ => exact ho.elim
    · have hcopied := h.copied
      cases o with
      | statics | getDroppedReportCount | getEvictedCount => cases ph <;> exact hcopied
      | _ => exact ho.elim
  began _ h := ⟨h.seen, h.ages.cons nofun, trivial⟩
  link _ _ h := by
    split <;> exact ⟨h.seen, h.ages, trivial⟩
  rate _ _ h := by
    split <;> exact ⟨h.seen, h.ages, trivial⟩
  packet _ _ h := by
    split
    · exact ⟨h.seen, h.ages, trivial⟩
    · split
      · exact ⟨h.seen, h.ages, .inl rfl⟩
      · exact ⟨h.seen, h.ages, trivial⟩
  probe _ h := ⟨h.seen, h.ages.cons nofun, trivial⟩
  stamp _ h := ⟨h.seen, h.ages, UInt32.le_refl _⟩
  scan {s nowS} view h := by
    refine ⟨h.seen, h.ages.cons nofun, ?_⟩
    refine .inr ⟨nowS, rfl, h.copied, fun e he => ?_⟩
    obtain ⟨hmem, hrep⟩ := Table.mem_scan he
    exact ⟨h.seen e hmem hrep.1, hrep.2.1⟩
  disabled _ h := ⟨h.seen, h.ages, trivial⟩
  ask _ h := ⟨h.seen, h.ages, trivial⟩
  silent _ h := ⟨h.seen, h.ages, trivial⟩
  due _ h := ⟨h.seen, h.ages, .inl rfl⟩
  number _ h := ⟨h.seen, h.ages, h.copied⟩
  clock _ h := ⟨h.seen, h.ages, h.copied⟩
  header _ h := ⟨h.seen, h.ages, .inl rfl⟩
  headerAt h := ⟨h.seen, h.ages, .inl rfl⟩
  plan _ _ _ _ _ h := ⟨h.seen, h.ages, h.copied⟩
  accept _ _ _ _ _ _ h :=
    ⟨h.seen, h.ages.sent h.copied fun _ he => List.mem_of_mem_take he, Copied.drop h.copied _⟩
  refuse _ _ _ _ _ _ h :=
    ⟨h.seen, h.ages.sent h.copied fun _ he => List.mem_of_mem_take he, trivial⟩
  mark {s p index rest copy unmarked} view _ h :=
    ⟨perform_seenBefore (.markReported copy) view h.seen, h.ages, h.copied⟩
  read _ h := ⟨h.seen, h.ages, h.copied⟩
  note _ _ h := ⟨h.seen, h.ages, h.copied⟩
  finish _ h := ⟨h.seen, h.ages, trivial⟩
  boot _ h := ⟨h.seen, h.ages, trivial⟩
  leave h := ⟨h.seen, h.ages, trivial⟩

/-- **Ages never underflow.** Wherever the others come between the calls of a cycle, and as long as
the clock does not wrap around: every record that is handed to the link is of a device seen by the
time the cycle read its clock, it says how long ago that was, up to saturation, and that is no more
than the staleness limit and the time since the snapshot read its clock. -/
theorem age_exact {c : (cycles ρ cfg).Conf} (h : Reach (steadyClock ρ cfg) booted c)
    {f : Fragment ρ} {result : LinkError} {before : List (LogItem ρ)}
    (hsent : .sent (.fragment f) result :: before <:+ c.state.log) {e : Entry ρ}
    (he : e ∈ f.entries) :
    ∃ scanS, lastScan before = some scanS ∧ scanS ≤ f.nowS ∧
      ExactAge cfg.deviceStaleAfterS scanS f.nowS e := by
  obtain ⟨history, hreach⟩ := h.withHistory []
  have h₀ : AgesPhase .idle (booted.withHistory [] : (recorded ρ cfg).Conf).state :=
    ⟨fun e he huse => absurd huse (World.boot_free he),
      fun _ _ _ hsuffix => (nomatch List.suffix_nil.1 hsuffix), trivial⟩
  obtain ⟨ph, hph⟩ := (agesPhase_course.reach rfl h₀ hreach).1
  exact hph.ages f result before hsent e he

/-- A device that was heard seven seconds ago. -/
def heardBefore : (cycles Reading (.ofDevices 1)).Conf := ⟨(Act.tick 7).run heardOnce, none⟩

/-- The last thing that happened is that a record of that age was handed to the link. -/
def sevenSent (c : (cycles Reading (.ofDevices 1)).Conf) : Bool :=
  match c.state.log with
  | .sent (.fragment f) _ :: _ => f.records.any (·.secondsSinceSeen = 7)
  | _ => false

theorem age_exact_seven :
    ∃ (c : (cycles Reading (.ofDevices 1)).Conf) (f : Fragment Reading) (e : Entry Reading),
      Reach (steadyClock Reading (.ofDevices 1)) booted c ∧ e ∈ f.entries ∧
      (toRecord e f.nowS).secondsSinceSeen = 7 ∧ e.lastSeenUptimeS ≤ f.nowS := by
  have hheard : Reach (steadyClock Reading (.ofDevices 1)) booted heardBefore :=
    have hlater : (0 : UInt32) ≤ 0 + 7 := by decide
    heardOnce_reached.step (l := .other (Act.tick 7)) hlater rfl
  have htest : (run (.start :: List.replicate 12 (.call openLink)) heardBefore).any sevenSent = true
    := by decide
  obtain ⟨c, hrun, hsent⟩ := (Option.any_eq_true _ _).1 htest
  have hreach : Reach (steadyClock Reading (.ofDevices 1)) heardBefore c := by
    refine Reach.of_run_allowed (fun l hl ⟨w, r⟩ => ?_) hrun
    rcases List.mem_cons.1 hl with rfl | hl
    · cases r <;> trivial
    · rw [List.eq_of_mem_replicate hl]
      unfold Guard.Allows
      split <;> trivial
  unfold sevenSent at hsent
  split at hsent
  · next f result before hlog =>
    obtain ⟨r, hr, hage⟩ := List.any_eq_true.1 hsent
    obtain ⟨e, he, rfl⟩ := List.mem_map.1 hr
    have hsuffix : .sent (.fragment f) result :: before <:+ c.state.log :=
      hlog ▸ List.suffix_refl _
    obtain ⟨scanS, -, -, hexact⟩ := age_exact (hheard.trans hreach) hsuffix he
    exact ⟨c, f, e, hheard.trans hreach, he, of_decide_eq_true hage, hexact.seen⟩
  · cases hsent

end Concentrator.Comms
