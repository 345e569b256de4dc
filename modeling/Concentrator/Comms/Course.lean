import Concentrator.Comms.Cycle
import Concentrator.Comms.Stages
import Concentrator.Lib.History

/-!
# The course of a dispatch cycle

What an assertion on the dispatch cycles has to follow, move by move. `Phase` says where a cycle is:
in which of its stages (`Stage.phase`), less what was read for a header and what a packet holds.
`Course` lists the moves from one phase to another. An assertion that follows them follows the
stages (`Course.follows`), so it holds in every run (`Course.reach`).

The moves are those of the service with its history, so that an assertion may speak of what the
cycle has read and when.
-/

namespace Concentrator.Comms

open Threaded

variable (ρ : Type) [AsReading ρ] (cfg : Config)

/-- The comms thread with its history. -/
abbrev recorded : Threaded (CommsSig ρ) := (cycles ρ cfg).withHistory

variable {ρ}

/-- A call that brings the header of a fragment together, and is no move of its own. -/
def CommsOp.Quiet : CommsOp ρ → Prop
  | .statics | .getDroppedReportCount | .getEvictedCount => True
  | _ => False

/-- What the fragments of a cycle have in common: the clock their records are aged by, whether they
go without records, and how many there are to be. -/
structure Plan where
  nowS : UInt32
  isHeartbeat : Bool
  fragmentCount : UInt8

variable (ρ) in
/-- Where a dispatch cycle is. -/
inductive Phase where
  /-- Between two cycles. -/
  | idle
  /-- The link is to be asked whether it is connected. -/
  | begun
  /-- The link is connected, and is to be asked what its rate allows. -/
  | connected
  /-- Not even a header fits the rate, which is to be probed. -/
  | probing
  /-- A header fits the rate, and the link is to be asked what the next packet allows. -/
  | usable
  /-- A record fits the packet. -/
  | roomy
  /-- The clock was read for a snapshot. -/
  | stamped (nowS : UInt32)
  /-- A snapshot was taken, or none because a record does not fit the packet. -/
  | taken (snapshot : List (Entry ρ))
  /-- With nothing to report, the clock was read to see whether a heartbeat is due. -/
  | asked (nowS : UInt32)
  /-- A sequence number was begun, to send the snapshot. -/
  | numbered (snapshot : List (Entry ρ))
  /-- The clock was read to age the snapshot. -/
  | clocked (snapshot : List (Entry ρ)) (nowS : UInt32)
  /-- The fragments before `index` were accepted, and `rest` is still to be sent. -/
  | sending (p : Plan) (index : UInt8) (rest : List (Entry ρ))
  /-- The fragment `index` was accepted, and `unmarked` of its entries are to be acknowledged. -/
  | noting (p : Plan) (index : UInt8) (rest unmarked : List (Entry ρ))
  /-- The clock was read after that. -/
  | noted (p : Plan) (index : UInt8) (rest : List (Entry ρ)) (sentAt : UInt32)
  /-- No fragment follows; `sent` says whether one was accepted. -/
  | ended (sent : Bool)

/-- How many of the entries left a fragment takes: none as a heartbeat, some otherwise. -/
def Plan.Share (p : Plan) (rest : List (Entry ρ)) (count : UInt8) : Prop :=
  if p.isHeartbeat then rest = [] ∧ count = 0 else 0 < count.toNat ∧ count.toNat ≤ rest.length

/-- The fragment `index`, which takes `count` of the entries left. -/
def Plan.fragment (p : Plan) (statics : Statics) (droppedReports evicted : UInt16)
    (count index : UInt8) (rest : List (Entry ρ)) : Fragment ρ where
  header := uplinkHeader cfg statics droppedReports evicted count index p.fragmentCount
    p.isHeartbeat
  entries := rest.take count.toNat
  nowS := p.nowS

variable {cfg}

/-- An assertion on the phases that follows a dispatch cycle among steps that the guard allows. -/
structure Course (G : (recorded ρ cfg).Guard)
    (K : Phase ρ → (recorded ρ cfg).State → Prop) : Prop where
  stable : ∀ {ph}, Stable G (K ph)
  quiet : ∀ {ph s} (o : CommsOp ρ) (view : LinkView), o.Quiet → G.call o view s → K ph s →
    K ph ((recorded ρ cfg).perform o view s).2
  began : ∀ {s}, G.start s → K .idle s →
    K .begun ({ s.1 with log := .began :: s.1.log }, .start s.1 :: s.2)
  link : ∀ {s} (view : LinkView), G.call .isConnected view s → K .begun s →
    K (if view.isConnected then .connected else .ended false)
      ((recorded ρ cfg).perform .isConnected view s).2
  rate : ∀ {s} (view : LinkView), G.call .getMaxPayloadSize view s → K .connected s →
    K (if view.maxPayloadSize.toNat ≤ 12 then .probing else .usable)
      ((recorded ρ cfg).perform .getMaxPayloadSize view s).2
  probe : ∀ {s} (view : LinkView), K .probing s →
    K (.ended false) ((recorded ρ cfg).perform (.send .probe) view s).2
  packet : ∀ {s} (view : LinkView), G.call .getAvailablePayloadSize view s → K .usable s →
    K (if view.availablePayloadSize.toNat ≤ 12 then .ended false
        else if view.availablePayloadSize.toNat < 38 then .taken [] else .roomy)
      ((recorded ρ cfg).perform .getAvailablePayloadSize view s).2
  stamp : ∀ {s} (view : LinkView), K .roomy s →
    K (.stamped s.1.uptime) ((recorded ρ cfg).perform .getUptimeSeconds view s).2
  scan : ∀ {s nowS} (view : LinkView), K (.stamped nowS) s →
    K (.taken ((recorded ρ cfg).perform (.scan nowS) view s).1)
      ((recorded ρ cfg).perform (.scan nowS) view s).2
  /-- Without heartbeats, a cycle with nothing to report ends. -/
  disabled : ∀ {s}, cfg.heartbeatMaxSilenceS = 0 → K (.taken []) s → K (.ended false) s
  ask : ∀ {s} (view : LinkView), K (.taken []) s →
    K (.asked s.1.uptime) ((recorded ρ cfg).perform .getUptimeSeconds view s).2
  silent : ∀ {s nowS}, nowS - s.1.statics.lastUplinkUptimeS < cfg.heartbeatMaxSilenceS →
    K (.asked nowS) s → K (.ended false) s
  due : ∀ {s nowS}, ¬ nowS - s.1.statics.lastUplinkUptimeS < cfg.heartbeatMaxSilenceS →
    K (.asked nowS) s → K (.taken []) s
  number : ∀ {s snapshot} (view : LinkView), K (.taken snapshot) s →
    K (.numbered snapshot) ((recorded ρ cfg).perform
      (.modify fun statics => { statics with sequence := statics.sequence + 1 }) view s).2
  clock : ∀ {s snapshot} (view : LinkView), K (.numbered snapshot) s →
    K (.clocked snapshot s.1.uptime) ((recorded ρ cfg).perform .getUptimeSeconds view s).2
  /-- One fragment without records: a heartbeat has read the clock before. -/
  header : ∀ {s} (nowS : UInt32), K (.numbered []) s → K (.sending ⟨nowS, true, 1⟩ 0 []) s
  headerAt : ∀ {s nowS}, K (.clocked [] nowS) s → K (.sending ⟨nowS, true, 1⟩ 0 []) s
  /-- Some fragments of records, if the link allows any. -/
  plan : ∀ {s snapshot nowS} (fragmentCount : UInt8) (view : LinkView),
    G.call .getMaxUplinksPerDispatch view s → snapshot ≠ [] →
    (view.maxUplinksPerDispatch ≠ 0 → 0 < fragmentCount) → K (.clocked snapshot nowS) s →
    K (.sending ⟨nowS, false, fragmentCount⟩ 0 snapshot)
      ((recorded ρ cfg).perform .getMaxUplinksPerDispatch view s).2
  accept : ∀ {s p index rest count} (droppedReports evicted : UInt16) (view : LinkView),
    index < p.fragmentCount → p.Share rest count → view.sendResult = .noError →
    K (.sending p index rest) s →
    K (.noting p index (rest.drop count.toNat) (rest.take count.toNat))
      ((recorded ρ cfg).perform (.send (.fragment
        (p.fragment cfg s.1.statics droppedReports evicted count index rest))) view s).2
  refuse : ∀ {s p index rest count} (droppedReports evicted : UInt16) (view : LinkView),
    index < p.fragmentCount → p.Share rest count → view.sendResult ≠ .noError →
    K (.sending p index rest) s →
    K (.ended (decide (0 < index))) ((recorded ρ cfg).perform (.send (.fragment
        (p.fragment cfg s.1.statics droppedReports evicted count index rest))) view s).2
  mark : ∀ {s p index rest copy unmarked} (view : LinkView), G.call (.markReported copy) view s →
    K (.noting p index rest (copy :: unmarked)) s →
    K (.noting p index rest unmarked) ((recorded ρ cfg).perform (.markReported copy) view s).2
  read : ∀ {s p index rest} (view : LinkView), K (.noting p index rest []) s →
    K (.noted p index rest s.1.uptime) ((recorded ρ cfg).perform .getUptimeSeconds view s).2
  note : ∀ {s p index rest sentAt} (view : LinkView), index < p.fragmentCount →
    K (.noted p index rest sentAt) s →
    K (.sending p (index + 1) rest) ((recorded ρ cfg).perform
      (.modify fun statics => { statics with lastUplinkUptimeS := sentAt }) view s).2
  finish : ∀ {s p index rest}, p.fragmentCount ≤ index → K (.sending p index rest) s →
    K (.ended (decide (0 < index))) s
  boot : ∀ {s} (view : LinkView), K (.ended true) s →
    K .idle ((recorded ρ cfg).perform
      (.modify fun statics => { statics with bootUplinkSent := true }) view s).2
  leave : ∀ {s}, K (.ended false) s → K .idle s

/-! ## The phases and the stages -/

omit [AsReading ρ] in
/-- What a round has in common with the other rounds of its cycle. -/
def Round.plan (round : Round ρ) : Plan := ⟨round.nowS, round.isHeartbeat, round.fragmentCount⟩

/-- The phase of a stage: what was read for a header, and what a packet holds, is left out. -/
def Stage.phase : Stage ρ → Phase ρ
  | .begun => .begun
  | .connected => .connected
  | .probing => .probing
  | .usable => .usable
  | .roomy _ => .roomy
  | .stamped _ nowS => .stamped nowS
  | .empty | .due _ | .bare => .taken []
  | .asked nowS => .asked nowS
  | .bareNumbered => .numbered []
  | .taken _ snapshot => .taken snapshot
  | .numbered _ snapshot => .numbered snapshot
  | .clocked _ snapshot nowS => .clocked snapshot nowS
  | .sending round | .identified round _ | .counted round _ _ | .built round _ _ _ =>
    .sending round.plan round.index round.rest
  | .marking round unmarked =>
    .noting round.plan round.index (round.rest.drop round.count.toNat) unmarked
  | .noting round sentAt =>
    .noted round.plan round.index (round.rest.drop round.count.toNat) sentAt
  | .booting => .ended true
  | .finished => .idle

/-- The variables that were read for a header are the service's. -/
def Stage.Knows (statics : Statics) : Stage ρ → Prop
  | .identified _ known | .counted _ known _ | .built _ known _ _ => known = statics
  | _ => True

omit [AsReading ρ] in
/-- The share of a round that is due. -/
theorem Round.Due.share {round : Round ρ} (h : round.Due) :
    round.plan.Share round.rest round.count := by
  cases h with
  | header nowS => exact ⟨List.drop_nil, rfl⟩
  | records hindex hrecords hshare hstart =>
    have hpos := (Due.records hindex hrecords hshare hstart).count_pos hrecords
    have hle : round.count.toNat ≤ round.rest.length := by
      rw [count_toNat]
      exact Nat.min_le_right _ _
    unfold Plan.Share
    rw [show round.plan.isHeartbeat = false from hrecords, if_neg Bool.false_ne_true]
    exact ⟨hpos, hle⟩

namespace Course

variable {G : (recorded ρ cfg).Guard} {K : Phase ρ → (recorded ρ cfg).State → Prop}
  {s : (recorded ρ cfg).State}

/-- A cycle is in some phase. -/
def Some (K : Phase ρ → (recorded ρ cfg).State → Prop) (s : (recorded ρ cfg).State) : Prop :=
  ∃ ph, K ph s

/-- The assertion of the phase that a stage is in. -/
def AtStage (K : Phase ρ → (recorded ρ cfg).State → Prop) (stage : Stage ρ)
    (s : (recorded ρ cfg).State) : Prop :=
  K stage.phase s ∧ stage.Knows s.1.statics

theorem finished (C : Course G K) (h : K (.ended false) s) : AtStage K .finished s :=
  ⟨C.leave h, trivial⟩

/-- No fragment follows a round. -/
theorem ended (C : Course G K) {round : Round ρ} (h : K (.ended (decide (0 < round.index))) s) :
    AtStage K round.ended s := by
  refine Round.ended_cases round (fun hsent => ?_) fun hnone => ?_
  · rw [decide_eq_true hsent] at h
    exact ⟨h, trivial⟩
  · rw [decide_eq_false hnone] at h
    exact C.finished h

/-- A round is to be sent, if there are to be so many. -/
theorem round (C : Course G K) {round : Round ρ}
    (h : K (.sending round.plan round.index round.rest) s) : AtStage K round.stage s := by
  refine Round.stage_cases round (fun _ => ⟨h, trivial⟩) fun hge => ?_
  exact C.ended (C.finish hge h)

/-- The other threads leave the variables of the service alone. -/
theorem stable_statics (stage : Stage ρ) :
    Stable G fun s : (recorded ρ cfg).State => stage.Knows s.1.statics := by
  intro x s _ h
  cases x <;> exact h

/-- A call moves from one stage to the next. -/
theorem call (C : Course G K) {stage : Stage ρ} {o : CommsOp ρ} (view : LinkView)
    (hmakes : stage.Makes cfg o) (hg : G.call o view s) (h : AtStage K stage s) :
    AtStage K (stage.next cfg o ((recorded ρ cfg).perform o view s).1)
      ((recorded ρ cfg).perform o view s).2 := by
  obtain ⟨hK, hknows⟩ := h
  cases hmakes with
  | link =>
    have hnext := C.link view hg hK
    show AtStage K (if view.isConnected then _ else _) _
    split
    · next hup =>
      rw [if_pos hup] at hnext
      exact ⟨hnext, trivial⟩
    · next hdown =>
      rw [if_neg hdown] at hnext
      exact C.finished hnext
  | rate =>
    have hnext := C.rate view hg hK
    show AtStage K (if view.maxPayloadSize.toNat ≤ 12 then _ else _) _
    split
    · next hprobe =>
      rw [if_pos hprobe] at hnext
      exact ⟨hnext, trivial⟩
    · next hroom =>
      rw [if_neg hroom] at hnext
      exact ⟨hnext, trivial⟩
  | probe => exact C.finished (C.probe view hK)
  | packet =>
    have hnext := C.packet view hg hK
    show AtStage K (if view.availablePayloadSize.toNat ≤ 12 then _
      else if recordsIn view.availablePayloadSize = 0 then _ else _) _
    split
    · next hdeferred =>
      rw [if_pos hdeferred] at hnext
      exact C.finished hnext
    next hheader =>
    rw [if_neg hheader] at hnext
    split
    · next hnone =>
      rw [if_pos (recordsIn_eq_zero.1 hnone)] at hnext
      exact ⟨hnext, trivial⟩
    · next hsome =>
      rw [if_neg fun hlt => hsome (recordsIn_eq_zero.2 hlt)] at hnext
      exact ⟨hnext, trivial⟩
  | stamp => exact ⟨C.stamp view hK, trivial⟩
  | @scan share nowS =>
    have hnext := C.scan view hK
    show AtStage K (if List.length _ ≠ 0 then _ else if _ then _ else _) _
    split
    · exact ⟨hnext, trivial⟩
    next hempty =>
    rw [List.eq_nil_of_length_eq_zero (not_not.1 hempty)] at hnext
    split
    · next hzero => exact C.finished (C.disabled hzero hnext)
    · exact ⟨hnext, trivial⟩
  | ask => exact ⟨C.ask view hK, trivial⟩
  | silence =>
    have hnext := C.quiet .statics view trivial hg hK
    show AtStage K (if _ then _ else _) _
    split
    · next hsilent => exact C.finished (C.silent hsilent hnext)
    · next hdue => exact ⟨C.due hdue hnext, trivial⟩
  | @numberDue nowS =>
    have hnext := C.header nowS (C.number view hK)
    exact ⟨hnext, trivial⟩
  | numberBare => exact ⟨C.number view hK, trivial⟩
  | clockBare => exact ⟨C.headerAt (C.clock view hK), trivial⟩
  | number => exact ⟨C.number view hK, trivial⟩
  | clock => exact ⟨C.clock view hK, trivial⟩
  | @allowance share snapshot nowS hshare hne =>
    refine C.round ?_
    rw [Round.rest_first]
    exact C.plan _ view hg hne (fragmentsAllowed_pos hshare (List.length_pos_iff.2 hne)) hK
  | statics => exact ⟨C.quiet .statics view trivial hg hK, rfl⟩
  | dropped => exact ⟨C.quiet .getDroppedReportCount view trivial hg hK, hknows⟩
  | evicted => exact ⟨C.quiet .getEvictedCount view trivial hg hK, hknows⟩
  | @send round statics droppedReports evicted hdue =>
    obtain rfl : statics = s.1.statics := hknows
    show AtStage K (if view.sendResult = .noError then _ else _) _
    split
    · next hresult =>
      exact ⟨C.accept droppedReports evicted view hdue.index_lt hdue.share hresult hK, trivial⟩
    · next hresult =>
      exact C.ended (C.refuse droppedReports evicted view hdue.index_lt hdue.share hresult hK)
  | mark => exact ⟨C.mark view hg hK, trivial⟩
  | read => exact ⟨C.read view hK, trivial⟩
  | @note round sentAt hdue =>
    have hnext := C.note view hdue.index_lt hK
    rw [← hdue.next_rest] at hnext
    exact C.round hnext
  | boot => exact ⟨C.boot view hK, trivial⟩

/-- An assertion that follows the course follows the stages. -/
theorem follows (C : Course G K) : Follows (cycleWatch ρ cfg) G (AtStage K) where
  stable := C.stable.and (stable_statics _)
  call view _ := C.call view

/-- Between two cycles or within one, an assertion that follows the course goes on to hold. -/
theorem tracks (C : Course G K) {c₀ c : (recorded ρ cfg).Conf}
    (h₀ : Tracks (cycleWatch ρ cfg) (AtStage K) .finished c₀) (h : Reach G c₀ c) :
    Tracks (cycleWatch ρ cfg) (AtStage K) .finished c := by
  refine C.follows.reach (fun s p s' hg hs hstart => ?_) (fun _ h => h) h₀ h
  cases hstart
  exact ⟨.begun, dispatch_stages ρ cfg, C.began hg hs.1, trivial⟩

theorem exists_phase {c : (recorded ρ cfg).Conf}
    (h : Tracks (cycleWatch ρ cfg) (AtStage K) .finished c) : Some K c.state := by
  obtain ⟨stage, hK, -⟩ := h.exists
  exact ⟨stage.phase, hK⟩

/-- **The rule.** An assertion that follows the course holds in every configuration that runs reach
from between two cycles. -/
theorem reach (C : Course G K) {c₀ c : (recorded ρ cfg).Conf} (hidle : c₀.running = none)
    (h₀ : K .idle c₀.state) (h : Reach G c₀ c) :
    Some K c.state ∧ (c.running = none → K .idle c.state) := by
  have htracks := C.tracks (.of_waiting hidle ⟨h₀, trivial⟩) h
  exact ⟨exists_phase htracks, fun hnone => (htracks.waiting hnone).1⟩

/-- The same from the beginning of a cycle. -/
theorem reach_cycle (C : Course G K) (h₀ : K .begun s) {c : (recorded ρ cfg).Conf}
    (h : Reach G ⟨s, some (dispatch cfg)⟩ c) : Some K c.state :=
  exists_phase (C.tracks (.of_running (dispatch_stages ρ cfg) ⟨h₀, trivial⟩) h)

end Course

end Concentrator.Comms
