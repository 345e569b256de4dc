import Concentrator.Comms.Dispatch
import Concentrator.Lib.Monitor

/-!
# The stages of a dispatch cycle

Where a dispatch cycle is, which call it makes there, and where the answer takes it: the answers of
the link decide whether the cycle ends at once, sends a header or takes a snapshot; with something
to send it begins a sequence number, hands its fragments to the link one after the other, and after
each accepted one acknowledges its entries, reads the clock and notes the time; a cycle that brought
a fragment to the network marks the boot as reported.

`cycleWatch` is this as a monitor, and `dispatch` obeys it (`dispatch_stages`). Here the functions
of a cycle are walked through, once: what is proved of a cycle elsewhere is an assertion for each
stage that the calls take along (`Threaded.Follows`), or another monitor that the stages simulate
(`Prog.ObeysTo.simulate`).
-/

namespace Concentrator.Comms

variable {ρ : Type} {cfg : Config}

/-! ## The fragments -/

variable (ρ) in
/-- A fragment to be sent: the fragment `index` of `fragmentCount`, with `share` of the records of a
snapshot in each. -/
structure Round where
  share : UInt8
  fragmentCount : UInt8
  index : UInt8
  nowS : UInt32
  isHeartbeat : Bool
  snapshot : List (Entry ρ)

namespace Round

/-- The one fragment of a cycle without records. -/
def header (nowS : UInt32) : Round ρ := ⟨0, 1, 0, nowS, true, []⟩

/-- The first fragment of a snapshot. -/
def first (share fragmentCount : UInt8) (nowS : UInt32) (snapshot : List (Entry ρ)) : Round ρ :=
  ⟨share, fragmentCount, 0, nowS, false, snapshot⟩

variable (round : Round ρ)

/-- How many entries the fragments before it took. -/
def start : Nat := round.index.toNat * round.share.toNat

/-- The entries still to be sent. -/
def rest : List (Entry ρ) := round.snapshot.drop round.start

/-- How many of them the fragment takes. -/
def count : UInt8 :=
  if round.rest.length > round.share.toNat then round.share else UInt8.ofNat round.rest.length

/-- The entries it takes. -/
def carried : List (Entry ρ) := round.rest.take round.count.toNat

/-- The fragment behind it. -/
def next : Round ρ := { round with index := round.index + 1 }

variable (cfg) in
/-- The fragment, from what was read for its header. -/
def fragment (statics : Statics) (droppedReports evicted : UInt16) : Fragment ρ where
  header := uplinkHeader cfg statics droppedReports evicted round.count round.index
    round.fragmentCount round.isHeartbeat
  entries := round.carried
  nowS := round.nowS

/-- It is the one fragment of a cycle without records, or it is one of those planned and finds
records to take. -/
inductive Due : Round ρ → Prop
  | header (nowS : UInt32) : Due (header nowS)
  | records {round : Round ρ} : round.index < round.fragmentCount → round.isHeartbeat = false →
      0 < round.share.toNat → round.start < round.snapshot.length → Due round

variable {round}

theorem start_first (share fragmentCount : UInt8) (nowS : UInt32) (snapshot : List (Entry ρ)) :
    (first share fragmentCount nowS snapshot).start = 0 :=
  Nat.zero_mul _

theorem rest_first (share fragmentCount : UInt8) (nowS : UInt32) (snapshot : List (Entry ρ)) :
    (first share fragmentCount nowS snapshot).rest = snapshot := by
  rw [rest, start_first, List.drop_zero]
  rfl

theorem Due.index_lt (h : round.Due) : round.index < round.fragmentCount := by
  cases h with
  | header nowS =>
    have hlt : (0 : UInt8) < 1 := by decide
    exact hlt
  | records hlt => exact hlt

/-- The index does not wrap around. -/
theorem Due.next_index (h : round.Due) : round.next.index.toNat = round.index.toNat + 1 :=
  toNat_nextIndex h.index_lt

theorem Due.next_start (h : round.Due) : round.next.start = round.start + round.share.toNat := by
  rw [start, h.next_index, Nat.succ_mul]
  rfl

/-- The number of entries is not truncated. -/
theorem count_toNat : round.count.toNat = min round.share.toNat round.rest.length := by
  have hbyte := round.share.toNat_lt
  unfold count
  split
  · omega
  · have hlt : round.rest.length < 2 ^ 8 := by omega
    rw [UInt8.toNat_ofNat_of_lt' hlt]
    omega

theorem carried_eq : round.carried = round.rest.take round.share.toNat := by
  rw [carried, count_toNat, ← List.take_eq_take_min]

theorem length_carried : round.carried.length = round.count.toNat := by
  rw [carried, List.length_take, count_toNat]
  omega

/-- What the fragments before it took, with what it takes. -/
theorem Due.take_next_start (h : round.Due) :
    round.snapshot.take round.next.start = round.snapshot.take round.start ++ round.carried := by
  rw [h.next_start, List.take_add, carried_eq]
  rfl

theorem Due.next_rest (h : round.Due) : round.next.rest = round.rest.drop round.count.toNat := by
  have hrest : round.next.rest = round.rest.drop round.share.toNat := by
    unfold rest
    rw [h.next_start, List.drop_drop]
    rfl
  rw [hrest, count_toNat]
  rcases Nat.le_total round.share.toNat round.rest.length with hle | hle
  · rw [Nat.min_eq_left hle]
  · rw [Nat.min_eq_right hle, List.drop_length, List.drop_eq_nil_of_le hle]

/-- A fragment of records carries one at least. -/
theorem Due.count_pos (h : round.Due) (hrecords : round.isHeartbeat = false) :
    0 < round.count.toNat := by
  cases h with
  | header nowS => cases hrecords
  | records _ _ hshare hstart =>
    rw [count_toNat, rest, List.length_drop]
    omega

theorem Due.carried_ne_nil (h : round.Due) (hrecords : round.isHeartbeat = false) :
    round.carried ≠ [] := by
  have hpos := h.count_pos hrecords
  rw [← length_carried] at hpos
  exact List.length_pos_iff.1 hpos

end Round

/-! ## The stages -/

variable (ρ) in
/-- Where a dispatch cycle is. -/
inductive Stage where
  /-- The link is to be asked whether it is connected. -/
  | begun
  /-- The link is connected, and is to be asked what its rate allows. -/
  | connected
  /-- Not even a header fits the rate, which is to be probed. -/
  | probing
  /-- A header fits the rate, and the link is to be asked what the next packet allows. -/
  | usable
  /-- `share` records fit the packet. -/
  | roomy (share : UInt8)
  /-- The clock was read for a snapshot. -/
  | stamped (share : UInt8) (nowS : UInt32)
  /-- The snapshot is empty. -/
  | empty
  /-- The clock was read to see whether a heartbeat is due. -/
  | asked (nowS : UInt32)
  /-- A heartbeat is due. -/
  | due (nowS : UInt32)
  /-- A header fits the packet, and no record. -/
  | bare
  /-- A sequence number was begun for a header alone. -/
  | bareNumbered
  /-- The snapshot has entries. -/
  | taken (share : UInt8) (snapshot : List (Entry ρ))
  /-- A sequence number was begun to send the snapshot. -/
  | numbered (share : UInt8) (snapshot : List (Entry ρ))
  /-- The clock was read to age the snapshot. -/
  | clocked (share : UInt8) (snapshot : List (Entry ρ)) (nowS : UInt32)
  /-- A fragment is to be sent. -/
  | sending (round : Round ρ)
  /-- The service's variables were read for its header. -/
  | identified (round : Round ρ) (statics : Statics)
  /-- So was the number of reports dropped. -/
  | counted (round : Round ρ) (statics : Statics) (droppedReports : UInt16)
  /-- The fragment is built. -/
  | built (round : Round ρ) (statics : Statics) (droppedReports evicted : UInt16)
  /-- The fragment was accepted, and `unmarked` of its entries are to be acknowledged. -/
  | marking (round : Round ρ) (unmarked : List (Entry ρ))
  /-- The clock was read after that. -/
  | noting (round : Round ρ) (sentAt : UInt32)
  /-- A fragment was accepted, and none follows. -/
  | booting
  /-- The cycle is over. -/
  | finished

/-- No fragment follows. -/
def Round.ended (round : Round ρ) : Stage ρ := if 0 < round.index then .booting else .finished

/-- The fragment is to be sent, if there are to be so many. -/
def Round.stage (round : Round ρ) : Stage ρ :=
  if round.index < round.fragmentCount then .sending round else round.ended

@[elab_as_elim]
theorem Round.ended_cases {motive : Stage ρ → Prop} (round : Round ρ)
    (booting : 0 < round.index → motive .booting)
    (finished : ¬ 0 < round.index → motive .finished) :
    motive round.ended := by
  unfold Round.ended
  split
  · next hsent => exact booting hsent
  · next hnone => exact finished hnone

@[elab_as_elim]
theorem Round.stage_cases {motive : Stage ρ → Prop} (round : Round ρ)
    (sending : round.index < round.fragmentCount → motive (.sending round))
    (ended : round.fragmentCount ≤ round.index → motive round.ended) : motive round.stage := by
  unfold Round.stage
  split
  · next hlt => exact sending hlt
  · next hge => exact ended (UInt8.not_lt.1 hge)

/-- How many fragments a snapshot goes out in: as many as it needs, or as are allowed. -/
def fragmentsAllowed (share : UInt8) (length : Nat) (maxUplinks : UInt8) : Nat :=
  let fragmentsNeeded := (length + share.toNat - 1) / share.toNat
  if fragmentsNeeded > maxUplinks.toNat then maxUplinks.toNat else fragmentsNeeded

theorem fragmentsAllowed_eq (share : UInt8) (length : Nat) (maxUplinks : UInt8) :
    fragmentsAllowed share length maxUplinks =
      min ((length + share.toNat - 1) / share.toNat) maxUplinks.toNat := by
  unfold fragmentsAllowed
  dsimp only
  split <;> omega

/-- That number fits the counter. -/
theorem toNat_fragmentsAllowed (share : UInt8) (length : Nat) (maxUplinks : UInt8) :
    (UInt8.ofNat (fragmentsAllowed share length maxUplinks)).toNat =
      min ((length + share.toNat - 1) / share.toNat) maxUplinks.toNat := by
  have hbyte := maxUplinks.toNat_lt
  have hlt : fragmentsAllowed share length maxUplinks < 2 ^ 8 := by
    rw [fragmentsAllowed_eq]
    omega
  rw [UInt8.toNat_ofNat_of_lt' hlt, fragmentsAllowed_eq]

/-- A snapshot goes out in one fragment at least, if any is allowed. -/
theorem fragmentsAllowed_pos {share maxUplinks : UInt8} {length : Nat} (hshare : 0 < share.toNat)
    (hlength : 0 < length) (hmax : maxUplinks ≠ 0) :
    0 < UInt8.ofNat (fragmentsAllowed share length maxUplinks) := by
  have hneeded : 0 < (length + share.toNat - 1) / share.toNat := Nat.div_pos (by omega) hshare
  have hmax' : maxUplinks.toNat ≠ 0 := fun hzero => hmax (UInt8.toNat_inj.1 hzero)
  rw [UInt8.lt_iff_toNat_lt, toNat_fragmentsAllowed, UInt8.toNat_zero]
  omega

/-- How many records fit a packet. -/
def recordsIn (available : UInt8) : UInt8 :=
  UInt8.ofNat ((available.toNat - UplinkHeader.layout.size) / EndpointRecord.layout.size)

theorem toNat_recordsIn (available : UInt8) :
    (recordsIn available).toNat = (available.toNat - 12) / 26 := by
  have hbyte := available.toNat_lt
  have hlt : (available.toNat - 12) / 26 < 2 ^ 8 := by omega
  rw [recordsIn, layout_sizes.1, layout_sizes.2, UInt8.toNat_ofNat_of_lt' hlt]

theorem recordsIn_eq_zero {available : UInt8} :
    recordsIn available = 0 ↔ available.toNat < 38 := by
  rw [← UInt8.toNat_inj, toNat_recordsIn, UInt8.toNat_zero]
  omega

/-- The calls a cycle makes in each stage. -/
inductive Stage.Makes (cfg : Config) : Stage ρ → CommsOp ρ → Prop
  | link : Makes cfg .begun .isConnected
  | rate : Makes cfg .connected .getMaxPayloadSize
  | probe : Makes cfg .probing (.send .probe)
  | packet : Makes cfg .usable .getAvailablePayloadSize
  | stamp {share} : Makes cfg (.roomy share) .getUptimeSeconds
  | scan {share nowS} : Makes cfg (.stamped share nowS) (.scan nowS)
  | ask : Makes cfg .empty .getUptimeSeconds
  | silence {nowS} : Makes cfg (.asked nowS) .statics
  | numberDue {nowS} : Makes cfg (.due nowS)
      (.modify fun statics => { statics with sequence := statics.sequence + 1 })
  | numberBare : Makes cfg .bare
      (.modify fun statics => { statics with sequence := statics.sequence + 1 })
  | clockBare : Makes cfg .bareNumbered .getUptimeSeconds
  | number {share snapshot} : 0 < share.toNat → snapshot ≠ [] → Makes cfg (.taken share snapshot)
      (.modify fun statics => { statics with sequence := statics.sequence + 1 })
  | clock {share snapshot} : Makes cfg (.numbered share snapshot) .getUptimeSeconds
  | allowance {share snapshot nowS} : 0 < share.toNat → snapshot ≠ [] →
      Makes cfg (.clocked share snapshot nowS) .getMaxUplinksPerDispatch
  | statics {round} : Makes cfg (.sending round) .statics
  | dropped {round statics} : Makes cfg (.identified round statics) .getDroppedReportCount
  | evicted {round statics droppedReports} :
      Makes cfg (.counted round statics droppedReports) .getEvictedCount
  | send {round statics droppedReports evicted} : round.Due →
      Makes cfg (.built round statics droppedReports evicted)
        (.send (.fragment (round.fragment cfg statics droppedReports evicted)))
  | mark {round copy unmarked} : Makes cfg (.marking round (copy :: unmarked)) (.markReported copy)
  | read {round} : Makes cfg (.marking round []) .getUptimeSeconds
  | note {round sentAt} : round.Due → Makes cfg (.noting round sentAt)
      (.modify fun statics => { statics with lastUplinkUptimeS := sentAt })
  | boot : Makes cfg .booting (.modify fun statics => { statics with bootUplinkSent := true })

variable (cfg) in
/-- Where the answer to a call takes a cycle. -/
def Stage.next (o : CommsOp ρ) (answer : o.Res) (stage : Stage ρ) : Stage ρ :=
  match stage, o, answer with
  | .begun, .isConnected, isConnected => if isConnected then .connected else .finished
  | .connected, .getMaxPayloadSize, rateCeiling =>
    if rateCeiling.toNat ≤ UplinkHeader.layout.size then .probing else .usable
  | .probing, .send _, _ => .finished
  | .usable, .getAvailablePayloadSize, available =>
    if available.toNat ≤ UplinkHeader.layout.size then .finished
    else if recordsIn available = 0 then .bare
    else .roomy (recordsIn available)
  | .roomy share, .getUptimeSeconds, nowS => .stamped share nowS
  | .stamped share _, .scan _, snapshot =>
    if snapshot.length ≠ 0 then .taken share snapshot
    else if cfg.heartbeatMaxSilenceS = 0 then .finished
    else .empty
  | .empty, .getUptimeSeconds, nowS => .asked nowS
  | .asked nowS, .statics, statics =>
    if nowS - statics.lastUplinkUptimeS < cfg.heartbeatMaxSilenceS then .finished else .due nowS
  | .due nowS, .modify _, _ => .sending (.header nowS)
  | .bare, .modify _, _ => .bareNumbered
  | .bareNumbered, .getUptimeSeconds, nowS => .sending (.header nowS)
  | .taken share snapshot, .modify _, _ => .numbered share snapshot
  | .numbered share snapshot, .getUptimeSeconds, nowS => .clocked share snapshot nowS
  | .clocked share snapshot nowS, .getMaxUplinksPerDispatch, maxUplinks =>
    (Round.first share (UInt8.ofNat (fragmentsAllowed share snapshot.length maxUplinks)) nowS
      snapshot).stage
  | .sending round, .statics, statics => .identified round statics
  | .identified round statics, .getDroppedReportCount, droppedReports =>
    .counted round statics droppedReports
  | .counted round statics droppedReports, .getEvictedCount, evicted =>
    .built round statics droppedReports evicted
  | .built round _ _ _, .send _, result =>
    if result = .noError then .marking round round.carried else round.ended
  | .marking round unmarked, .markReported _, _ => .marking round unmarked.tail
  | .marking round _, .getUptimeSeconds, sentAt => .noting round sentAt
  | .noting round _, .modify _, _ => round.next.stage
  | .booting, .modify _, _ => .finished
  | stage, _, _ => stage

variable (ρ cfg) in
/-- The stages as a monitor. -/
def cycleWatch : Monitor (CommsSig ρ) (Stage ρ) where
  allows := Stage.Makes cfg
  next := Stage.next cfg

/-! ## The functions -/

/-- The induction is on the entries to acknowledge. -/
theorem markAll_stages {round : Round ρ} (unmarked : List (Entry ρ)) :
    (markAll unmarked).ObeysTo (cycleWatch ρ cfg) (fun _ stage => stage = .marking round [])
      (.marking round unmarked) := by
  induction unmarked with
  | nil => exact rfl
  | cons copy unmarked ih => exact .op .mark fun _ => ih

/-- One fragment: it is accepted, acknowledged and noted, or none follows. -/
theorem sendFragment_stages {round : Round ρ} (hdue : round.Due) :
    (sendFragment cfg round.rest round.count round.index round.fragmentCount round.nowS
      round.isHeartbeat).ObeysTo (cycleWatch ρ cfg)
      (fun sent stage => stage = if sent then round.next.stage else round.ended)
      (.sending round) := by
  refine .op .statics fun statics => .op .dropped fun droppedReports =>
    .op .evicted fun evicted => ?_
  refine .op (.send hdue) fun result => .ite (fun hresult => if_neg hresult) fun hresult => ?_
  have haccepted : (cycleWatch ρ cfg).next
      (.send (.fragment (round.fragment cfg statics droppedReports evicted))) result
      (.built round statics droppedReports evicted) = .marking round round.carried :=
    if_pos (not_not.1 hresult)
  show Prog.ObeysTo _ _ _ ((cycleWatch ρ cfg).next
    (.send (.fragment (round.fragment cfg statics droppedReports evicted))) result
    (.built round statics droppedReports evicted))
  rw [haccepted]
  refine (markAll_stages round.carried).bind fun _ stage hstage => ?_
  subst hstage
  exact .op .read fun sentAt => .op (.note hdue) fun _ => rfl

/-- A cycle behind its last fragment marks the boot exactly if it has sent a record. -/
def afterLoop (sentRecords : Nat) : Stage ρ := if sentRecords > 0 then .booting else .finished

theorem setBootUplinkSent_stages {sentRecords : Nat} (h : sentRecords > 0) :
    (setBootUplinkSent (ρ := ρ)).ObeysTo (cycleWatch ρ cfg) (fun _ stage => stage = .finished)
      (afterLoop sentRecords) := by
  rw [afterLoop, if_pos h]
  exact .op .boot fun _ => rfl

/-- A record was sent exactly if a fragment was. -/
theorem ended_eq {round : Round ρ} (hshare : 0 < round.share.toNat) (hne : round.snapshot ≠ []) :
    round.ended = afterLoop (min round.start round.snapshot.length) := by
  have hlength := List.length_pos_iff.2 hne
  have hsome : 0 < round.index ↔ min round.start round.snapshot.length > 0 := by
    rw [UInt8.lt_iff_toNat_lt, UInt8.toNat_zero]
    constructor
    · exact fun hlt => Nat.lt_min.2 ⟨Nat.mul_pos hlt hshare, hlength⟩
    · exact fun hlt => Nat.pos_of_mul_pos_right (Nat.lt_min.1 hlt).1
  unfold Round.ended afterLoop
  exact if_congr hsome rfl rfl

/-- The fragment loop, from a round on: the induction is on the fuel, of which there is enough for
all the rounds, and no round finds the snapshot used up. -/
theorem fragmentLoop_stages {round : Round ρ} (hrecords : round.isHeartbeat = false)
    (hshare : 0 < round.share.toNat) (hne : round.snapshot ≠ [])
    (hcount : ∀ i < round.fragmentCount.toNat, i * round.share.toNat < round.snapshot.length)
    {fuel : Nat} (hfuel : round.fragmentCount.toNat < fuel + round.index.toNat)
    (hindex : round.index ≤ round.fragmentCount) {sentRecords : Nat}
    (hsent : sentRecords = min round.start round.snapshot.length) :
    (fragmentLoop cfg round.snapshot round.share round.fragmentCount round.nowS fuel round.index
      sentRecords).ObeysTo (cycleWatch ρ cfg)
      (fun sentRecords stage => stage = afterLoop sentRecords) round.stage := by
  induction fuel generalizing round sentRecords with
  | zero =>
    have hle := UInt8.le_iff_toNat_le.1 hindex
    omega
  | succ fuel ih =>
    have hended := ended_eq hshare hne
    rw [← hsent] at hended
    unfold fragmentLoop Round.stage
    refine .ite (fun hlt => ?_) fun hge => ?_
    · have hlt' := UInt8.lt_iff_toNat_lt.1 hlt
      have hstart : round.start < round.snapshot.length := hcount _ hlt'
      have hdue : round.Due := .records hlt hrecords hshare hstart
      obtain rfl : sentRecords = round.start := hsent.trans (Nat.min_eq_left (Nat.le_of_lt hstart))
      have hround : round.count = if round.snapshot.length - round.start > round.share.toNat then
          round.share else UInt8.ofNat (round.snapshot.length - round.start) := by
        rw [Round.count, Round.rest, List.length_drop]
      rw [if_pos hlt]
      dsimp only
      rw [← hround]
      have hfragment := @sendFragment_stages _ cfg _ hdue
      rw [hrecords] at hfragment
      refine hfragment.bind fun sent stage hstage => ?_
      subst hstage
      cases sent with
      | true =>
        have hnext := hdue.next_index
        have htaken : round.start + round.count.toNat =
            min round.next.start round.next.snapshot.length := by
          show _ = min _ round.snapshot.length
          rw [hdue.next_start, Round.count_toNat, Round.rest, List.length_drop]
          omega
        have hfuel' : round.fragmentCount.toNat < fuel + round.next.index.toNat := by omega
        have hindex' : round.next.index ≤ round.fragmentCount := by
          rw [UInt8.le_iff_toNat_le, hnext]
          exact hlt'
        exact @ih round.next hrecords hshare hne hcount hfuel' hindex' _ htaken
      | false => exact hended
    · rw [if_neg hge]
      exact hended

/-- The rounds that a snapshot goes out in do not find it used up. -/
theorem start_lt_length_of_allowed {share maxUplinks : UInt8} {length : Nat}
    (hshare : 0 < share.toNat) {i : Nat}
    (hi : i < (UInt8.ofNat (fragmentsAllowed share length maxUplinks)).toNat) :
    i * share.toNat < length := by
  rw [toNat_fragmentsAllowed] at hi
  exact start_lt_length hshare (Nat.lt_of_lt_of_le hi (Nat.min_le_left _ _))

/-- A fragment without records, on its own, from the stage in which its clock is read on. -/
theorem sendHeaderOnly_stages {clock : CommsProg ρ UInt32} {stage numbered : Stage ρ}
    (hnumber : stage.Makes cfg
      (.modify fun statics => { statics with sequence := statics.sequence + 1 }))
    (hnumbered : stage.next cfg
      (.modify fun statics => { statics with sequence := statics.sequence + 1 }) () = numbered)
    (hclock : clock.ObeysTo (cycleWatch ρ cfg)
      (fun nowS stage => stage = .sending (.header nowS)) numbered) :
    (sendHeaderOnly cfg clock).ObeysTo (cycleWatch ρ cfg)
      (fun _ stage => stage = .finished) stage := by
  refine .op hnumber fun _ => ?_
  show Prog.ObeysTo _ _ _ (stage.next cfg _ _)
  rw [hnumbered]
  refine hclock.bind fun nowS stage₁ hstage₁ => ?_
  subst hstage₁
  refine (sendFragment_stages (.header nowS)).bind fun sent stage₂ hstage₂ => ?_
  subst hstage₂
  cases sent with
  | true => exact @setBootUplinkSent_stages _ _ 1 (by decide)
  | false => exact rfl

/-- The heartbeat, if it is due. -/
theorem sendHeartbeatIfDue_stages : (sendHeartbeatIfDue cfg).ObeysTo (cycleWatch ρ cfg)
    (fun _ stage => stage = .finished)
    (if cfg.heartbeatMaxSilenceS = 0 then .finished else .empty) := by
  unfold sendHeartbeatIfDue
  split
  · exact rfl
  · refine .op .ask fun nowS => .op .silence fun statics => ?_
    show Prog.ObeysTo _ _ (if _ then _ else _) (if _ then _ else _)
    split
    · exact rfl
    · exact sendHeaderOnly_stages .numberDue rfl rfl

/-- The records of a snapshot. -/
theorem sendRecords_stages {snapshot : List (Entry ρ)} {share : UInt8} (hshare : 0 < share.toNat)
    (hne : snapshot ≠ []) : (sendRecords cfg snapshot share).ObeysTo (cycleWatch ρ cfg)
      (fun _ stage => stage = .finished) (.taken share snapshot) := by
  refine .op (.number hshare hne) fun _ => .op .clock fun nowS => ?_
  refine .op (.allowance hshare hne) fun maxUplinks => ?_
  let round := Round.first share (UInt8.ofNat (fragmentsAllowed share snapshot.length maxUplinks))
    nowS snapshot
  have hfuel : round.fragmentCount.toNat < 256 + round.index.toNat := round.fragmentCount.toNat_lt
  have hstart : 0 = min round.start snapshot.length := by
    rw [Round.start_first, Nat.zero_min]
  have hloop := @fragmentLoop_stages _ cfg round rfl hshare hne
    (fun i hi => start_lt_length_of_allowed hshare hi) 256 hfuel UInt8.zero_le 0 hstart
  refine hloop.bind fun sentRecords stage hstage => ?_
  subst hstage
  refine .ite (fun hsome => setBootUplinkSent_stages hsome) fun hnone => ?_
  exact if_neg hnone

variable (ρ cfg) in
/-- **A cycle goes through its stages**, whatever it is answered, and to their end. -/
theorem dispatch_stages : (dispatch (ρ := ρ) cfg).ObeysTo (cycleWatch ρ cfg)
    (fun _ stage => stage = .finished) .begun := by
  refine .op .link fun isConnected => ?_
  cases isConnected with
  | false => exact rfl
  | true =>
    refine .op .rate fun rateCeiling => ?_
    show Prog.ObeysTo _ _ (if _ then _ else _) (if _ then _ else _)
    split
    · exact .op .probe fun _ => rfl
    refine .op .packet fun available => ?_
    show Prog.ObeysTo _ _ (if _ then _ else _) (if _ then _ else _)
    split
    · exact rfl
    show Prog.ObeysTo _ _ (if recordsIn available = 0 then _ else _)
      (if recordsIn available = 0 then _ else _)
    split
    · exact sendHeaderOnly_stages .numberBare rfl (.op .clockBare fun _ => rfl)
    · next hshare =>
      refine .op .stamp fun nowS => .op .scan fun snapshot => ?_
      have hpos : 0 < (recordsIn available).toNat := Nat.pos_of_ne_zero fun hzero =>
        hshare (UInt8.toNat_inj.1 hzero)
      refine .ite (fun hnil => ?_) fun hne => ?_
      · show Prog.ObeysTo _ _ _ (if snapshot.length ≠ 0 then _ else _)
        rw [if_neg (not_not.2 hnil)]
        exact sendHeartbeatIfDue_stages
      · show Prog.ObeysTo _ _ _ (if snapshot.length ≠ 0 then _ else _)
        rw [if_pos hne]
        exact sendRecords_stages hpos (List.length_pos_iff.1 (Nat.pos_of_ne_zero hne))

end Concentrator.Comms
