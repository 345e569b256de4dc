import Concentrator.Comms.Cycle
import Concentrator.Comms.Stages

/-!
# How a cycle cuts a snapshot into fragments

A cycle that nothing is upserted in hands the link the records of its snapshot in order, in
fragments that are full but for the last one, up to the link's allowance or the first fragment it
refuses (`Fragments`); and the table afterwards is the one before with the entries of the accepted
fragments acknowledged. The snapshot is the one the cycle logs (`ExactCycle`). The argument goes by
the stages of the cycle (`Fragmented`): before a round, with the fragments that may follow, those
sent are the ones planned, and their entries are acknowledged.
-/

namespace Concentrator.Comms

open Threaded

variable {ρ : Type} [AsReading ρ] {cfg : Config}

/-- What the calls of a cycle answer when the link is connected, allows `rateCeiling` bytes at best
and `available` bytes in the next packet, and `maxUplinks` transmissions. Sends may be accepted or
refused. -/
def Answers (rateCeiling available maxUplinks : UInt8) : (o : CommsOp ρ) → o.Res → Prop
  | .isConnected, answer => answer = true
  | .getMaxPayloadSize, answer => answer = rateCeiling
  | .getAvailablePayloadSize, answer => answer = available
  | .getMaxUplinksPerDispatch, answer => answer = maxUplinks
  | _, _ => True

variable (ρ cfg) in
/-- One cycle over such a link, with no upsert during it. -/
def quietGuard (rateCeiling available maxUplinks : UInt8) : (cycles ρ cfg).Guard where
  call o view w := Answers rateCeiling available maxUplinks o (perform o view w).1
  other
    | .upsert .., _ => False
    | _, _ => True
  start _ := False

section
variable {ρ : Type}

/-- The `i`-th fragment of `fragmentCount`, of `recordsPerFragment` records of a snapshot. -/
structure IsFragment (snapshot : List (Entry ρ)) (recordsPerFragment fragmentCount i : Nat)
    (f : Fragment ρ) : Prop where
  fragmentIndex : f.header.fragmentIndex.toNat = i
  fragmentCount : f.header.fragmentCount.toNat = fragmentCount
  recordCount : f.header.recordCount.toNat =
    min recordsPerFragment (snapshot.length - i * recordsPerFragment)
  entries : f.entries = (snapshot.drop (i * recordsPerFragment)).take
    (min recordsPerFragment (snapshot.length - i * recordsPerFragment))
  noHeartbeat : f.header.flags &&& UplinkFlags.HEARTBEAT = 0

/-- The fragments a cycle hands to the link from the `i`-th on, with the link's answers: up to the
last one, or up to the first that is refused. -/
inductive Fragments (snapshot : List (Entry ρ)) (recordsPerFragment fragmentCount : Nat) :
    (i : Nat) → List (Fragment ρ × LinkError) → Prop
  | done : Fragments snapshot recordsPerFragment fragmentCount fragmentCount []
  | refused {i : Nat} {f : Fragment ρ} {result : LinkError} : i < fragmentCount →
      IsFragment snapshot recordsPerFragment fragmentCount i f → result ≠ .noError →
      Fragments snapshot recordsPerFragment fragmentCount i [(f, result)]
  | accepted {i : Nat} {f : Fragment ρ} {rest : List (Fragment ρ × LinkError)} : i < fragmentCount →
      IsFragment snapshot recordsPerFragment fragmentCount i f →
      Fragments snapshot recordsPerFragment fragmentCount (i + 1) rest →
      Fragments snapshot recordsPerFragment fragmentCount i ((f, .noError) :: rest)

/-- The addresses an answered fragment brought to the network. -/
def deliveredBy (f : Fragment ρ × LinkError) : List Address :=
  if f.2 = .noError then f.1.entries.map (·.address) else []

/-- The log item of an answered fragment. -/
def sentItem (f : Fragment ρ × LinkError) : LogItem ρ := .sent (.fragment f.1) f.2

end

/-! ## What a cycle has sent -/

section
variable {ρ : Type} {cfg : Config} {rateCeiling available maxUplinks : UInt8} {round : Round ρ}
  {frags : List (Fragment ρ × LinkError)}

/-- The fragments of a whole cycle: those planned for its snapshot, or none with records. -/
structure Planned (available maxUplinks : UInt8) (snapshot : List (Entry ρ))
    (frags : List (Fragment ρ × LinkError)) : Prop where
  fragments : snapshot ≠ [] → Fragments snapshot ((available.toNat - 12) / 26)
    (min ((snapshot.length + (available.toNat - 12) / 26 - 1) / ((available.toNat - 12) / 26))
      maxUplinks.toNat) 0 frags
  recordless : snapshot = [] → ∀ f ∈ frags, f.1.entries = []

theorem planned_nil : Planned available maxUplinks ([] : List (Entry ρ)) [] :=
  ⟨fun hne => absurd rfl hne, fun _ => nofun⟩

/-- The fragments before a round: with those that may follow, they are the ones planned. -/
structure Round.Behind (available maxUplinks : UInt8) (round : Round ρ)
    (frags : List (Fragment ρ × LinkError)) : Prop where
  recordless : round.snapshot = [] → ∀ f ∈ frags, f.1.entries = []
  index : round.snapshot ≠ [] → round.index ≤ round.fragmentCount
  fragments : round.snapshot ≠ [] → ∀ rest,
    Fragments round.snapshot round.share.toNat round.fragmentCount.toNat round.index.toNat rest →
      Planned available maxUplinks round.snapshot (frags ++ rest)

theorem Round.behind_header (nowS : UInt32) :
    (Round.header nowS : Round ρ).Behind available maxUplinks [] :=
  ⟨fun _ => nofun, fun hne => absurd rfl hne, fun hne => absurd rfl hne⟩

theorem Round.behind_first {nowS : UInt32} {snapshot : List (Entry ρ)} :
    (Round.first (recordsIn available) (UInt8.ofNat (fragmentsAllowed (recordsIn available)
      snapshot.length maxUplinks)) nowS snapshot).Behind available maxUplinks [] := by
  refine ⟨fun _ => nofun, fun _ => UInt8.zero_le, fun hne rest hrest => ⟨fun _ => ?_, ?_⟩⟩
  · rw [first, toNat_fragmentsAllowed, toNat_recordsIn] at hrest
    exact hrest
  · exact fun hnil => absurd hnil hne

variable (cfg) in
/-- The fragment of a round. -/
theorem Round.isFragment (hrecords : round.isHeartbeat = false) (statics : Statics)
    (droppedReports evicted : UInt16) :
    IsFragment round.snapshot round.share.toNat round.fragmentCount.toNat round.index.toNat
      (round.fragment cfg statics droppedReports evicted) := by
  have hcount : round.count.toNat =
      min round.share.toNat (round.snapshot.length - round.index.toNat * round.share.toNat) := by
    rw [Round.count_toNat, Round.rest, List.length_drop]
    rfl
  refine ⟨rfl, rfl, hcount, ?_, ?_⟩
  · show round.rest.take round.count.toNat = _
    rw [hcount]
    rfl
  · by_contra hflag
    rw [← Ne, show (round.fragment cfg statics droppedReports evicted).header.flags =
      uplinkFlags cfg statics round.isHeartbeat from rfl, uplinkFlags_heartbeat, hrecords] at hflag
    cases hflag

/-- A round with a snapshot sends records of it, and one without sends none. -/
theorem Round.Due.isHeartbeat_eq_false (hdue : round.Due) (hne : round.snapshot ≠ []) :
    round.isHeartbeat = false := by
  cases hdue with
  | header nowS => exact absurd rfl hne
  | records _ hrecords => exact hrecords

theorem Round.carried_eq_nil (hnil : round.snapshot = []) : round.carried = [] := by
  rw [carried, rest, hnil, List.drop_nil, List.take_nil]

theorem recordless_append {f : Fragment ρ × LinkError} (h : ∀ f ∈ frags, f.1.entries = [])
    (hf : f.1.entries = []) : ∀ f' ∈ frags ++ [f], f'.1.entries = [] := by
  intro f' hf'
  rcases List.mem_append.1 hf' with hf' | hf'
  · exact h f' hf'
  · exact List.mem_singleton.1 hf' ▸ hf

variable (cfg) in
/-- An accepted fragment is behind the next round. -/
theorem Round.Behind.accepted (h : round.Behind available maxUplinks frags) (hdue : round.Due)
    (statics : Statics) (droppedReports evicted : UInt16) :
    round.next.Behind available maxUplinks
      (frags ++ [(round.fragment cfg statics droppedReports evicted, .noError)]) := by
  have hlt := UInt8.lt_iff_toNat_lt.1 hdue.index_lt
  refine ⟨fun hnil => ?_, fun hne => ?_, fun hne rest hrest => ?_⟩
  · exact recordless_append (h.recordless hnil) (Round.carried_eq_nil hnil)
  · rw [UInt8.le_iff_toNat_le, hdue.next_index]
    exact hlt
  · have hfrag := Round.isFragment cfg (hdue.isHeartbeat_eq_false hne) statics droppedReports
      evicted
    rw [hdue.next_index] at hrest
    rw [List.append_assoc]
    exact h.fragments hne _ (.accepted hlt hfrag hrest)

variable (cfg) in
/-- A refused one is the last. -/
theorem Round.Behind.refused (h : round.Behind available maxUplinks frags) (hdue : round.Due)
    {result : LinkError} (hresult : result ≠ .noError) (statics : Statics)
    (droppedReports evicted : UInt16) :
    Planned available maxUplinks round.snapshot
      (frags ++ [(round.fragment cfg statics droppedReports evicted, result)]) := by
  have hlt := UInt8.lt_iff_toNat_lt.1 hdue.index_lt
  by_cases hnil : round.snapshot = []
  · refine ⟨fun hne => absurd hnil hne, fun _ => ?_⟩
    exact recordless_append (h.recordless hnil) (Round.carried_eq_nil hnil)
  · have hfrag := Round.isFragment cfg (hdue.isHeartbeat_eq_false hnil) statics droppedReports
      evicted
    exact h.fragments hnil _ (.refused hlt hfrag hresult)

/-- Where no fragment follows, those planned are sent. -/
theorem Round.Behind.ended (h : round.Behind available maxUplinks frags)
    (hend : round.fragmentCount ≤ round.index) :
    Planned available maxUplinks round.snapshot frags := by
  by_cases hnil : round.snapshot = []
  · exact ⟨fun hne => absurd hnil hne, fun _ => h.recordless hnil⟩
  · have hle := UInt8.le_iff_toNat_le.1 (h.index hnil)
    have hge := UInt8.le_iff_toNat_le.1 hend
    have hdone := h.fragments hnil []
    rw [List.append_nil, Nat.le_antisymm hle hge] at hdone
    exact hdone .done

theorem delivered_append (f : Fragment ρ × LinkError) :
    (frags ++ [f]).flatMap deliveredBy = frags.flatMap deliveredBy ++ deliveredBy f := by
  rw [List.flatMap_append, List.flatMap_singleton]

/-- The log in front of the fragments of a cycle that began in `w`: a snapshot of the table it found
was taken, or none, a record not fitting the packet. -/
inductive Based (available : UInt8) (w : World ρ cfg) : List (Entry ρ) → List (LogItem ρ) → Prop
  | bare : available.toNat < 38 → Based available w [] w.log
  | scanned {snapshot : List (Entry ρ)} (nowS : UInt32) : 38 ≤ available.toNat →
      snapshot = w.table.scan cfg.deviceStaleAfterS nowS cfg.maxDevices →
      Based available w snapshot (.scanned w.table.toTable nowS snapshot :: w.log)

/-- What a cycle that began in `w` has done when it finds this table and this log: behind the
snapshot it handed these fragments to the link, and these addresses are acknowledged. -/
structure Sent (available : UInt8) (w : World ρ cfg) (snapshot : List (Entry ρ))
    (frags : List (Fragment ρ × LinkError)) (addresses : List Address) (t : Table ρ)
    (log : List (LogItem ρ)) : Prop where
  log : ∃ base, Based available w snapshot base ∧ log = (frags.map sentItem).reverse ++ base
  table : t = w.table.acked addresses

variable {w : World ρ cfg} {t : Table ρ} {log : List (LogItem ρ)} {snapshot : List (Entry ρ)}
  {addresses : List Address}

theorem Sent.mem (h : Sent available w snapshot frags addresses t log) :
    ∀ e ∈ snapshot, e ∈ w.table.entries ∧ e.inUse = true := by
  obtain ⟨base, hbase, -⟩ := h.log
  cases hbase with
  | bare => exact nofun
  | scanned nowS _ hsnapshot =>
    intro e he
    rw [hsnapshot] at he
    exact ⟨(Table.mem_scan he).1, (Table.mem_scan he).2.1⟩

/-- One more fragment was handed over. -/
theorem Sent.send (h : Sent available w snapshot frags addresses t log) (f : Fragment ρ)
    (result : LinkError) : Sent available w snapshot (frags ++ [(f, result)]) addresses t
      (.sent (.fragment f) result :: log) := by
  obtain ⟨base, hbase, hlog⟩ := h.log
  refine ⟨⟨base, hbase, ?_⟩, h.table⟩
  rw [List.map_append, List.reverse_append, hlog]
  rfl

/-- One more copy of an entry was acknowledged. -/
theorem Sent.mark (h : Sent available w snapshot frags addresses t log) (hwf : t.WF cfg)
    {copy : Entry ρ} (hcopy : copy ∈ w.table.entries ∧ copy.inUse = true) :
    Sent available w snapshot frags (addresses ++ [copy.address])
      (t.markReported copy.address copy.updateSeq) log := by
  obtain ⟨hlog, rfl⟩ := h
  exact ⟨hlog, w.table.wf.acked_markReported hwf hcopy.1 hcopy.2⟩

/-- What a whole cycle has done. -/
def CycleDone (available maxUplinks : UInt8) (w : World ρ cfg) (t : Table ρ)
    (log : List (LogItem ρ)) : Prop :=
  ∃ snapshot frags, Sent available w snapshot frags (frags.flatMap deliveredBy) t log ∧
    Planned available maxUplinks snapshot frags

/-! ## The cycle, stage by stage -/

/-- What a cycle that began in `w` has done when it finds this table and this log, in each of its
stages. -/
def Fragmented (available maxUplinks : UInt8) (w : World ρ cfg) (t : Table ρ)
    (log : List (LogItem ρ)) : Stage ρ → Prop
  | .begun | .connected | .usable => t = w.table.toTable ∧ log = w.log
  | .probing => False
  | .bare | .bareNumbered => available.toNat < 38 ∧ t = w.table.toTable ∧ log = w.log
  | .roomy share | .stamped share _ =>
    38 ≤ available.toNat ∧ share = recordsIn available ∧ t = w.table.toTable ∧ log = w.log
  | .empty | .asked _ | .due _ => Sent available w [] [] [] t log
  | .taken share snapshot | .numbered share snapshot | .clocked share snapshot _ =>
    share = recordsIn available ∧ Sent available w snapshot [] [] t log
  | .sending round | .identified round _ | .counted round _ _ | .built round _ _ _ =>
    ∃ frags, Sent available w round.snapshot frags (frags.flatMap deliveredBy) t log ∧
      round.Behind available maxUplinks frags
  | .marking round unmarked =>
    ∃ frags addresses, Sent available w round.snapshot frags addresses t log ∧
      addresses ++ unmarked.map (·.address) = frags.flatMap deliveredBy ∧
      (∀ copy ∈ unmarked, copy ∈ w.table.entries ∧ copy.inUse = true) ∧
      round.next.Behind available maxUplinks frags
  | .noting round _ =>
    ∃ frags, Sent available w round.snapshot frags (frags.flatMap deliveredBy) t log ∧
      round.next.Behind available maxUplinks frags
  | .booting | .finished => CycleDone available maxUplinks w t log

theorem fragmented_ended (h : CycleDone available maxUplinks w t log) :
    Fragmented available maxUplinks w t log round.ended :=
  Round.ended_cases round (fun _ => h) fun _ => h

theorem fragmented_round
    (h : Sent available w round.snapshot frags (frags.flatMap deliveredBy) t log)
    (hbehind : round.Behind available maxUplinks frags) :
    Fragmented available maxUplinks w t log round.stage :=
  Round.stage_cases round (fun _ => ⟨frags, h, hbehind⟩) fun hend =>
    fragmented_ended ⟨_, frags, h, hbehind.ended hend⟩

end

section
variable {rateCeiling available maxUplinks : UInt8}

variable (ρ cfg maxUplinks) in
/-- In each stage a cycle over such a link, with room for a header, has done what it should. -/
theorem fragmented_follows (havailable : 12 < available.toNat) (hceiling : available ≤ rateCeiling)
    (w : World ρ cfg) :
    Follows (M := cycles ρ cfg) (cycleWatch ρ cfg)
      (quietGuard ρ cfg rateCeiling available maxUplinks)
      fun stage w' => Fragmented available maxUplinks w w'.table.toTable w'.log stage where
  stable := by
    intro stage x w' hg h
    cases x with
    | upsert => exact hg.elim
    | tick => exact h
    | dropReport => exact h
  call := by
    intro stage o view w' hmakes hanswer h
    have hle := UInt8.le_iff_toNat_le.1 hceiling
    cases hmakes with
    | link =>
      have hup : view.isConnected = true := hanswer
      show Fragmented _ _ _ _ _ (if view.isConnected then _ else _)
      rw [if_pos hup]
      exact h
    | rate =>
      obtain rfl : view.maxPayloadSize = rateCeiling := hanswer
      show Fragmented _ _ _ _ _ (if view.maxPayloadSize.toNat ≤ 12 then _ else _)
      rw [if_neg (by omega)]
      exact h
    | probe => exact h.elim
    | packet =>
      obtain rfl : view.availablePayloadSize = available := hanswer
      show Fragmented _ _ _ _ _ (if view.availablePayloadSize.toNat ≤ 12 then _
        else if recordsIn view.availablePayloadSize = 0 then _ else _)
      rw [if_neg (by omega)]
      split
      · next hnone => exact ⟨recordsIn_eq_zero.1 hnone, h⟩
      · next hsome => exact ⟨Nat.not_lt.1 fun hlt => hsome (recordsIn_eq_zero.2 hlt), rfl, h⟩
    | stamp => exact h
    | @scan share nowS =>
      obtain ⟨hroom, hshare, htable, hlog⟩ := h
      let snapshot := w'.table.scan cfg.deviceStaleAfterS nowS cfg.maxDevices
      have hsent : Sent available w snapshot [] [] w'.table.toTable
          (.scanned w'.table.toTable nowS snapshot :: w'.log) := by
        have hscan : snapshot = w.table.scan cfg.deviceStaleAfterS nowS cfg.maxDevices :=
          congrArg (Table.scan · _ _ _) htable
        rw [htable, hlog]
        exact ⟨⟨_, .scanned nowS hroom hscan, rfl⟩, (Table.acked_nil _).symm⟩
      show Fragmented _ _ _ _ _ (if snapshot.length ≠ 0 then _ else if _ then _ else _)
      split
      · exact ⟨hshare, hsent⟩
      next hempty =>
      have hnil : snapshot = [] := List.eq_nil_of_length_eq_zero (not_not.1 hempty)
      split
      · exact ⟨snapshot, [], hsent, hnil ▸ planned_nil⟩
      · show Sent available w [] [] [] w'.table.toTable
          (.scanned w'.table.toTable nowS snapshot :: w'.log)
        rw [← hnil]
        exact hsent
    | ask => exact h
    | silence =>
      show Fragmented _ _ _ _ _ (if _ then _ else _)
      split
      · exact ⟨[], [], h, planned_nil⟩
      · exact h
    | numberDue => exact ⟨[], h, Round.behind_header _⟩
    | numberBare => exact h
    | clockBare =>
      obtain ⟨hnone, htable, hlog⟩ := h
      refine ⟨[], ⟨⟨w.log, .bare hnone, hlog⟩, ?_⟩, Round.behind_header _⟩
      exact htable.trans (Table.acked_nil _).symm
    | number => exact h
    | clock => exact h
    | allowance =>
      obtain ⟨rfl, hsent⟩ := h
      obtain rfl : view.maxUplinksPerDispatch = maxUplinks := hanswer
      exact fragmented_round hsent Round.behind_first
    | statics => exact h
    | dropped => exact h
    | evicted => exact h
    | @send round statics droppedReports evicted hdue =>
      obtain ⟨frags, hsent, hbehind⟩ := h
      have hnext := hsent.send (round.fragment cfg statics droppedReports evicted) view.sendResult
      show Fragmented _ _ _ _ (.sent _ view.sendResult :: w'.log)
        (if view.sendResult = .noError then _ else _)
      split
      · next hresult =>
        rw [hresult] at hnext ⊢
        refine ⟨_, _, hnext, ?_, fun copy hcopy => ?_,
          hbehind.accepted cfg hdue statics droppedReports evicted⟩
        · rw [delivered_append, deliveredBy, if_pos rfl]
          rfl
        · exact hsent.mem copy (List.mem_of_mem_drop (List.mem_of_mem_take hcopy))
      · next hresult =>
        refine fragmented_ended
          ⟨_, _, ?_, hbehind.refused cfg hdue hresult statics droppedReports evicted⟩
        rw [delivered_append, deliveredBy, if_neg hresult, List.append_nil]
        exact hnext
    | @mark round copy unmarked =>
      obtain ⟨frags, addresses, hsent, haddresses, hmem, hbehind⟩ := h
      refine ⟨frags, addresses ++ [copy.address], ?_, ?_, fun c hc => hmem c (.tail _ hc), hbehind⟩
      · exact hsent.mark w'.table.wf (hmem copy (.head _))
      · rw [List.append_assoc]
        exact haddresses
    | read =>
      obtain ⟨frags, addresses, hsent, haddresses, -, hbehind⟩ := h
      rw [List.map_nil, List.append_nil] at haddresses
      exact ⟨frags, haddresses ▸ hsent, hbehind⟩
    | note =>
      obtain ⟨frags, hsent, hbehind⟩ := h
      exact fragmented_round hsent hbehind
    | boot => exact h

variable (maxUplinks) in
/-- So it has when it has ended. -/
theorem cycleDone_of_ended (havailable : 12 < available.toNat) (hceiling : available ≤ rateCeiling)
    {w : World ρ cfg} {c : (cycles ρ cfg).Conf}
    (hc : Reach (quietGuard ρ cfg rateCeiling available maxUplinks) ⟨w, some (dispatch cfg)⟩ c)
    (hnone : c.running = none) :
    CycleDone available maxUplinks w c.state.table.toTable c.state.log :=
  (fragmented_follows ρ cfg maxUplinks havailable hceiling w).ended (fun _ hg => hg) (fun _ h => h)
    (dispatch_stages ρ cfg) ⟨rfl, rfl⟩ hc hnone

/-! ## The fragments of a snapshot -/

/-- What a cycle that began in `w` has done in `w'`: it logged one snapshot, of the table it found,
and behind it the fragments it handed to the link, and the entries the link accepted are
acknowledged. Of a snapshot with entries they are the fragments planned; else they carry none. -/
structure ExactCycle (available maxUplinks : UInt8) (nowS : UInt32) (snapshot : List (Entry ρ))
    (frags : List (Fragment ρ × LinkError)) (w w' : World ρ cfg) : Prop where
  log : w'.log = (frags.map sentItem).reverse ++ .scanned w.table.toTable nowS snapshot :: w.log
  scanned : snapshot = w.table.scan cfg.deviceStaleAfterS nowS cfg.maxDevices
  fragments : snapshot ≠ [] → Fragments snapshot ((available.toNat - 12) / 26)
    (min ((snapshot.length + (available.toNat - 12) / 26 - 1) / ((available.toNat - 12) / 26))
      maxUplinks.toNat) 0 frags
  recordless : snapshot = [] → ∀ f ∈ frags, f.1.entries = []
  table : w'.table.toTable = w.table.acked (frags.flatMap deliveredBy)

omit [AsReading ρ] in
/-- With room for a record, a cycle takes a snapshot. -/
theorem CycleDone.exact {w w' : World ρ cfg} (havailable : 12 + 26 ≤ available.toNat)
    (h : CycleDone available maxUplinks w w'.table.toTable w'.log) :
    ∃ nowS snapshot frags, ExactCycle available maxUplinks nowS snapshot frags w w' := by
  obtain ⟨snapshot, frags, ⟨⟨base, hbase, hlog⟩, htable⟩, hplanned⟩ := h
  cases hbase with
  | bare hnone => omega
  | scanned nowS _ hscan =>
    exact ⟨nowS, snapshot, frags, hlog, hscan, hplanned.fragments, hplanned.recordless, htable⟩

omit [AsReading ρ] in
/-- Every fragment handed to the link is one of those planned. -/
theorem Fragments.isFragment {snapshot : List (Entry ρ)} {r n i : Nat}
    {frags : List (Fragment ρ × LinkError)} (h : Fragments snapshot r n i frags) :
    ∀ p ∈ frags, ∃ j < n, IsFragment snapshot r n j p.1 := by
  induction h with
  | done => exact fun _ hp => (List.not_mem_nil hp).elim
  | refused hi hf _ =>
    intro p hp
    cases List.mem_singleton.1 hp
    exact ⟨_, hi, hf⟩
  | accepted hi hf _ ih =>
    intro p hp
    rcases List.mem_cons.1 hp with rfl | hp
    · exact ⟨_, hi, hf⟩
    · exact ih p hp

/-- A planned fragment has at least one record, and fits the packet and the buffer. -/
theorem IsFragment.size {snapshot : List (Entry ρ)} {n j : Nat} {f : Fragment ρ}
    (hf : IsFragment snapshot ((available.toNat - 12) / 26) n j f)
    (havailable : 12 + 26 ≤ available.toNat)
    (hn : n ≤ (snapshot.length + (available.toNat - 12) / 26 - 1) / ((available.toNat - 12) / 26))
    (hj : j < n) : 1 ≤ f.header.recordCount.toNat ∧
      f.bytes.length = 12 + 26 * f.header.recordCount.toNat ∧
      f.bytes.length ≤ available.toNat ∧ f.bytes.length ≤ 255 := by
  have hbyte := available.toNat_lt
  have hpos : 0 < (available.toNat - 12) / 26 := by omega
  have hstart : j * ((available.toNat - 12) / 26) < snapshot.length := by
    have hle : j + 1 ≤ (snapshot.length + (available.toNat - 12) / 26 - 1) /
        ((available.toNat - 12) / 26) := by omega
    rw [Nat.le_div_iff_mul_le hpos, Nat.succ_mul] at hle
    omega
  have hlen : f.entries.length = f.header.recordCount.toNat := by
    rw [hf.entries, hf.recordCount, List.length_take, List.length_drop]
    omega
  have hcount := hf.recordCount
  have hbytes := f.length_bytes
  rw [hlen] at hbytes
  omega

/-- **Fragmentation is exact.** A cycle over a connected link with room for a record, with no upsert
during it, runs to its end, and then: its log is one snapshot, of the table it found, and the
fragments it handed to the link; if the snapshot is not empty, these are those planned, up to the
last one or the first one refused, and each has at least one record and fits the packet and the
buffer; and the table is the one before with the delivered entries acknowledged, so that what is
pending is what was, less these. -/
theorem dispatch_exact (w : World ρ cfg) (rateCeiling available maxUplinks : UInt8)
    (havailable : 12 + 26 ≤ available.toNat)
    (hceiling : available ≤ rateCeiling) :
    (∃ c, Reach (quietGuard ρ cfg rateCeiling available maxUplinks) ⟨w, some (dispatch cfg)⟩ c ∧
      c.running = none) ∧
    ∀ c, Reach (quietGuard ρ cfg rateCeiling available maxUplinks) ⟨w, some (dispatch cfg)⟩ c →
      c.running = none →
      ∃ nowS snapshot frags, ExactCycle available maxUplinks nowS snapshot frags w c.state ∧
        (snapshot ≠ [] → ∀ p ∈ frags, 1 ≤ p.1.header.recordCount.toNat ∧
          p.1.bytes.length = 12 + 26 * p.1.header.recordCount.toNat ∧
          p.1.bytes.length ≤ available.toNat ∧ p.1.bytes.length ≤ 255) ∧
        c.state.table.pending =
          w.table.pending.filter fun e => e.address ∉ frags.flatMap deliveredBy := by
  constructor
  · refine finishes (G := quietGuard ρ cfg rateCeiling available maxUplinks) (fun o w => ?_)
      (dispatch cfg) w
    refine ⟨⟨true, rateCeiling, available, maxUplinks, .noError⟩, ?_⟩
    cases o <;> first | rfl | trivial
  · intro c hc hnone
    have hdone := cycleDone_of_ended maxUplinks (by omega) hceiling hc hnone
    obtain ⟨nowS, snapshot, frags, hexact⟩ := hdone.exact havailable
    refine ⟨nowS, snapshot, frags, hexact, fun hne p hp => ?_, ?_⟩
    · obtain ⟨j, hj, hf⟩ := (hexact.fragments hne).isFragment p hp
      exact hf.size havailable (Nat.min_le_left _ _) hj
    · rw [hexact.table, Table.pending_acked]

end

section
variable {cfg : Config}

/-- The test of `quietGuard` for a link of 51 bytes and two transmissions. -/
def quietStep : (cycles Reading cfg).Label → (cycles Reading cfg).Conf → Bool
  | .call view, _ => view.isConnected && decide (view.maxPayloadSize = 51) &&
      decide (view.availablePayloadSize = 51) && decide (view.maxUplinksPerDispatch = 2)
  | .other (.tick _), _ => true
  | _, _ => false

theorem quietStep_allows (l : (cycles Reading cfg).Label)
    (c : (cycles Reading cfg).Conf) (h : quietStep l c = true) :
    (quietGuard Reading cfg 51 51 2).Allows l c := by
  obtain ⟨w, r⟩ := c
  match l, r with
  | .other (.tick _), _ | .call _, none | .call _, some (.pure _) => trivial
  | .call view, some (.call o _) =>
    simp only [quietStep, Bool.and_eq_true, decide_eq_true_iff] at h
    obtain ⟨⟨⟨hconnected, hmax⟩, havailable⟩, huplinks⟩ := h
    cases o with
    | isConnected => exact hconnected
    | getMaxPayloadSize => exact hmax
    | getAvailablePayloadSize => exact havailable
    | getMaxUplinksPerDispatch => exact huplinks
    | _ => trivial

end

/-- How many entries an item copied out. -/
def LogItem.copied : LogItem ρ → Nat
  | .scanned _ _ snapshot => snapshot.length
  | _ => 0

/-- A cycle over a table of two devices, with time passing before its scan, whose first fragment is
accepted and whose second one is refused. -/
theorem dispatch_exact_two :
    let w : World Reading (.ofDevices 2) :=
      (Act.upsert (.ofByte 2) (-60) default).run ((Act.upsert (.ofByte 1) (-50) default).run .boot)
    ∃ c : (cycles Reading (.ofDevices 2)).Conf,
      Reach (quietGuard Reading (.ofDevices 2) 51 51 2) ⟨w, some (dispatch (.ofDevices 2))⟩ c ∧
      ∃ nowS snapshot frags, snapshot.length = 2 ∧ frags.length = 2 ∧
        ExactCycle 51 2 nowS snapshot frags w c.state ∧ c.state.table.pending.length = 1 := by
  intro w
  let accepting : LinkView := { openLink with maxUplinksPerDispatch := 2 }
  obtain ⟨c, hreach, htest⟩ := Reach.exists_of_runWithin quietStep_allows
    (List.replicate 4 (.call accepting) ++ .other (.tick 1) ::
      List.replicate 14 (.call accepting) ++
      List.replicate 2 (.call { accepting with sendResult := .sendError }))
    (c := ⟨w, some (dispatch (.ofDevices 2))⟩)
    (fun c => c.running.isNone && decide ((∃ item ∈ c.state.log, item.copied = 2) ∧
      c.state.log.length = 5 ∧ c.state.table.pending.length = 1)) (by decide)
  obtain ⟨hidle, htest⟩ := Bool.and_eq_true_iff.1 htest
  obtain ⟨hcopied, hlength, hpending⟩ := of_decide_eq_true htest
  obtain ⟨nowS, snapshot, frags, hexact, -⟩ :=
    (dispatch_exact w 51 51 2 (by decide) (by decide)).2 c hreach
      (Option.isNone_iff_eq_none.1 hidle)
  rw [hexact.log] at hcopied hlength
  refine ⟨c, hreach, nowS, snapshot, frags, ?_, ?_, hexact, hpending⟩
  · obtain ⟨item, hitem, hcopied⟩ := hcopied
    rcases List.mem_append.1 hitem with hsent | hitem
    · obtain ⟨f, -, rfl⟩ := List.mem_map.1 (List.mem_reverse.1 hsent)
      cases hcopied
    · rcases List.mem_cons.1 hitem with rfl | hbefore
      · exact hcopied
      · exact absurd hcopied ((by decide : ∀ item ∈ w.log, item.copied ≠ 2) item hbefore)
  · simpa [w, Act.run, World.boot] using hlength

end Concentrator.Comms
