import Concentrator.Comms.Deferral
import Concentrator.Comms.OneCycle
import Concentrator.DeviceTable.Ahead

/-!
# A device's turn

Every snapshot begins at the table's first slot, so a device in a late slot is passed over as long
as those in front of it fill the cycles. How long is bounded: over a link that takes what it is
given, a cycle that does not bring the device's turn takes a cycle's share of records away from the
front, and only readings recorded meanwhile put any back. A reading of another device puts back one.
A reading of the device's own may cost it the cycle: recorded between the clock and the scan of the
snapshot, it makes the device look stale.

Between two cycles the argument is a sum (`Owes`). Within one it goes by the entries (`Passed`): in
front of the device stands nothing but what stood there at the scan and is not acknowledged yet, and
what was updated since.
-/

namespace Concentrator.Comms

open Threaded

section
variable {ρ : Type} {cfg : Config}

/-- The devices whose readings were recorded. -/
def updates (items : List (LogItem ρ)) : List Address :=
  items.filterMap fun
    | .upserted address .. => some address
    | _ => none

/-- The devices whose records were delivered. -/
def deliveredAddresses (items : List (LogItem ρ)) : List Address :=
  (acceptedEntries items).map (·.address)

/-- What the readings recorded meanwhile cost a device, in records, when a cycle carries `share`. -/
def delay (address : Address) (share : Nat) (items : List (LogItem ρ)) : Nat :=
  (updates items).countP (· ≠ address) + share * (updates items).count address

/-- The device has a reading that a snapshot would copy out now. -/
def World.Waits (address : Address) (w : World ρ cfg) : Prop :=
  ∃ e ∈ w.table.entries, e.Holds address ∧ e.Reportable cfg.deviceStaleAfterS w.uptime

/-- What a link answers that has room for `records` records in a packet and for `uplinks` packets in
a cycle, at least, and takes each. -/
def Grants (records uplinks : Nat) : (o : CommsOp ρ) → o.Res → Prop
  | .isConnected, answer => answer = true
  | .getMaxPayloadSize, answer => 12 < answer.toNat
  | .getAvailablePayloadSize, answer => 12 + 26 * records ≤ answer.toNat
  | .getMaxUplinksPerDispatch, answer => uplinks ≤ answer.toNat
  | .send _, answer => answer = .noError
  | _, _ => True

/-! ## The books -/

@[simp] theorem updates_append (items earlier : List (LogItem ρ)) :
    updates (items ++ earlier) = updates items ++ updates earlier :=
  List.filterMap_append

@[simp] theorem deliveredAddresses_append (items earlier : List (LogItem ρ)) :
    deliveredAddresses (items ++ earlier) =
      deliveredAddresses items ++ deliveredAddresses earlier := by
  simp [deliveredAddresses, acceptedEntries]

@[simp] theorem delay_append (address : Address) (share : Nat) (items earlier : List (LogItem ρ)) :
    delay address share (items ++ earlier) =
      delay address share items + delay address share earlier := by
  simp only [delay, updates_append, List.countP_append, List.count_append, Nat.mul_add]
  omega

variable {address : Address} {share debt debt' : Nat} {acked : List (Entry ρ)}
  {w₀ w₁ w : World ρ cfg}

/-- A record of the device's was delivered since `w₀`. -/
def Reported (address : Address) (w₀ w : World ρ cfg) : Prop :=
  ∃ items, w.log = items ++ w₀.log ∧ address ∈ deliveredAddresses items

/-- Since `w₀`, a record of the device's was delivered, or it waits, and the entries in front of it,
with a share for every cycle begun, are no more than there were, and what the readings recorded
meanwhile cost it, and a debt. -/
inductive Owes (address : Address) (share : Nat) (w₀ : World ρ cfg) (debt : Nat) (w : World ρ cfg) :
    Prop where
  | reported (reported : Reported address w₀ w)
  | waits (items : List (LogItem ρ)) (log : w.log = items ++ w₀.log) (waits : w.Waits address)
    (sum : (w.table.ahead address).length + share * items.countP LogItem.isBegan ≤
      (w₀.table.ahead address).length + delay address share items + debt)

/-- Since `w₁`, in the same cycle and with the copies `acked` acknowledged, a record of the device's
was delivered, or it waits, none of the copies is its own, and in front of it stands nothing but
what stood there and is not acknowledged, and what was updated. -/
inductive Passed (address : Address) (w₁ : World ρ cfg) (acked : List (Entry ρ)) (w : World ρ cfg) :
    Prop where
  | reported (reported : Reported address w₁ w)
  | waits (items : List (LogItem ρ)) (log : w.log = items ++ w₁.log)
    (sameCycle : items.countP LogItem.isBegan = 0) (waits : w.Waits address)
    (others : ∀ copy ∈ acked, copy.address ≠ address)
    (ahead : ∀ e ∈ w.table.ahead address,
      e.address ∈ updates items ∨ (e ∈ w₁.table.ahead address ∧ e ∉ acked))

theorem Passed.refl (h : w.Waits address) : Passed address w [] w :=
  .waits [] rfl rfl h nofun fun _ he => .inr ⟨he, List.not_mem_nil⟩

/-- What was delivered stays so. -/
theorem Reported.append (h : Reported address w₀ w₁) {items : List (LogItem ρ)}
    (hlog : w.log = items ++ w₁.log) : Reported address w₀ w := by
  obtain ⟨earlier, hearlier, hdelivered⟩ := h
  refine ⟨items ++ earlier, by rw [hlog, hearlier, List.append_assoc], ?_⟩
  simp [hdelivered]

theorem Reported.cons (h : Reported address w₀ w₁) {item : LogItem ρ}
    (hlog : w.log = item :: w₁.log) : Reported address w₀ w :=
  h.append (show w.log = [item] ++ w₁.log from hlog)

/-- What is delivered later counts as well. -/
theorem Reported.since {items : List (LogItem ρ)} (h : Reported address w₁ w)
    (hlog : w₁.log = items ++ w₀.log) : Reported address w₀ w := by
  obtain ⟨later, hlater, hdelivered⟩ := h
  refine ⟨later ++ items, by rw [hlater, hlog, List.append_assoc], ?_⟩
  simp [hdelivered]

/-- What stood in front of the device and was acknowledged pays the debt, and so do the device's own
readings, which cost it a cycle that it has not lost. -/
theorem Owes.pay (h : Owes address share w₀ debt w₁) (hp : Passed address w₁ acked w)
    (hacked : acked ⊆ w₁.table.ahead address) (hnodup : acked.Nodup)
    (hpaid : ∀ items, w.log = items ++ w₁.log →
      debt ≤ acked.length + share * (updates items).count address + debt') :
    Owes address share w₀ debt' w := by
  cases h with
  | reported hreported =>
    cases hp with
    | reported hlater => exact .reported (hreported.append hlater.choose_spec.1)
    | waits items hlog => exact .reported (hreported.append hlog)
  | waits earlier hearlier _ hsum =>
    cases hp with
    | reported hreported => exact .reported (hreported.since hearlier)
    | waits items hlog hsame hwaits _ hahead =>
      refine .waits (items ++ earlier) (by rw [hlog, hearlier, List.append_assoc]) hwaits ?_
      have hlength := w.table.wf.length_ahead_le hacked hnodup hahead
      have hpaid := hpaid items hlog
      rw [delay_append, List.countP_append, hsame, Nat.zero_add]
      unfold delay at hsum ⊢
      omega

/-- The service's variables do not matter to either. -/
theorem Owes.statics (h : Owes address share w₀ debt w) (statics : Statics) :
    Owes address share w₀ debt { w with statics := statics } := by
  cases h with
  | reported h => exact .reported h
  | waits items hlog hwaits hsum => exact .waits items hlog hwaits hsum

theorem Passed.statics (h : Passed address w₁ acked w) (statics : Statics) :
    Passed address w₁ acked { w with statics := statics } := by
  cases h with
  | reported h => exact .reported h
  | waits items hlog hsame hwaits hothers hahead =>
    exact .waits items hlog hsame hwaits hothers hahead

/-- A device that waits has a slot. -/
theorem World.Waits.has (h : w.Waits address) : w.table.Has address := by
  obtain ⟨e, he, hholds, -⟩ := h
  exact ⟨e, he, hholds⟩

/-- The acknowledgement of another device's record. -/
theorem Passed.markReported (h : Passed address w₁ acked w) {copy : Entry ρ} (view : LinkView)
    (hcopy : copy.address ≠ address) :
    Passed address w₁ (acked ++ [copy]) (perform (.markReported copy) view w).2 := by
  cases h with
  | reported h => exact .reported h
  | waits items hlog hsame hwaits hothers hahead =>
    refine .waits items hlog hsame ?_ (fun c hc => ?_) fun e he => ?_
    · obtain ⟨e, he, hholds, hreportable⟩ := hwaits
      refine ⟨e, ?_, hholds, hreportable⟩
      have hother : ¬ (e.Holds copy.address ∧ e.updateSeq = copy.updateSeq) :=
        fun hack => hcopy (hack.1.2.symm.trans hholds.2)
      show e ∈ (w.table.toTable.markReported copy.address copy.updateSeq).entries
      rw [w.table.wf.markReported_entries]
      exact List.mem_map.2 ⟨e, he, if_neg hother⟩
    · rcases List.mem_append.1 hc with hc | hc
      · exact hothers c hc
      · exact List.mem_singleton.1 hc ▸ hcopy
    · obtain ⟨he, hnot⟩ := w.table.wf.mem_ahead_markReported he
      refine (hahead e he).imp id fun ⟨hbefore, hout⟩ => ⟨hbefore, fun hmem => ?_⟩
      rcases List.mem_append.1 hmem with hmem | hmem
      · exact hout hmem
      · obtain rfl := List.mem_singleton.1 hmem
        exact hnot ⟨⟨(Table.mem_ahead.1 he).2.1, rfl⟩, rfl⟩

/-- What the link takes is delivered, be the device's own among it or not. -/
theorem Passed.sent (h : Passed address w₁ acked w) (uplink : Uplink ρ) {view : LinkView}
    (hresult : view.sendResult = .noError) :
    Passed address w₁ acked (perform (.send uplink) view w).2 ∧
      (Reported address w₁ (perform (.send uplink) view w).2 ∨
        ∀ copy ∈ uplink.entries, copy.address ≠ address) := by
  have hlog : (perform (.send uplink) view w).2.log = [.sent uplink .noError] ++ w.log := by
    show LogItem.sent uplink view.sendResult :: w.log = _
    rw [hresult]
    rfl
  cases h with
  | reported h => exact ⟨.reported (h.append hlog), .inl (h.append hlog)⟩
  | waits items hitems hsame hwaits hothers hahead =>
    rw [hitems, ← List.append_assoc] at hlog
    refine ⟨.waits _ hlog hsame hwaits hothers hahead, ?_⟩
    by_cases hown : address ∈ uplink.entries.map (·.address)
    · refine .inl ⟨_, hlog, ?_⟩
      rw [deliveredAddresses_append]
      refine List.mem_append_left _ ?_
      simpa [deliveredAddresses, acceptedEntries, LogItem.accepted] using hown
    · exact .inr fun copy hcopy heq => hown (List.mem_map.2 ⟨copy, hcopy, heq⟩)

variable [AsReading ρ]

variable (ρ cfg) in
/-- Runs over such a link in which a device that waits is not evicted, does not go stale, and is not
updated so often that its counter wraps around to the one reported. -/
def turnGuard (address : Address) (records uplinks : Nat) : (cycles ρ cfg).Guard where
  call o view w := Grants records uplinks o (perform o view w).1
  other x w := w.Waits address → (x.run w).Waits address

/-! ## What the others do -/

variable {records uplinks : Nat}

theorem reported_stable (w₀ : World ρ cfg) :
    Stable (turnGuard ρ cfg address records uplinks) (Reported address w₀) := by
  intro x w _ h
  cases x with
  | upsert other rssi reading => exact h.cons rfl
  | tick seconds => exact h
  | dropReport => exact h

/-- Nothing the others do brings anything in front of the device but what they update. -/
theorem passed_stable (w₁ : World ρ cfg) (acked : List (Entry ρ)) :
    Stable (turnGuard ρ cfg address records uplinks) (Passed address w₁ acked) := by
  intro x w hg h
  cases h with
  | reported h => exact .reported (reported_stable w₁ x w hg h)
  | waits items hlog hsame hwaits hothers hahead =>
    cases x with
    | tick seconds => exact .waits items hlog hsame (hg hwaits) hothers hahead
    | dropReport => exact .waits items hlog hsame hwaits hothers hahead
    | upsert other rssi reading =>
      refine .waits (_ :: items) (congrArg (_ :: ·) hlog) hsame (hg hwaits) hothers fun e he => ?_
      rcases w.table.wf.mem_ahead_upsert hwaits.has (hg hwaits).has he with rfl | he
      · exact .inl (.head _)
      · exact (hahead e he).imp (.tail _) id

/-- A debt stays what it is. -/
theorem owes_stable (w₀ : World ρ cfg) (debt : Nat) :
    Stable (turnGuard ρ cfg address records uplinks) (Owes address share w₀ debt) := by
  intro x w hg h
  cases h with
  | reported h => exact .reported (reported_stable w₀ x w hg h)
  | waits items hlog hwaits hsum =>
    have hpassed := passed_stable w [] x w hg (.refl hwaits)
    exact (Owes.waits items hlog hwaits hsum).pay hpassed (List.nil_subset _) .nil
      fun _ _ => by omega

/-! ## What a cycle acknowledges -/

variable {round : Round ρ} {stage : Stage ρ}

omit [AsReading ρ] in
theorem Passed.log_eq (h : Passed address w₁ acked w) : ∃ items, w.log = items ++ w₁.log := by
  cases h with
  | reported h => exact ⟨_, h.choose_spec.1⟩
  | waits items hlog => exact ⟨items, hlog⟩

omit [AsReading ρ] in
/-- Where the acknowledged copies are not at issue. -/
theorem Passed.forget (h : Passed address w₁ acked w) : Passed address w₁ [] w := by
  cases h with
  | reported h => exact .reported h
  | waits items hlog hsame hwaits _ hahead =>
    exact .waits items hlog hsame hwaits nofun fun e he =>
      (hahead e he).imp id fun ⟨hbefore, _⟩ => ⟨hbefore, List.not_mem_nil⟩

/-- The acknowledgement of the first `n` entries of the snapshot taken in `w₁` pays the debt. -/
def Pays (address : Address) (share : Nat) (w₀ w₁ : World ρ cfg) (snapshot : List (Entry ρ))
    (n : Nat) : Prop :=
  ∀ w, Passed address w₁ (snapshot.take n) w → Owes address share w₀ 0 w

omit [AsReading ρ] in
/-- So does that of a cycle's share, if the device is in the snapshot. -/
theorem pays_snapshot {snapshot : List (Entry ρ)} {nowS : UInt32} {n : Nat}
    (hsnapshot : snapshot = w₁.table.scan cfg.deviceStaleAfterS nowS cfg.maxDevices)
    (h : Owes address share w₀ debt w₁)
    (hturn : debt = 0 ∨ debt ≤ records * uplinks ∧ ∃ e ∈ snapshot, e.Holds address)
    (hn : min (records * uplinks) snapshot.length ≤ n) : Pays address share w₀ w₁ snapshot n := by
  intro w₂ h₂
  cases h with
  | reported h => exact .reported (h.append h₂.log_eq.choose_spec)
  | waits items hlog hwaits hsum =>
    have h : Owes address share w₀ debt w₁ := .waits items hlog hwaits hsum
    rcases hturn with rfl | ⟨hdebt, e, he, hholds⟩
    · exact h.pay h₂.forget (List.nil_subset _) .nil fun _ _ => by omega
    by_cases hin : e ∈ snapshot.take n
    · -- Its turn has come.
      cases h₂ with
      | reported hreported => exact .reported (hreported.since hlog)
      | waits _ _ _ _ hothers => exact absurd hholds.2 (hothers e hin)
    · have hlt : n < snapshot.length := by
        refine Nat.lt_of_not_le fun hle => hin ?_
        rwa [List.take_of_length_le hle]
      have hnodup : snapshot.Nodup := by
        rw [hsnapshot, w₁.table.wf.scan_eq_filter]
        exact (nodup_scan w₁.table.wf _ _).of_map _
      subst hsnapshot
      refine h.pay h₂ (w₁.table.wf.take_scan_subset_ahead he hholds hin)
        (hnodup.sublist (List.take_sublist _ _)) fun _ _ => ?_
      rw [List.length_take]
      omega

/-- As many fragments as are needed or allowed carry a cycle's share of the records, or all. -/
theorem share_le_allowed {share maxUplinks : UInt8} {length : Nat} (hshare : 0 < share.toNat)
    (hrecords : records ≤ share.toNat) (hmax : uplinks ≤ maxUplinks.toNat) :
    min (records * uplinks) length ≤
      (UInt8.ofNat (fragmentsAllowed share length maxUplinks)).toNat * share.toNat := by
  rw [toNat_fragmentsAllowed]
  rcases Nat.le_total ((length + share.toNat - 1) / share.toNat) maxUplinks.toNat with hle | hle
  · have hdiv := Nat.div_add_mod' (length + share.toNat - 1) share.toNat
    have hmod := Nat.mod_lt (length + share.toNat - 1) hshare
    rw [Nat.min_eq_left hle]
    omega
  · have hcarried := Nat.mul_le_mul hrecords hmax
    rw [Nat.min_eq_right hle, Nat.mul_comm maxUplinks.toNat]
    omega

/-- Since the clock was read in `w₁`, the device was updated, or its entry is the same. -/
def Unmoved (address : Address) (w₁ w : World ρ cfg) : Prop :=
  ∀ items, w.log = items ++ w₁.log → address ∈ updates items ∨
    ∀ e ∈ w.table.entries, e.Holds address → e ∈ w₁.table.entries

/-- The others keep it. -/
theorem unmoved_stable (w₁ : World ρ cfg) :
    Stable (turnGuard ρ cfg address records uplinks) fun w =>
      Passed address w₁ [] w ∧ Unmoved address w₁ w := by
  rintro x w hg ⟨hp, h⟩
  refine ⟨passed_stable w₁ [] x w hg hp, ?_⟩
  cases x with
  | tick seconds => exact h
  | dropReport => exact h
  | upsert other rssi reading =>
    intro items hitems
    obtain ⟨earlier, hearlier⟩ := hp.log_eq
    obtain rfl : items = .upserted other rssi (AsReading.stamp w.upserts reading) :: earlier := by
      refine List.append_cancel_right (hitems.symm.trans ?_)
      exact congrArg (_ :: ·) hearlier
    by_cases hown : other = address
    · exact .inl (hown ▸ .head _)
    · refine (h earlier hearlier).imp (.tail _) fun hsame e he hholds => ?_
      rcases w.table.wf.mem_upsert he with ⟨b, hb, -, rfl⟩ | ⟨hold, -⟩
      · exact absurd (hb.2.symm.trans hholds.2) hown
      · exact hsame e hold hholds

omit [AsReading ρ] in
/-- A snapshot settles nothing. -/
theorem Owes.scanned (h : Owes address share w₀ debt w) (nowS : UInt32) (view : LinkView) :
    Owes address share w₀ debt (perform (.scan nowS) view w).2 := by
  cases h with
  | reported h => exact .reported (h.cons rfl)
  | waits items hlog hwaits hsum =>
    exact .waits (_ :: items) (congrArg (_ :: ·) hlog) hwaits hsum

omit [AsReading ρ] in
/-- What the snapshot finds, with the clock read in `w₁`: the device in it, or the debt paid by a
reading of the device's own. -/
theorem Owes.snapshot (h : Owes address (records * uplinks) w₀ (records * uplinks) w₁)
    (hp : Passed address w₁ [] w) (hunmoved : Unmoved address w₁ w) :
    ∃ debt, Owes address (records * uplinks) w₀ debt w ∧
      (debt = 0 ∨ debt ≤ records * uplinks ∧
        ∃ e ∈ w.table.scan cfg.deviceStaleAfterS w₁.uptime cfg.maxDevices, e.Holds address) := by
  obtain ⟨items, hitems⟩ := hp.log_eq
  rcases hunmoved items hitems with hown | hsame
  · refine ⟨0, h.pay hp (List.nil_subset _) .nil fun items' hitems' => ?_, .inl rfl⟩
    obtain rfl := List.append_cancel_right (hitems.symm.trans hitems')
    have hcount := Nat.mul_le_mul_left (records * uplinks) (List.count_pos_iff.2 hown)
    simpa using hcount
  have h' : Owes address (records * uplinks) w₀ (records * uplinks) w :=
    h.pay hp (List.nil_subset _) .nil fun _ _ => by omega
  cases h with
  | reported h => exact ⟨0, .reported (h.append hitems), .inl rfl⟩
  | waits earlier hearlier hwaits₁ _ =>
    cases hp with
    | reported hlater => exact ⟨0, .reported (hlater.since hearlier), .inl rfl⟩
    | waits _ _ _ hwaits =>
      refine ⟨_, h', .inr ⟨Nat.le_refl _, ?_⟩⟩
      obtain ⟨e, he, hholds, huse, -, hpending⟩ := hwaits
      obtain ⟨e₁, he₁, hholds₁, -, hfresh, -⟩ := hwaits₁
      obtain rfl := w₁.table.wf.eq_of_holds he₁ (hsame e he hholds) hholds₁ hholds
      refine ⟨e₁, ?_, hholds⟩
      rw [w.table.wf.scan_eq_filter, List.mem_filter, decide_eq_true_iff]
      exact ⟨he, huse, hfresh, hpending⟩

/-! ## A cycle, stage by stage -/

/-- What a cycle over such a link has done for the device, in each of its stages: before the
snapshot it owes a cycle's share; behind it the acknowledgement of what it sends pays that. -/
def Turning (address : Address) (records uplinks : Nat) (w₀ w : World ρ cfg) : Stage ρ → Prop
  | .begun | .connected | .usable => Owes address (records * uplinks) w₀ (records * uplinks) w
  | .roomy share =>
    records ≤ share.toNat ∧ Owes address (records * uplinks) w₀ (records * uplinks) w
  | .stamped share nowS => records ≤ share.toNat ∧
    ∃ w₁, Owes address (records * uplinks) w₀ (records * uplinks) w₁ ∧ nowS = w₁.uptime ∧
      Passed address w₁ [] w ∧ Unmoved address w₁ w
  | .empty | .asked _ | .due _ =>
    ∃ w₁, Pays address (records * uplinks) w₀ w₁ [] 0 ∧ Passed address w₁ [] w
  | .taken share snapshot | .numbered share snapshot | .clocked share snapshot _ =>
    records ≤ share.toNat ∧ ∃ w₁, Passed address w₁ [] w ∧
      ∀ n, min (records * uplinks) snapshot.length ≤ n →
        Pays address (records * uplinks) w₀ w₁ snapshot n
  | .sending round | .identified round _ | .counted round _ _ | .built round _ _ _ =>
    ∃ w₁, Passed address w₁ (round.snapshot.take round.start) w ∧
      Pays address (records * uplinks) w₀ w₁ round.snapshot
        (round.fragmentCount.toNat * round.share.toNat)
  | .marking round unmarked =>
    ∃ w₁ acked, Passed address w₁ acked w ∧
      acked ++ unmarked = round.snapshot.take round.next.start ∧
      (Reported address w₁ w ∨ ∀ copy ∈ unmarked, copy.address ≠ address) ∧
      Pays address (records * uplinks) w₀ w₁ round.snapshot
        (round.fragmentCount.toNat * round.share.toNat)
  | .noting round _ =>
    ∃ w₁, Passed address w₁ (round.snapshot.take round.next.start) w ∧
      Pays address (records * uplinks) w₀ w₁ round.snapshot
        (round.fragmentCount.toNat * round.share.toNat)
  | .booting | .finished => Owes address (records * uplinks) w₀ 0 w
  | .probing | .bare | .bareNumbered => False

omit [AsReading ρ] in
/-- Where no fragment follows, the share is acknowledged. -/
theorem turning_round (hindex : round.index ≤ round.fragmentCount)
    (hpassed : Passed address w₁ (round.snapshot.take round.start) w)
    (hpays : Pays address (records * uplinks) w₀ w₁ round.snapshot
      (round.fragmentCount.toNat * round.share.toNat)) :
    Turning address records uplinks w₀ w round.stage := by
  refine Round.stage_cases round (fun _ => ⟨w₁, hpassed, hpays⟩) fun hend => ?_
  have hlast : round.fragmentCount.toNat * round.share.toNat = round.start := by
    rw [UInt8.le_antisymm hend hindex]
    rfl
  have howes := hpays w (hlast ▸ hpassed)
  exact Round.ended_cases round (fun _ => howes) fun _ => howes

/-- The others keep it. -/
theorem turning_stable (stage : Stage ρ) : Stable (turnGuard ρ cfg address records uplinks)
    fun w => Turning address records uplinks w₀ w stage := by
  intro x w hg h
  cases stage with
  | begun | connected | usable | booting | finished => exact owes_stable _ _ x w hg h
  | roomy share => exact ⟨h.1, owes_stable _ _ x w hg h.2⟩
  | stamped share nowS =>
    obtain ⟨hrecords, w₁, howes, hnow, hunmoved⟩ := h
    exact ⟨hrecords, w₁, howes, hnow, unmoved_stable w₁ x w hg hunmoved⟩
  | empty | asked | due =>
    obtain ⟨w₁, hpays, hpassed⟩ := h
    exact ⟨w₁, hpays, passed_stable w₁ _ x w hg hpassed⟩
  | taken | numbered | clocked =>
    obtain ⟨hrecords, w₁, hpassed, hpays⟩ := h
    exact ⟨hrecords, w₁, passed_stable w₁ _ x w hg hpassed, hpays⟩
  | sending | identified | counted | built | noting =>
    obtain ⟨w₁, hpassed, hpays⟩ := h
    exact ⟨w₁, passed_stable w₁ _ x w hg hpassed, hpays⟩
  | marking round unmarked =>
    obtain ⟨w₁, acked, hpassed, hsplit, hown, hpays⟩ := h
    exact ⟨w₁, acked, passed_stable w₁ _ x w hg hpassed, hsplit,
      hown.imp_left (reported_stable w₁ x w hg), hpays⟩
  | probing | bare | bareNumbered => exact h

omit [AsReading ρ] in
/-- No call takes back what was delivered. -/
theorem Reported.perform (h : Reported address w₀ w) (o : CommsOp ρ) (view : LinkView) :
    Reported address w₀ (perform o view w).2 := by
  cases o with
  | send uplink => exact h.cons rfl
  | scan nowS => exact h.cons rfl
  | _ => exact h

omit [AsReading ρ] in
/-- A call of a cycle over such a link delivers a record of the device's or goes on. -/
theorem turning_call (hrecords : 0 < records) {o : CommsOp ρ} (view : LinkView)
    (hmakes : stage.Makes cfg o) (hgrants : Grants records uplinks o (perform o view w).1)
    (h : Turning address records uplinks w₀ w stage) :
    Reported address w₀ (perform o view w).2 ∨
      Turning address records uplinks w₀ (perform o view w).2
        (stage.next cfg o (perform o view w).1) := by
  cases hmakes with
  | link =>
    have hup : view.isConnected = true := hgrants
    refine .inr ?_
    show Turning _ _ _ _ _ (if view.isConnected then _ else _)
    rw [if_pos hup]
    exact h
  | rate =>
    have hceiling : 12 < view.maxPayloadSize.toNat := hgrants
    refine .inr ?_
    show Turning _ _ _ _ _ (if view.maxPayloadSize.toNat ≤ 12 then _ else _)
    rw [if_neg (Nat.not_le.2 hceiling)]
    exact h
  | probe | numberBare | clockBare => exact h.elim
  | packet =>
    have havailable : 12 + 26 * records ≤ view.availablePayloadSize.toNat := hgrants
    have hroom : ¬ recordsIn view.availablePayloadSize = 0 := fun hnone => by
      have hlt := recordsIn_eq_zero.1 hnone
      omega
    refine .inr ?_
    show Turning _ _ _ _ _ (if view.availablePayloadSize.toNat ≤ 12 then _
      else if recordsIn view.availablePayloadSize = 0 then _ else _)
    rw [if_neg (by omega), if_neg hroom]
    refine ⟨?_, h⟩
    show records ≤ (recordsIn view.availablePayloadSize).toNat
    rw [toNat_recordsIn]
    omega
  | stamp =>
    obtain ⟨hshare, howes⟩ := h
    cases howes with
    | reported hreported => exact .inl hreported
    | waits items hlog hwaits hsum =>
      exact .inr ⟨hshare, w, .waits items hlog hwaits hsum, rfl, .refl hwaits,
        fun _ _ => .inr fun _ he _ => he⟩
  | @scan share nowS =>
    obtain ⟨hshare, w₁, howes, rfl, hpassed, hunmoved⟩ := h
    obtain ⟨debt, howes, hturn⟩ := howes.snapshot hpassed hunmoved
    have howes := howes.scanned w₁.uptime view
    cases howes with
    | reported hreported => exact .inl hreported
    | waits items hlog hwaits hsum =>
      let snapshot := (perform (.scan w₁.uptime) view w).1
      let w₂ := (perform (.scan w₁.uptime) view w).2
      have hpays (n : Nat) (hn : min (records * uplinks) snapshot.length ≤ n) :
          Pays address (records * uplinks) w₀ w₂ snapshot n :=
        pays_snapshot rfl (.waits items hlog hwaits hsum) hturn hn
      refine .inr ?_
      show Turning _ _ _ _ w₂ (if snapshot.length ≠ 0 then _ else if _ then _ else _)
      split
      · exact ⟨hshare, w₂, .refl hwaits, hpays⟩
      next hempty =>
      have hnil : snapshot = [] := List.eq_nil_of_length_eq_zero (not_not.1 hempty)
      rw [hnil] at hpays
      have hpays := hpays 0 (Nat.min_le_right _ _)
      split
      · exact hpays w₂ (.refl hwaits)
      · exact ⟨w₂, hpays, .refl hwaits⟩
  | ask => exact .inr h
  | silence =>
    refine .inr ?_
    show Turning _ _ _ _ w (if _ then _ else _)
    split
    · obtain ⟨w₁, hpays, hpassed⟩ := h
      exact hpays w hpassed
    · exact h
  | numberDue =>
    obtain ⟨w₁, hpays, hpassed⟩ := h
    refine .inr ⟨w₁, ?_, hpays⟩
    show Passed address w₁ (List.take _ []) _
    rw [List.take_nil]
    exact hpassed.statics _
  | number =>
    obtain ⟨hshare, w₁, hpassed, hpays⟩ := h
    exact .inr ⟨hshare, w₁, hpassed.statics _, hpays⟩
  | @allowance share snapshot nowS hpos =>
    obtain ⟨hshare, w₁, hpassed, hpays⟩ := h
    have hpays := hpays _ (share_le_allowed hpos hshare hgrants)
    refine .inr (turning_round UInt8.zero_le ?_ hpays)
    rw [Round.start_first, List.take_zero]
    exact hpassed
  | @send round statics droppedReports evicted hdue =>
    have hresult : view.sendResult = .noError := hgrants
    obtain ⟨w₁, hpassed, hpays⟩ := h
    obtain ⟨hsent, hown⟩ :=
      hpassed.sent (.fragment (round.fragment cfg statics droppedReports evicted)) hresult
    refine .inr ?_
    show Turning _ _ _ _ _ (if view.sendResult = .noError then _ else _)
    rw [if_pos hresult]
    exact ⟨w₁, _, hsent, hdue.take_next_start.symm, hown, hpays⟩
  | @mark round copy unmarked =>
    obtain ⟨w₁, acked, hpassed, hsplit, hown, hpays⟩ := h
    rw [List.append_cons] at hsplit
    rcases hown with hreported | hothers
    · have hreported := hreported.perform (.markReported copy) view
      exact .inr ⟨w₁, _, .reported hreported, hsplit, .inl hreported, hpays⟩
    · have hmarked := hpassed.markReported view (hothers copy (.head _))
      exact .inr ⟨w₁, _, hmarked, hsplit, .inr fun c hc => hothers c (.tail _ hc), hpays⟩
  | read =>
    obtain ⟨w₁, acked, hpassed, hsplit, -, hpays⟩ := h
    rw [List.append_nil] at hsplit
    exact .inr ⟨w₁, hsplit ▸ hpassed, hpays⟩
  | @note round sentAt hdue =>
    obtain ⟨w₁, hpassed, hpays⟩ := h
    have hindex : round.next.index ≤ round.next.fragmentCount := by
      rw [UInt8.le_iff_toNat_le, hdue.next_index]
      exact UInt8.lt_iff_toNat_lt.1 hdue.index_lt
    exact .inr (turning_round hindex (hpassed.statics _) hpays)
  | boot => exact .inr (Owes.statics h _)
  | _ => exact .inr h

/-- In each stage a cycle over such a link has delivered a record of the device's or has done its
share. -/
theorem turning_follows (hrecords : 0 < records) :
    Follows (M := cycles ρ cfg) (cycleWatch ρ cfg) (turnGuard ρ cfg address records uplinks)
      fun stage w => Reported address w₀ w ∨ Turning address records uplinks w₀ w stage where
  stable := by
    rintro stage x w hg (hreported | h)
    · exact .inl (reported_stable w₀ x w hg hreported)
    · exact .inr (turning_stable stage x w hg h)
  call := by
    rintro stage o view w hmakes hg (hreported | h)
    · exact .inl (hreported.perform o view)
    · exact turning_call hrecords view hmakes hg h

omit [AsReading ρ] in
/-- A cycle that begins owes a share. -/
theorem Owes.began (h : Owes address share w₀ 0 w) :
    Owes address share w₀ share { w with log := .began :: w.log } := by
  cases h with
  | reported h => exact .reported (h.cons rfl)
  | waits items hlog hwaits hsum =>
    refine .waits (.began :: items) (congrArg (_ :: ·) hlog) hwaits ?_
    have hbegan : (LogItem.began :: items).countP LogItem.isBegan =
        items.countP LogItem.isBegan + 1 := List.countP_cons_of_pos rfl
    have hdelay : delay address share (.began :: items) = delay address share items := rfl
    rw [hbegan, hdelay, Nat.mul_succ]
    show (w.table.ahead address).length + _ ≤ _
    omega

/-- **A device's turn comes.** Over a link that has room for a share of records in each cycle, and
takes them: in every run from a state in which a device has a reading to report, whatever is
recorded meanwhile, a record of the device's has been delivered, or the cycles since, at a share of
records each, are covered by the pending entries that were in front of it, one for each reading of
another device recorded since, and a share for each of its own. -/
theorem turn_comes (hrecords : 0 < records) {w w' : World ρ cfg} (hwaits : w.Waits address)
    (h : Reach (turnGuard ρ cfg address records uplinks) ⟨w, none⟩ ⟨w', none⟩) :
    address ∈ deliveredAddresses (since w.log w'.log) ∨
      (w'.table.ahead address).length +
          records * uplinks * (since w.log w'.log).countP LogItem.isBegan ≤
        (w.table.ahead address).length +
          delay address (records * uplinks) (since w.log w'.log) := by
  have h₀ : Turning address records uplinks w w .finished :=
    .waits [] rfl hwaits (by simp [delay, updates])
  have htracks := (turning_follows hrecords).reach (fun s p s' _ hs hstart => ?_) (fun _ h => h)
    (.of_waiting rfl (.inr h₀)) h
  · have howes : Owes address (records * uplinks) w 0 w' :=
      (htracks.waiting rfl).elim .reported id
    cases howes with
    | reported h =>
      obtain ⟨items, hitems, hdelivered⟩ := h
      rw [hitems, since_append]
      exact .inl hdelivered
    | waits items hitems _ hsum =>
      rw [hitems, since_append]
      exact .inr hsum
  · cases hstart
    refine ⟨.begun, dispatch_stages ρ cfg, ?_⟩
    rcases hs with hreported | hs
    · exact .inl (hreported.cons rfl)
    · exact .inr (Owes.began hs)

end

section
variable {cfg : Config}

variable (cfg) in
/-- Two devices were heard, just now. -/
def heardBoth : World Reading cfg :=
  (Act.upsert (.ofByte 2) (-60) default).run ((Act.upsert (.ofByte 1) (-50) default).run .boot)

/-- A cycle begins, or a link that takes a record a cycle answers. -/
def grantedStep : (cycles Reading cfg).Label → (cycles Reading cfg).Conf → Bool
  | .start, _ => true
  | .call view, _ => view.isConnected && decide (12 < view.maxPayloadSize.toNat) &&
      decide (38 ≤ view.availablePayloadSize.toNat) &&
      decide (1 ≤ view.maxUplinksPerDispatch.toNat) && decide (view.sendResult = .noError)
  | .other _, _ => false

theorem grantedStep_allows (address : Address) (l : (cycles Reading cfg).Label)
    (c : (cycles Reading cfg).Conf) (h : grantedStep l c = true) :
    (turnGuard Reading cfg address 1 1).Allows l c := by
  obtain ⟨s, r⟩ := c
  match l, r with
  | .start, none | .start, some _ | .call _, none | .call _, some (.pure _) => trivial
  | .call view, some (.call o _) =>
    simp only [grantedStep, Bool.and_eq_true, decide_eq_true_iff] at h
    obtain ⟨⟨⟨⟨hconnected, hmax⟩, havailable⟩, huplinks⟩, hresult⟩ := h
    cases o with
    | isConnected => exact hconnected
    | getMaxPayloadSize => exact hmax
    | getAvailablePayloadSize => exact havailable
    | getMaxUplinksPerDispatch => exact huplinks
    | send uplink => exact hresult
    | _ => trivial

/-- A cycle over such a link that sends a record. -/
def openCycle : List (cycles Reading cfg).Label := .start :: List.replicate 16 (.call openLink)

end

/-- Where a cycle carries one record, the second device's turn comes in the second cycle. -/
theorem turn_comes_second :
    let w : World Reading (.ofDevices 2) := heardBoth (.ofDevices 2)
    ∃ w' : World Reading (.ofDevices 2),
      Reach (turnGuard Reading (.ofDevices 2) (.ofByte 2) 1 1) ⟨w, none⟩ ⟨w', none⟩ ∧
      (since w.log w'.log).countP LogItem.isBegan = 2 ∧
      .ofByte 2 ∈ deliveredAddresses (since w.log w'.log) := by
  intro w
  obtain ⟨⟨w', r⟩, hreach, htest⟩ := Reach.exists_of_runWithin (grantedStep_allows (.ofByte 2))
    (openCycle ++ openCycle) (c := ⟨heardBoth (.ofDevices 2), none⟩)
    (fun c => c.running.isNone &&
      decide ((since (heardBoth (.ofDevices 2)).log c.state.log).countP LogItem.isBegan = 2 ∧
        delay (.ofByte 2) 1 (since (heardBoth (.ofDevices 2)).log c.state.log) = 0)) (by decide)
  obtain ⟨hidle, htest⟩ := Bool.and_eq_true_iff.1 htest
  obtain ⟨hbegan, hdelay⟩ := of_decide_eq_true htest
  obtain rfl : r = none := Option.isNone_iff_eq_none.1 hidle
  have hahead : ((heardBoth (.ofDevices 2)).table.ahead (.ofByte 2)).length = 1 := by decide
  have hwaits : (heardBoth (.ofDevices 2)).Waits (.ofByte 2) :=
    ⟨_, .tail _ (.head _), by decide, by decide⟩
  refine ⟨w', hreach, hbegan, (turn_comes (by decide) hwaits hreach).resolve_right ?_⟩
  simp [hbegan, hdelay, hahead]

end Concentrator.Comms
