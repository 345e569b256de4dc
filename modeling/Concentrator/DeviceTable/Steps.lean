import Concentrator.DeviceTable.Basic

/-!
# What the table's operations do

`upsert` writes one slot: that of the address (`upsert_cases`, case `hit`), the first free one, or
that of a least recently seen device. `markReported` changes one sequence counter or nothing. Every
table the firmware can hold is well formed (`Table.WF`): it has `MAX_DEVICES` slots and no address
twice. `DeviceTable` carries that, so the users of the table need not.
-/

namespace Concentrator

variable {ρ : Type}

/-- An element of a list with one element replaced is the new one or one of the others. -/
theorem mem_set_cases {α : Type} {l : List α} {i : Nat} {a b : α} (h : a ∈ l.set i b) :
    a = b ∨ ∃ j, j ≠ i ∧ l[j]? = some a := by
  obtain ⟨j, hj⟩ := List.mem_iff_getElem?.1 h
  rw [List.getElem?_set] at hj
  split at hj
  · split at hj
    · exact .inl (Option.some.inj hj).symm
    · cases hj
  · next hne => exact .inr ⟨j, fun h => hne h.symm, hj⟩

/-- Replacing the element at an index that has one puts the new one there. -/
theorem mem_set_self {α : Type} {l : List α} {i : Nat} {a b : α} (h : l[i]? = some a) :
    b ∈ l.set i b :=
  List.mem_set (List.getElem?_eq_some_iff.1 h).1 b

/-- Replacing an element keeps the others. -/
theorem mem_set_of_ne {α : Type} {l : List α} {i j : Nat} {a b : α} (h : l[j]? = some a)
    (hne : j ≠ i) : a ∈ l.set i b := by
  refine List.mem_iff_getElem?.2 ⟨j, ?_⟩
  rw [List.getElem?_set_ne (Ne.symm hne)]
  exact h

/-- Changing the element at an index that has one is replacing it. -/
theorem modify_eq_set_of_getElem? {α : Type} {l : List α} {i : Nat} {a : α} (h : l[i]? = some a)
    (f : α → α) : l.modify i f = l.set i (f a) := by
  refine List.ext_getElem? fun j => ?_
  rw [List.getElem?_modify, List.getElem?_set]
  split
  · next hij =>
    subst hij
    rw [h, if_pos (List.getElem?_eq_some_iff.1 h).1]
    rfl
  · exact id_map' _

/-- The one slot of an address: in use, and the address is its own. -/
def Entry.Holds (e : Entry ρ) (address : Address) : Prop := e.inUse = true ∧ e.address = address

instance (e : Entry ρ) (address : Address) : Decidable (e.Holds address) :=
  inferInstanceAs (Decidable (_ ∧ _))

/-- What `snapshot()` copies out: an entry in use that is fresh and pending. -/
def Entry.Reportable (staleAfterS nowS : UInt32) (e : Entry ρ) : Prop :=
  e.inUse = true ∧ e.Fresh staleAfterS nowS ∧ e.Pending

instance (s n : UInt32) (e : Entry ρ) : Decidable (e.Reportable s n) :=
  inferInstanceAs (Decidable (_ ∧ _))

namespace Table

/-! ## The searches -/

theorem findEntry_some {t : Table ρ} {address : Address} {i : Nat}
    (h : t.findEntry address = some i) : ∃ e, t.entries[i]? = some e ∧ e.Holds address := by
  obtain ⟨hi, he, -⟩ := List.findIdx?_eq_some_iff_getElem.1 h
  refine ⟨t.entries[i], List.getElem?_eq_getElem hi, ?_⟩
  simpa only [Entry.Holds, Bool.and_eq_true, beq_iff_eq] using he

theorem findEntry_none {t : Table ρ} {address : Address} :
    t.findEntry address = none ↔ ∀ e ∈ t.entries, ¬ e.Holds address := by
  simp only [findEntry, List.findIdx?_eq_none_iff, Entry.Holds, Bool.and_eq_false_iff,
    beq_eq_false_iff_ne, not_and, ne_eq]
  refine forall₂_congr fun e _ => ?_
  cases e.inUse <;> simp

/-- The entry the scan for the least recently seen one ends with was seen no later than any: the
induction is on what is left to scan, and the entry kept so far is a least one of those before. -/
theorem oldestFrom_spec {l : List (Entry ρ)} :
    ∀ (rest : List (Entry ρ)) {done : List (Entry ρ)} {oldest : Nat} {o : Entry ρ},
      l = done ++ rest → l[oldest]? = some o →
      (∀ e ∈ done, o.lastSeenUptimeS ≤ e.lastSeenUptimeS) →
      ∃ e, l[oldestFrom rest done.length oldest o.lastSeenUptimeS]? = some e ∧
        ∀ e' ∈ l, e.lastSeenUptimeS ≤ e'.lastSeenUptimeS
  | [], done, oldest, o, hl, ho, hmin => ⟨o, ho, by simpa only [hl, List.append_nil] using hmin⟩
  | entry :: rest, done, oldest, o, hl, ho, hmin => by
    have hl' : l = (done ++ [entry]) ++ rest := by rw [hl, List.append_assoc]; rfl
    have hlen : done.length + 1 = (done ++ [entry]).length := by simp
    unfold oldestFrom
    split
    · next hlt =>
      have hentry : l[done.length]? = some entry := by simp [hl]
      rw [hlen]
      refine oldestFrom_spec rest hl' hentry fun e he => ?_
      rcases List.mem_append.1 he with he | he
      · exact UInt32.le_trans (UInt32.le_of_lt hlt) (hmin e he)
      · cases List.mem_singleton.1 he
        exact UInt32.le_refl _
    · next hge =>
      rw [hlen]
      refine oldestFrom_spec rest hl' ho fun e he => ?_
      rcases List.mem_append.1 he with he | he
      · exact hmin e he
      · cases List.mem_singleton.1 he
        exact UInt32.not_lt.1 hge

/-- Everything `claim_slot()` can do: a free slot, or that of a least recently seen device when none
is free. -/
theorem claimSlot_cases (t : Table ρ) (h : t.entries ≠ []) :
    (∃ i e, t.claimSlot = (i, t) ∧ t.entries[i]? = some e ∧ e.inUse = false) ∨
    (∃ i e, t.claimSlot = (i, { t with evictedCount := saturatingSucc t.evictedCount }) ∧
      t.entries[i]? = some e ∧ (∀ e' ∈ t.entries, e'.inUse = true) ∧
      ∀ e' ∈ t.entries, e.lastSeenUptimeS ≤ e'.lastSeenUptimeS) := by
  unfold claimSlot
  split
  · next i hi =>
    obtain ⟨hlt, hfree, -⟩ := List.findIdx?_eq_some_iff_getElem.1 hi
    exact .inl ⟨i, t.entries[i], rfl, List.getElem?_eq_getElem hlt, by simpa using hfree⟩
  · next hnone =>
    have hfull : ∀ e' ∈ t.entries, e'.inUse = true := by
      intro e' he'
      simpa using List.findIdx?_eq_none_iff.1 hnone e' he'
    cases hes : t.entries with
    | nil => exact absurd hes h
    | cons first rest =>
      have hscan : first :: rest = [] ++ (first :: rest) := rfl
      have hfirst : (first :: rest)[0]? = some first := rfl
      obtain ⟨e, he, hmin⟩ := oldestFrom_spec (first :: rest) hscan hfirst fun _ h => nomatch h
      exact .inr ⟨_, e, rfl, he, hes ▸ hfull, hmin⟩

theorem saturatingSucc_toNat (n : UInt16) :
    (saturatingSucc n).toNat = min 65535 (n.toNat + 1) := by
  have hmax : (0xFFFF : UInt16).toNat = 65535 := rfl
  have hlt := n.toNat_lt
  unfold saturatingSucc
  split
  · next h =>
    have h' := UInt16.lt_iff_toNat_lt.1 h
    have hsucc : (n + 1).toNat = n.toNat + 1 := by
      rw [UInt16.toNat_add, UInt16.toNat_one]
      exact Nat.mod_eq_of_lt (by omega)
    omega
  · next h =>
    have h' := UInt16.le_iff_toNat_le.1 (UInt16.not_lt.1 h)
    omega

/-! ## The writers -/

/-- Everything `upsert()` can do: it updates the entry of the address (`hit`), or wipes and fills a
free slot, or wipes and fills the slot of a least recently seen device, which it counts. -/
theorem upsert_cases [Inhabited ρ] (t : Table ρ) (h : t.entries ≠ []) (address : Address)
    (rssi : Int8) (reading : ρ) (nowS : UInt32) :
    (∃ i e, t.entries[i]? = some e ∧ e.Holds address ∧
      t.upsert address rssi reading nowS =
        { t with entries := t.entries.set i (record rssi reading nowS e) }) ∨
    ((∀ e ∈ t.entries, ¬ e.Holds address) ∧ ∃ i e, t.entries[i]? = some e ∧ e.inUse = false ∧
      t.upsert address rssi reading nowS =
        { t with entries := t.entries.set i (record rssi reading nowS (newEntry address)) }) ∨
    ((∀ e ∈ t.entries, ¬ e.Holds address) ∧ (∀ e ∈ t.entries, e.inUse = true) ∧
      ∃ i e, t.entries[i]? = some e ∧
        (∀ e' ∈ t.entries, e.lastSeenUptimeS ≤ e'.lastSeenUptimeS) ∧
        t.upsert address rssi reading nowS =
          { entries := t.entries.set i (record rssi reading nowS (newEntry address)),
            evictedCount := saturatingSucc t.evictedCount }) := by
  unfold upsert
  split
  · next i hi =>
    obtain ⟨e, he, hholds⟩ := findEntry_some hi
    exact .inl ⟨i, e, he, hholds, by rw [modify_eq_set_of_getElem? he]⟩
  · next hnone =>
    have habsent := findEntry_none.1 hnone
    rcases claimSlot_cases t h with ⟨i, e, hc, he, hfree⟩ | ⟨i, e, hc, he, hfull, hmin⟩
    · exact .inr (.inl ⟨habsent, i, e, he, hfree, by rw [hc]⟩)
    · exact .inr (.inr ⟨habsent, hfull, i, e, he, hmin, by rw [hc]⟩)

/-- What `upsert()` always does: it writes one slot, that of the address when it has one, and the
slot written starts from the entry of the address or from a wiped one. -/
theorem upsert_slot [Inhabited ρ] (t : Table ρ) (h : t.entries ≠ []) (address : Address)
    (rssi : Int8) (reading : ρ) (nowS : UInt32) :
    ∃ i e b, t.entries[i]? = some e ∧ b.Holds address ∧
      ((b = e) ∨ (b = newEntry address ∧ ∀ e' ∈ t.entries, ¬ e'.Holds address)) ∧
      (t.upsert address rssi reading nowS).entries =
        t.entries.set i (record rssi reading nowS b) := by
  rcases upsert_cases t h address rssi reading nowS with
    ⟨i, e, he, hh, hu⟩ | ⟨habs, i, e, he, -, hu⟩ | ⟨habs, -, i, e, he, -, hu⟩
  · exact ⟨i, e, e, he, hh, .inl rfl, by rw [hu]⟩
  · exact ⟨i, e, _, he, ⟨rfl, rfl⟩, .inr ⟨rfl, habs⟩, by rw [hu]⟩
  · exact ⟨i, e, _, he, ⟨rfl, rfl⟩, .inr ⟨rfl, habs⟩, by rw [hu]⟩

/-- After an upsert, the address has an entry. -/
theorem upsert_holds [Inhabited ρ] (t : Table ρ) (h : t.entries ≠ []) (address : Address)
    (rssi : Int8) (reading : ρ) (nowS : UInt32) :
    ∃ e ∈ (t.upsert address rssi reading nowS).entries, e.Holds address := by
  obtain ⟨i, e, b, he, hb, -, hes⟩ := upsert_slot t h address rssi reading nowS
  refine ⟨record rssi reading nowS b, ?_, hb⟩
  rw [hes]
  exact mem_set_self he

/-- An address that an upsert of another one removed had the slot of a least recently seen device,
and no slot was free. -/
theorem upsert_evicts [Inhabited ρ] (t : Table ρ) (h : t.entries ≠ []) {address gone : Address}
    {rssi : Int8} {reading : ρ} {nowS : UInt32} (hne : address ≠ gone) {v : Entry ρ}
    (hv : v ∈ t.entries) (hholds : v.Holds gone)
    (habs : ∀ e ∈ (t.upsert address rssi reading nowS).entries, ¬ e.Holds gone) :
    ∀ e ∈ t.entries, e.inUse = true ∧ v.lastSeenUptimeS ≤ e.lastSeenUptimeS := by
  obtain ⟨k, hk⟩ := List.mem_iff_getElem?.1 hv
  -- The slot written is the one that held the removed address.
  have hslot {i : Nat} {e b : Entry ρ} (he : t.entries[i]? = some e)
      (hes : (t.upsert address rssi reading nowS).entries = t.entries.set i b) : e = v := by
    have hki : k = i := by
      by_contra hki
      exact habs v (hes ▸ mem_set_of_ne hk hki) hholds
    subst hki
    exact Option.some.inj (he.symm.trans hk)
  rcases t.upsert_cases h address rssi reading nowS with
    ⟨i, e, he, hh, hup⟩ | ⟨-, i, e, he, hfree, hup⟩ | ⟨-, hfull, i, e, he, hmin, hup⟩
  · cases hslot he (by rw [hup])
    exact absurd (hh.2.symm.trans hholds.2) hne
  · cases hslot he (by rw [hup])
    exact absurd (hfree.symm.trans hholds.1) Bool.false_ne_true
  · cases hslot he (by rw [hup])
    exact fun e' he' => ⟨hfull e' he', hmin e' he'⟩

/-- An upsert of the address takes the slot of another device: it has none, and none is free. -/
def Evicts (t : Table ρ) (address : Address) : Prop :=
  (∀ e ∈ t.entries, ¬ e.Holds address) ∧ ∀ e ∈ t.entries, e.inUse = true

instance (t : Table ρ) (address : Address) : Decidable (t.Evicts address) :=
  inferInstanceAs (Decidable (_ ∧ _))

/-- An upsert counts the device it evicts, if it does. -/
theorem upsert_evictedCount [Inhabited ρ] (t : Table ρ) (h : t.entries ≠ []) (address : Address)
    (rssi : Int8) (reading : ρ) (nowS : UInt32) :
    (t.upsert address rssi reading nowS).evictedCount =
      if t.Evicts address then saturatingSucc t.evictedCount else t.evictedCount := by
  rcases upsert_cases t h address rssi reading nowS with
    ⟨i, e, he, hh, hu⟩ | ⟨-, i, e, he, hfree, hu⟩ | ⟨habs, hfull, i, e, -, -, hu⟩
  · rw [hu, if_neg fun hev => hev.1 e (List.mem_of_getElem? he) hh]
  · rw [hu, if_neg fun hev => by simp [hev.2 e (List.mem_of_getElem? he)] at hfree]
  · rw [hu, if_pos ⟨habs, hfull⟩]

/-- Everything `mark_reported()` can do: it sets the reported sequence of the entry of the address,
which is still at the given sequence, or it does nothing, because no entry of the address is. -/
theorem markReported_cases (t : Table ρ) (address : Address) (updateSeq : UInt16) :
    (∃ i e, t.findEntry address = some i ∧ t.entries[i]? = some e ∧ e.Holds address ∧
      e.updateSeq = updateSeq ∧
      t.markReported address updateSeq =
        { t with entries := t.entries.set i { e with reportedSeq := updateSeq } }) ∨
    (t.markReported address updateSeq = t ∧
      ∀ i e, t.findEntry address = some i → t.entries[i]? = some e → e.updateSeq ≠ updateSeq) := by
  unfold markReported
  split
  · next i hi =>
    obtain ⟨e, he, hh⟩ := findEntry_some hi
    rw [modify_eq_set_of_getElem? he]
    split
    · next heq => exact .inl ⟨i, e, hi, he, hh, heq, rfl⟩
    · next hne =>
      obtain ⟨hlt, hget⟩ := List.getElem?_eq_some_iff.1 he
      refine .inr ⟨?_, fun j e' hj he' => ?_⟩
      · rw [← hget, List.set_getElem_self]
      · cases Option.some.inj (hi.symm.trans hj)
        cases he.symm.trans he'
        exact hne
  · next hnone => exact .inr ⟨rfl, fun i e hi => nomatch hnone.symm.trans hi⟩

/-- `mark_reported()` touches no field but `reported_seq`. -/
theorem markReported_evictedCount (t : Table ρ) (address : Address) (updateSeq : UInt16) :
    (t.markReported address updateSeq).evictedCount = t.evictedCount := by
  rcases markReported_cases t address updateSeq with ⟨i, e, -, -, -, -, h⟩ | ⟨h, -⟩ <;> rw [h]

/-! ## The snapshot -/

/-- The scan keeps the table's order and copies out the reportable entries, at most `maxEntries`:
the induction is on what is left to scan. -/
theorem scanFrom_eq (staleAfterS nowS : UInt32) {maxEntries : Nat} :
    ∀ (es : List (Entry ρ)) {written : Nat}, written ≤ maxEntries →
      scanFrom staleAfterS nowS maxEntries es written =
        (es.filter fun e => e.Reportable staleAfterS nowS).take (maxEntries - written)
  | [], _, _ => by rw [List.filter_nil, List.take_nil]; rfl
  | e :: es, written, hw => by
    have ih {w : Nat} (h : w ≤ maxEntries) := scanFrom_eq staleAfterS nowS es h
    unfold scanFrom
    rw [List.filter_cons]
    split
    · next hge =>
      have hzero : maxEntries - written = 0 := by omega
      rw [hzero, List.take_zero]
    · next hlt =>
      have hsucc : maxEntries - written = maxEntries - (written + 1) + 1 := by omega
      split
      · next hfree =>
        rw [if_neg (by simp_all [Entry.Reportable]), ih hw]
      · next huse =>
        split
        · next hstale =>
          rw [if_neg (by simp_all [Entry.Reportable, Entry.Fresh]), ih hw]
        · next hfresh =>
          split
          · next heq =>
            rw [if_neg (by simp_all [Entry.Reportable, Entry.Pending]), ih hw]
          · next hne =>
            rw [if_pos (by simp_all [Entry.Reportable, Entry.Fresh, Entry.Pending]), hsucc,
              List.take_succ_cons, ih (by omega)]

theorem scan_eq (t : Table ρ) (staleAfterS nowS : UInt32) (maxEntries : Nat) :
    t.scan staleAfterS nowS maxEntries =
      (t.entries.filter fun e => e.Reportable staleAfterS nowS).take maxEntries :=
  scanFrom_eq staleAfterS nowS t.entries (Nat.zero_le _)

/-- Every entry of a snapshot is a reportable entry of the table. -/
theorem mem_scan {t : Table ρ} {staleAfterS nowS : UInt32} {maxEntries : Nat} {e : Entry ρ}
    (h : e ∈ t.scan staleAfterS nowS maxEntries) :
    e ∈ t.entries ∧ e.Reportable staleAfterS nowS := by
  rw [scan_eq] at h
  obtain ⟨hmem, hrep⟩ := List.mem_filter.1 (List.mem_of_mem_take h)
  exact ⟨hmem, of_decide_eq_true hrep⟩

/-! ## Well-formed tables -/

/-- The addresses of the entries in use, in the order of their slots. -/
def inUseAddresses (t : Table ρ) : List Address := (t.entries.filter (·.inUse)).map (·.address)

theorem mem_inUseAddresses {t : Table ρ} {address : Address} :
    address ∈ t.inUseAddresses ↔ ∃ e ∈ t.entries, e.Holds address := by
  simp only [inUseAddresses, List.mem_map, List.mem_filter, Entry.Holds, and_assoc]

/-- A table of the firmware: `MAX_DEVICES` slots, and no address in two of them. -/
structure WF (cfg : Config) (t : Table ρ) : Prop where
  size : t.entries.length = cfg.maxDevices
  distinct : ∀ {i j : Nat} {e e' : Entry ρ} {address : Address}, t.entries[i]? = some e →
    t.entries[j]? = some e' → e.Holds address → e'.Holds address → i = j

section
variable {cfg : Config} {t : Table ρ}

/-- A table has at least one slot. -/
theorem WF.ne_nil (h : t.WF cfg) : t.entries ≠ [] := by
  intro hnil
  have hpos := cfg.maxDevices_pos
  have hsize := h.size
  rw [hnil] at hsize
  simp only [List.length_nil] at hsize
  omega

/-- The address of an entry in use is found, at that entry. -/
theorem WF.findEntry_eq (h : t.WF cfg) {i : Nat} {e : Entry ρ} {address : Address}
    (he : t.entries[i]? = some e) (hh : e.Holds address) : t.findEntry address = some i := by
  cases hf : t.findEntry address with
  | none => exact absurd hh (findEntry_none.1 hf e (List.mem_of_getElem? he))
  | some j =>
    obtain ⟨e', he', hh'⟩ := findEntry_some hf
    rw [h.distinct he he' hh hh']

/-- Two entries of one address are the same entry. -/
theorem WF.eq_of_holds (h : t.WF cfg) {e e' : Entry ρ} {address : Address} (he : e ∈ t.entries)
    (he' : e' ∈ t.entries) (hh : e.Holds address) (hh' : e'.Holds address) : e = e' := by
  obtain ⟨i, hi⟩ := List.mem_iff_getElem?.1 he
  obtain ⟨j, hj⟩ := List.mem_iff_getElem?.1 he'
  cases h.distinct hi hj hh hh'
  exact Option.some.inj (hi.symm.trans hj)

/-- The addresses of the entries in use are distinct. -/
theorem WF.nodup_inUseAddresses (h : t.WF cfg) : t.inUseAddresses.Nodup := by
  refine List.pairwise_map.2 (List.pairwise_filter.2 (List.pairwise_iff_getElem.2 ?_))
  intro i j hi hj hij hei hej heq
  have hlt := h.distinct (List.getElem?_eq_getElem hi) (List.getElem?_eq_getElem hj)
    ⟨hei, rfl⟩ ⟨hej, heq.symm⟩
  omega

/-- The counter of `get_device_count()` after some entries, for a table it cannot overflow on. -/
theorem foldl_count_toNat {es : List (Entry ρ)} {n : UInt16} (h : n.toNat + es.length < 2 ^ 16) :
    (es.foldl (fun count entry => if entry.inUse then count + 1 else count) n).toNat =
      n.toNat + (es.filter (·.inUse)).length := by
  induction es generalizing n with
  | nil => rfl
  | cons e es ih =>
    simp only [List.length_cons] at h
    rw [List.foldl_cons, List.filter_cons]
    split
    · have hsucc : (n + 1).toNat = n.toNat + 1 := by
        rw [UInt16.toNat_add, UInt16.toNat_one]
        exact Nat.mod_eq_of_lt (by omega)
      rw [ih (by omega), hsucc, List.length_cons]
      omega
    · exact ih (by omega)

/-- `get_device_count()` is the number of entries in use. -/
theorem WF.getDeviceCount_toNat (h : t.WF cfg) :
    t.getDeviceCount.toNat = t.inUseAddresses.length := by
  have hle := cfg.maxDevices_le
  have hsize := h.size
  have hzero : (0 : UInt16).toNat = 0 := rfl
  unfold getDeviceCount inUseAddresses
  rw [foldl_count_toNat (by omega), List.length_map]
  omega

/-- A snapshot with room for the whole table leaves no reportable entry out. -/
theorem WF.scan_eq_filter (h : t.WF cfg) (staleAfterS nowS : UInt32) :
    t.scan staleAfterS nowS cfg.maxDevices =
      t.entries.filter fun e => e.Reportable staleAfterS nowS := by
  rw [scan_eq]
  refine List.take_of_length_le ?_
  rw [← h.size]
  exact List.length_filter_le _ _

/-- Writing a slot keeps a table well formed when no other slot holds the address written. -/
theorem WF.set (h : t.WF cfg) {i : Nat} {b : Entry ρ} {n : UInt16}
    (hb : ∀ j e address, j ≠ i → t.entries[j]? = some e → e.Holds address →
      ¬ b.Holds address) : WF cfg (⟨t.entries.set i b, n⟩ : Table ρ) where
  size := by rw [List.length_set]; exact h.size
  distinct {j k e e' address} hj hk he he' := by
    rw [List.getElem?_set] at hj hk
    by_cases hij : i = j
    · by_cases hik : i = k
      · exact hij ▸ hik
      · rw [if_neg hik] at hk
        rw [if_pos hij] at hj
        split at hj
        · cases hj
          exact absurd he (hb k e' address (Ne.symm hik) hk he')
        · cases hj
    · rw [if_neg hij] at hj
      by_cases hik : i = k
      · rw [if_pos hik] at hk
        split at hk
        · cases hk
          exact absurd he' (hb j e address (Ne.symm hij) hj he)
        · cases hk
      · rw [if_neg hik] at hk
        exact h.distinct hj hk he he'

theorem WF.upsert [Inhabited ρ] (h : t.WF cfg) (address : Address) (rssi : Int8) (reading : ρ)
    (nowS : UInt32) : (t.upsert address rssi reading nowS).WF cfg := by
  obtain ⟨i, e, b, he, hb, hslot, hu⟩ := upsert_slot t h.ne_nil address rssi reading nowS
  have hwf : WF cfg (⟨t.entries.set i (record rssi reading nowS b),
      (t.upsert address rssi reading nowS).evictedCount⟩ : Table ρ) := by
    refine h.set fun j e' address' hji hj he' hrec => ?_
    have haddr : address' = address := hrec.2.symm.trans hb.2
    subst haddr
    rcases hslot with rfl | ⟨-, habs⟩
    · exact hji (h.distinct hj he he' hb)
    · exact habs e' (List.mem_of_getElem? hj) he'
  rwa [← hu] at hwf

/-- An entry after an upsert is the one it wrote, or one of before that is not of the address. -/
theorem WF.mem_upsert [Inhabited ρ] (h : t.WF cfg) {address : Address} {rssi : Int8} {reading : ρ}
    {nowS : UInt32} {e : Entry ρ} (he : e ∈ (t.upsert address rssi reading nowS).entries) :
    (∃ b, b.Holds address ∧ (b ∈ t.entries ∨ b = newEntry address) ∧
      e = record rssi reading nowS b) ∨
    (e ∈ t.entries ∧ ¬ e.Holds address) := by
  obtain ⟨i, e₀, b, he₀, hb, hslot, hes⟩ := upsert_slot t h.ne_nil address rssi reading nowS
  rw [hes] at he
  rcases mem_set_cases he with rfl | ⟨j, hji, hj⟩
  · refine .inl ⟨b, hb, ?_, rfl⟩
    rcases hslot with rfl | ⟨rfl, -⟩
    · exact .inl (List.mem_of_getElem? he₀)
    · exact .inr rfl
  · refine .inr ⟨List.mem_of_getElem? hj, fun hh => ?_⟩
    rcases hslot with rfl | ⟨-, habs⟩
    · exact hji (h.distinct hj he₀ hh hb)
    · exact habs e (List.mem_of_getElem? hj) hh

theorem WF.markReported (h : t.WF cfg) (address : Address) (updateSeq : UInt16) :
    (t.markReported address updateSeq).WF cfg := by
  rcases markReported_cases t address updateSeq with ⟨i, e, -, he, hh, -, hm⟩ | ⟨hm, -⟩
  · rw [hm]
    exact h.set fun j e' address' hji hj he' hb => hji (h.distinct hj he he' hb)
  · rwa [hm]

/-- `mark_reported()`, entry by entry: it acknowledges the entry of the address that is still at the
given sequence. -/
theorem WF.markReported_entries (h : t.WF cfg) (address : Address) (updateSeq : UInt16) :
    (t.markReported address updateSeq).entries = t.entries.map fun e =>
      if e.Holds address ∧ e.updateSeq = updateSeq then { e with reportedSeq := updateSeq }
      else e := by
  refine List.ext_getElem? fun j => ?_
  rw [List.getElem?_map]
  rcases markReported_cases t address updateSeq with ⟨i, e, -, he, hh, hseq, hm⟩ | ⟨hm, hnone⟩
  · rw [hm]
    by_cases hij : i = j
    · subst hij
      rw [List.getElem?_set_self (List.getElem?_eq_some_iff.1 he).1, he, Option.map_some,
        if_pos ⟨hh, hseq⟩]
    · rw [List.getElem?_set_ne hij]
      cases hj : t.entries[j]? with
      | none => rfl
      | some e' =>
        rw [Option.map_some, if_neg fun hh' => hij (h.distinct he hj hh hh'.1)]
  · rw [hm]
    cases hj : t.entries[j]? with
    | none => rfl
    | some e' =>
      rw [Option.map_some, if_neg fun hh' => hnone j e' (h.findEntry_eq hj hh'.1) hj hh'.2]

/-- An entry after `mark_reported()` is the one it acknowledged, or one of before that did not
match. -/
theorem WF.mem_markReported (h : t.WF cfg) {address : Address} {updateSeq : UInt16} {e : Entry ρ}
    (he : e ∈ (t.markReported address updateSeq).entries) :
    (∃ e₀ ∈ t.entries, e₀.Holds address ∧ e₀.updateSeq = updateSeq ∧
      e = { e₀ with reportedSeq := updateSeq }) ∨
    (e ∈ t.entries ∧ ¬ (e.Holds address ∧ e.updateSeq = updateSeq)) := by
  rw [h.markReported_entries] at he
  obtain ⟨e₀, he₀, rfl⟩ := List.mem_map.1 he
  by_cases hmatch : e₀.Holds address ∧ e₀.updateSeq = updateSeq
  · rw [if_pos hmatch]
    exact .inl ⟨e₀, he₀, hmatch.1, hmatch.2, rfl⟩
  · rw [if_neg hmatch]
    exact .inr ⟨he₀, hmatch⟩

theorem wf_initializeTable [Inhabited ρ] (cfg : Config) :
    (initializeTable cfg : Table ρ).WF cfg where
  size := List.length_replicate
  distinct {i j e e' address} hi _ he _ := by
    have hmem := List.eq_of_mem_replicate (List.mem_of_getElem? hi)
    rw [hmem] at he
    exact absurd he.1 Bool.false_ne_true

end

/-! ## Acknowledging several copies -/

/-- An entry whose reading is acknowledged when its address is one of those given. -/
def ack (addresses : List Address) (e : Entry ρ) : Entry ρ :=
  if e.inUse = true ∧ e.address ∈ addresses then { e with reportedSeq := e.updateSeq } else e

/-- The table with the entries of the addresses acknowledged. -/
def acked (t : Table ρ) (addresses : List Address) : Table ρ :=
  { t with entries := t.entries.map (ack addresses) }

theorem ack_holds {addresses : List Address} {e : Entry ρ} {address : Address} :
    (ack addresses e).Holds address ↔ e.Holds address := by
  unfold ack
  split <;> rfl

theorem ack_updateSeq (addresses : List Address) (e : Entry ρ) :
    (ack addresses e).updateSeq = e.updateSeq := by
  unfold ack
  split <;> rfl

@[simp] theorem acked_nil (t : Table ρ) : t.acked [] = t := by
  have hack : ∀ e ∈ t.entries, ack [] e = e := fun _ _ => if_neg fun h => List.not_mem_nil h.2
  rw [acked, List.map_congr_left hack, List.map_id']

/-- Acknowledging one more copy of an entry of the table acknowledges its address. -/
theorem WF.acked_markReported {cfg : Config} {t : Table ρ} (h : t.WF cfg) {addresses : List Address}
    (hwf : (t.acked addresses).WF cfg) {copy : Entry ρ} (hcopy : copy ∈ t.entries)
    (huse : copy.inUse = true) :
    (t.acked addresses).markReported copy.address copy.updateSeq =
      t.acked (addresses ++ [copy.address]) := by
  have hentries := hwf.markReported_entries copy.address copy.updateSeq
  have hcount := markReported_evictedCount (t.acked addresses) copy.address copy.updateSeq
  have hmap : ((t.acked addresses).markReported copy.address copy.updateSeq).entries =
      (t.acked (addresses ++ [copy.address])).entries := by
    rw [hentries, acked, acked, List.map_map]
    refine List.map_congr_left fun e he => ?_
    simp only [Function.comp, ack_holds, ack_updateSeq]
    by_cases hh : e.Holds copy.address
    · cases h.eq_of_holds he hcopy hh ⟨huse, rfl⟩
      have hmem : copy.address ∈ addresses ++ [copy.address] := List.mem_append_right _ (.head _)
      have hnew : ack (addresses ++ [copy.address]) copy =
          { copy with reportedSeq := copy.updateSeq } := if_pos ⟨huse, hmem⟩
      rw [if_pos ⟨hh, rfl⟩, hnew]
      unfold ack
      split <;> rfl
    · have hsame : (e.inUse = true ∧ e.address ∈ addresses ++ [copy.address]) ↔
          e.inUse = true ∧ e.address ∈ addresses := by
        refine and_congr_right fun hu => ⟨fun hm => ?_, List.mem_append_left _⟩
        rcases List.mem_append.1 hm with hm | hm
        · exact hm
        · exact absurd ⟨hu, List.mem_singleton.1 hm⟩ hh
      rw [if_neg fun hh' => hh hh'.1]
      simp only [ack, hsame]
  cases hm : (t.acked addresses).markReported copy.address copy.updateSeq
  rw [hm] at hmap hcount
  cases hmap
  cases hcount
  rfl

/-- The entries in use whose reading has not been reported. -/
def pending (t : Table ρ) : List (Entry ρ) :=
  t.entries.filter fun e => e.inUse = true ∧ e.Pending

/-- What is pending once some addresses are acknowledged: what was, but for these. -/
theorem pending_acked (t : Table ρ) (addresses : List Address) :
    (t.acked addresses).pending = t.pending.filter fun e => e.address ∉ addresses := by
  unfold acked pending
  induction t.entries with
  | nil => rfl
  | cons e es ih =>
    rw [List.map_cons, List.filter_cons, ih, List.filter_cons]
    by_cases hmem : e.inUse = true ∧ e.address ∈ addresses
    · have hack : ack addresses e = { e with reportedSeq := e.updateSeq } := if_pos hmem
      rw [hack, if_neg (by simp [Entry.Pending])]
      split
      · rw [List.filter_cons, if_neg (by simp [hmem.2])]
      · rfl
    · have hack : ack addresses e = e := if_neg hmem
      rw [hack]
      split
      · next hp =>
        have hnot : e.address ∉ addresses := fun h => hmem ⟨(of_decide_eq_true hp).1, h⟩
        rw [List.filter_cons, if_pos (decide_eq_true hnot)]
      · rfl

end Table

/-- A well-formed table: what the firmware's table is at every point where no one holds its lock. -/
structure DeviceTable (ρ : Type) (cfg : Config) extends Table ρ where
  wf : toTable.WF cfg

namespace DeviceTable

variable {cfg : Config}

@[ext] theorem ext {t t' : DeviceTable ρ cfg} (h : t.toTable = t'.toTable) : t = t' := by
  cases t; cases t'; cases h; rfl

/-- `initialize()`. Reference: `svc/device_table/subsystem.cpp:103 initialize`. -/
def initial [Inhabited ρ] : DeviceTable ρ cfg :=
  ⟨Table.initializeTable cfg, Table.wf_initializeTable cfg⟩

/-- `upsert()` on a well-formed table. -/
def upsert [Inhabited ρ] (t : DeviceTable ρ cfg) (address : Address) (rssi : Int8) (reading : ρ)
    (nowS : UInt32) : DeviceTable ρ cfg :=
  ⟨t.toTable.upsert address rssi reading nowS, t.wf.upsert address rssi reading nowS⟩

/-- `mark_reported()` on a well-formed table. -/
def markReported (t : DeviceTable ρ cfg) (address : Address) (updateSeq : UInt16) :
    DeviceTable ρ cfg :=
  ⟨t.toTable.markReported address updateSeq, t.wf.markReported address updateSeq⟩

end DeviceTable

end Concentrator
