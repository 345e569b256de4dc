import Concentrator.DeviceTable.Steps
import Mathlib.Data.List.Nodup
import Mathlib.Data.List.Perm.Subperm
import Mathlib.Data.List.TakeWhile

/-!
# What is in front of a device

A snapshot copies the table's entries out in the order of their slots, so what decides when a device
is reported are the pending entries in slots before its own (`Table.ahead`). An update puts at most
its own device there (`mem_ahead_upsert`), an acknowledgement only takes away
(`mem_ahead_markReported`); `WF.length_ahead_le` counts what a number of both have made of them.
-/

namespace Concentrator

/-- Replacing an element by one that a test treats alike moves nothing over the test's boundary. -/
theorem takeWhile_set {α : Type} {p : α → Bool} {l : List α} {i : Nat} {a b : α}
    (hb : l[i]? = some b) (hp : p a = p b) :
    (l.set i a).takeWhile p = (l.takeWhile p).set i a := by
  induction l generalizing i with
  | nil => simp at hb
  | cons x l ih =>
    cases i with
    | zero =>
      simp only [List.getElem?_cons_zero, Option.some.injEq] at hb
      subst hb
      simp only [List.set_cons_zero, List.takeWhile_cons, hp]
      split <;> rfl
    | succ i =>
      simp only [List.getElem?_cons_succ] at hb
      simp only [List.set_cons_succ, List.takeWhile_cons]
      split
      · simp [ih hb]
      · rfl

/-- The first of the elements that pass a test, up to one at which another test fails first, are
among those before it. -/
theorem take_filter_subset {α : Type} {p q : α → Bool} {l : List α} {a : α} {n : Nat}
    (hq : q a = true) (hp : ∀ x ∈ l, p x = false → x = a) (hout : a ∉ (l.filter q).take n) :
    (l.filter q).take n ⊆ (l.takeWhile p).filter q := by
  induction l generalizing n with
  | nil => simp
  | cons x l ih =>
    have hp' : ∀ y ∈ l, p y = false → y = a := fun y hy => hp y (.tail _ hy)
    cases hpx : p x with
    | true =>
      simp only [List.takeWhile_cons, hpx, if_true]
      cases hqx : q x with
      | true =>
        simp only [List.filter_cons, hqx, if_true] at hout ⊢
        cases n with
        | zero => simp
        | succ n =>
          simp only [List.take_succ_cons, List.mem_cons, not_or] at hout ⊢
          exact List.cons_subset_cons x (ih hp' hout.2)
      | false =>
        simp only [List.filter_cons, hqx, Bool.false_eq_true, if_false] at hout ⊢
        exact ih hp' hout
    | false =>
      -- The element itself: none of those taken comes after it.
      obtain rfl : x = a := hp x (.head _) hpx
      simp only [List.filter_cons, hq, if_true] at hout ⊢
      cases n with
      | zero => simp
      | succ n => simp at hout

namespace Table

variable {ρ : Type} {cfg : Config} {t t' : Table ρ} {address other : Address}

/-- The address has a slot. -/
def Has (t : Table ρ) (address : Address) : Prop := ∃ e ∈ t.entries, e.Holds address

/-- The pending entries in slots before the address's. -/
def ahead (t : Table ρ) (address : Address) : List (Entry ρ) :=
  (t.entries.takeWhile fun e => ¬ e.Holds address).filter fun e => e.inUse = true ∧ e.Pending

theorem mem_ahead {e : Entry ρ} : e ∈ t.ahead address ↔
    e ∈ (t.entries.takeWhile fun e => ¬ e.Holds address) ∧ e.inUse = true ∧ e.Pending := by
  simp [ahead]

/-- None of them is the address's own. -/
theorem address_ne_of_mem_ahead {e : Entry ρ} (he : e ∈ t.ahead address) : e.address ≠ address := by
  obtain ⟨hbefore, huse, -⟩ := mem_ahead.1 he
  have hnot := List.mem_takeWhile_imp hbefore
  exact fun heq => of_decide_eq_true hnot ⟨huse, heq⟩

theorem WF.nodup_ahead (h : t.WF cfg) : ((t.ahead address).map (·.address)).Nodup := by
  refine h.nodup_inUseAddresses.sublist (List.Sublist.map _ ?_)
  refine ((List.takeWhile_sublist _).filter _).trans (List.monotone_filter_right _ fun e he => ?_)
  exact (of_decide_eq_true he).1

/-- An update that leaves a device its slot puts at most its own device in front of it. -/
theorem WF.mem_ahead_upsert [Inhabited ρ] (h : t.WF cfg) {rssi : Int8} {reading : ρ} {nowS : UInt32}
    (hhas : t.Has address) (hhas' : (t.upsert other rssi reading nowS).Has address) {e : Entry ρ}
    (he : e ∈ (t.upsert other rssi reading nowS).ahead address) :
    e.address = other ∨ e ∈ t.ahead address := by
  obtain ⟨i, old, b, hold, hb, hslot, hes⟩ := upsert_slot t h.ne_nil other rssi reading nowS
  have hnew : (record rssi reading nowS b).Holds other := hb
  -- The slot that is written was the device's before if it is the device's now.
  have hsame : (record rssi reading nowS b).Holds address ↔ old.Holds address := by
    constructor
    · intro hrec
      obtain rfl : other = address := hnew.2.symm.trans hrec.2
      rcases hslot with rfl | ⟨-, habs⟩
      · exact hb
      · obtain ⟨e', he', hh'⟩ := hhas
        exact absurd hh' (habs e' he')
    · intro hh
      obtain ⟨e', he', hh'⟩ := hhas'
      rw [hes] at he'
      rcases mem_set_cases he' with rfl | ⟨j, hji, hj⟩
      · exact hh'
      · exact absurd (h.distinct hj hold hh' hh) hji
  rw [mem_ahead, hes, takeWhile_set hold (by simp only [hsame])] at he
  rcases List.mem_or_eq_of_mem_set he.1 with hmem | rfl
  · exact .inr (mem_ahead.2 ⟨hmem, he.2⟩)
  · exact .inl hnew.2

/-- An acknowledgement takes away the copy it is of, and adds nothing. -/
theorem WF.mem_ahead_markReported (h : t.WF cfg) {updateSeq : UInt16} {e : Entry ρ}
    (he : e ∈ (t.markReported other updateSeq).ahead address) :
    e ∈ t.ahead address ∧ ¬ (e.Holds other ∧ e.updateSeq = updateSeq) := by
  obtain ⟨hbefore, huse, hpending⟩ := mem_ahead.1 he
  rw [h.markReported_entries, List.takeWhile_map] at hbefore
  obtain ⟨e₀, he₀, rfl⟩ := List.mem_map.1 hbefore
  by_cases hack : e₀.Holds other ∧ e₀.updateSeq = updateSeq
  · rw [if_pos hack] at hpending
    exact absurd hack.2 hpending
  · rw [if_neg hack] at huse hpending ⊢
    refine ⟨mem_ahead.2 ⟨?_, huse, hpending⟩, hack⟩
    convert he₀ using 2
    funext x
    simp only [Function.comp_apply]
    split <;> rfl

/-- The pending entries in front of a device, when all of them were there before and are not among
those that have gone since, or are of changed devices. -/
theorem WF.length_ahead_le (h : t'.WF cfg) {changed : List Address}
    {gone : List (Entry ρ)} (hgone : gone ⊆ t.ahead address) (hnodup : gone.Nodup)
    (hahead : ∀ e ∈ t'.ahead address,
      e.address ∈ changed ∨ (e ∈ t.ahead address ∧ e ∉ gone)) :
    (t'.ahead address).length + gone.length ≤
      (t.ahead address).length + changed.countP (· ≠ address) := by
  let isChanged (e : Entry ρ) : Bool := e.address ∈ changed
  have hchanged : ((t'.ahead address).filter isChanged).length ≤
      changed.countP (· ≠ address) := by
    have hsub : ((t'.ahead address).filter isChanged).map (·.address) ⊆
        changed.filter (· ≠ address) := by
      intro a ha
      obtain ⟨e, he, rfl⟩ := List.mem_map.1 ha
      obtain ⟨he, hmem⟩ := List.mem_filter.1 he
      exact List.mem_filter.2 ⟨of_decide_eq_true hmem, decide_eq_true (address_ne_of_mem_ahead he)⟩
    have hle := ((h.nodup_ahead.sublist (List.filter_sublist.map _)).subperm hsub).length_le
    rwa [List.length_map, ← List.countP_eq_length_filter (l := changed)] at hle
  have hkept : ((t'.ahead address).filter (! isChanged ·) ++ gone).length ≤
      (t.ahead address).length := by
    have hold : ∀ e ∈ (t'.ahead address).filter (! isChanged ·),
        e ∈ t.ahead address ∧ e ∉ gone := by
      intro e he
      obtain ⟨he, hnot⟩ := List.mem_filter.1 he
      refine (hahead e he).resolve_left fun hmem => ?_
      simp [isChanged, hmem] at hnot
    refine (List.Nodup.subperm (.append ?_ hnodup ?_) fun e he => ?_).length_le
    · exact (h.nodup_ahead.of_map _).sublist List.filter_sublist
    · exact fun e he hg => (hold e he).2 hg
    · exact (List.mem_append.1 he).elim (fun he => (hold e he).1) fun he => hgone he
  rw [List.length_append] at hkept
  have hsplit := List.length_eq_length_filter_add isChanged (l := t'.ahead address)
  omega

/-- The first entries of a snapshot, up to a device's own, are all in front of it. -/
theorem WF.take_scan_subset_ahead (h : t.WF cfg) {staleAfterS nowS : UInt32} {e : Entry ρ}
    {n : Nat} (he : e ∈ t.scan staleAfterS nowS cfg.maxDevices) (hholds : e.Holds address)
    (hout : e ∉ (t.scan staleAfterS nowS cfg.maxDevices).take n) :
    (t.scan staleAfterS nowS cfg.maxDevices).take n ⊆ t.ahead address := by
  rw [h.scan_eq_filter] at he hout ⊢
  obtain ⟨hmem, hrep⟩ := List.mem_filter.1 he
  have hfirst : ∀ x ∈ t.entries, decide (¬ x.Holds address) = false → x = e := fun x hx hnot =>
    h.eq_of_holds hx hmem (Decidable.not_not.1 (of_decide_eq_false hnot)) hholds
  refine List.Subset.trans
    (take_filter_subset (q := fun e => e.Reportable staleAfterS nowS) hrep hfirst hout)
    fun x hx => ?_
  obtain ⟨hbefore, hrep⟩ := List.mem_filter.1 hx
  obtain ⟨huse, -, hpending⟩ := of_decide_eq_true hrep
  exact mem_ahead.2 ⟨hbefore, huse, hpending⟩

end Table

end Concentrator
