import Concentrator.Eda.Calls

/-!
# The delivery of events

What holds of every run, however the accesses of the contexts interleave: the order of the events,
and, where no two increments of the dropped-event count overlap, that the count misses none
(`delivery_exact`). Overlapping increments lose a count (`delivery_fails`).
-/

namespace Concentrator.Eda.Delivery

section
variable {P A C : Type} [DecidableEq P] [DecidableEq A] {trace : List (Entry P A)}

/-! ## Steps -/

/-- What a context holds: the event it took and has not executed. -/
def Place.held : Place P → List (Event P)
  | .holding e => [e]
  | _ => []

/-- The context has an event that was refused, and that the count does not show yet. -/
def Place.Uncounted : Place P → Prop
  | .refused | .counting _ => True
  | _ => False

/-- What an access does to the queues, and to what a context holds: nothing, or an active object
accepts an event, or its thread takes one or executes the one it took. -/
theorem access_moves {c : Context A C} {x : Access P A} (h : Fits c (place trace) x)
    (m : Memory P A) {p : Place P} (hp : place (⟨x, (m.access x).1⟩ :: trace) = p) :
    ((m.access x).2.queue = m.queue ∧ (m.access x).2.accepted = m.accepted ∧
      (m.access x).2.executed = m.executed ∧ p.held = (place trace).held) ∨
    (∃ a e q, (⟨x, (m.access x).1⟩ : Entry P A) = ⟨.put (some a) e, true⟩ ∧
      q.items = (m.queue a).items ++ [e] ∧ (m.access x).2 = { m with
        queue := Function.update m.queue a q
        accepted := Function.update m.accepted a (m.accepted a ++ [e]) } ∧
      p.held = (place trace).held) ∨
    (∃ a e q, c = .object a ∧ (m.queue a).items = e :: q.items ∧
      (m.access x).2 = { m with queue := Function.update m.queue a q } ∧
      (place trace).held = [] ∧ p.held = [e]) ∨
    ∃ a e, c = .object a ∧
      (m.access x).2 = { m with executed := Function.update m.executed a (m.executed a ++ [e]) } ∧
      (place trace).held = [e] ∧ p.held = [] := by
  subst hp
  cases hplace : place trace with
  | free =>
    rw [hplace] at h
    cases x with
    | put activeObject e =>
      cases activeObject with
      | none => exact .inl ⟨rfl, rfl, rfl, rfl⟩
      | some a =>
        rcases m.access_put a e with ⟨q, hq, hput⟩ | hput
        · rw [hput]
          exact .inr (.inl ⟨a, e, q, rfl, hq, rfl, rfl⟩)
        · rw [hput]
          exact .inl ⟨rfl, rfl, rfl, rfl⟩
    | get a =>
      rcases m.access_get a with ⟨e, q, hq, hget⟩ | hget
      · rw [hget]
        exact .inr (.inr (.inl ⟨a, e, q, h, hq, rfl, rfl, rfl⟩))
      · rw [hget]
        exact .inl ⟨rfl, rfl, rfl, rfl⟩
    | execute a e => exact h.elim
    | _ => exact .inl ⟨rfl, rfl, rfl, rfl⟩
  | refused =>
    rw [hplace] at h
    cases h
    exact .inl ⟨rfl, rfl, rfl, rfl⟩
  | counting count =>
    rw [hplace] at h
    cases h
    exact .inl ⟨rfl, rfl, rfl, rfl⟩
  | holding e =>
    rw [hplace] at h
    obtain ⟨a, hc, rfl⟩ := h
    exact .inr (.inr (.inr ⟨a, e, hc, rfl, rfl, rfl⟩))

/-- What an access does to the count, and to where a context is with it: nothing, or a queue refuses
an event, or the count is loaded, or stored. -/
theorem access_counts {c : Context A C} {x : Access P A} (h : Fits c (place trace) x)
    (hnull : ∀ e, x ≠ .put none e) (m : Memory P A) {p : Place P}
    (hp : place (⟨x, (m.access x).1⟩ :: trace) = p) :
    ((m.access x).2.dropped = m.dropped ∧ (m.access x).2.refused = m.refused ∧
      ¬ (place trace).Uncounted ∧ ¬ p.Uncounted) ∨
    ((m.access x).2.dropped = m.dropped ∧ (m.access x).2.refused = m.refused + 1 ∧
      ¬ (place trace).Uncounted ∧ p = .refused) ∨
    (x = .loadDropped ∧ (m.access x).2 = m ∧ place trace = .refused ∧ p = .counting m.dropped) ∨
    ∃ count, (m.access x).2 = { m with dropped := count + 1 } ∧ place trace = .counting count ∧
      p = .free := by
  subst hp
  cases hplace : place trace with
  | free =>
    rw [hplace] at h
    cases x with
    | put activeObject e =>
      cases activeObject with
      | none => exact absurd rfl (hnull e)
      | some a =>
        rcases m.access_put a e with ⟨q, hq, hput⟩ | hput
        · rw [hput]
          exact .inl ⟨rfl, rfl, id, id⟩
        · rw [hput]
          exact .inr (.inl ⟨rfl, rfl, id, rfl⟩)
    | get a =>
      rcases m.access_get a with ⟨e, q, hq, hget⟩ | hget
      · rw [hget]
        exact .inl ⟨rfl, rfl, id, id⟩
      · rw [hget]
        exact .inl ⟨rfl, rfl, id, id⟩
    | execute a e => exact h.elim
    | loadDropped => exact h.elim
    | storeDropped count => exact h.elim
    | _ => exact .inl ⟨rfl, rfl, id, id⟩
  | refused =>
    rw [hplace] at h
    cases h
    exact .inr (.inr (.inl ⟨rfl, rfl, rfl, rfl⟩))
  | counting count =>
    rw [hplace] at h
    cases h
    exact .inr (.inr (.inr ⟨count, rfl, rfl, rfl⟩))
  | holding e =>
    rw [hplace] at h
    obtain ⟨a, -, rfl⟩ := h
    exact .inl ⟨rfl, rfl, id, id⟩

/-- A null pointer is followed to no port. -/
theorem access_defined {c : Context A C} {x : Access P A} {p : Place P} (h : Fits c p x)
    (hnull : ∀ e, x ≠ .put none e) (m : Memory P A) :
    (m.access x).2.undefined = m.undefined := by
  cases x with
  | put activeObject e =>
    cases activeObject with
    | none => exact absurd rfl (hnull e)
    | some a => rcases m.access_put a e with ⟨q, -, hput⟩ | hput <;> rw [hput]
  | get a => rcases m.access_get a with ⟨e, q, -, hget⟩ | hget <;> rw [hget]
  | nullDereference =>
    cases p with
    | free => exact h.elim
    | refused => cases h
    | counting count => cases h
    | holding e =>
      obtain ⟨a, -, hx⟩ := h
      cases hx
  | _ => rfl

/-! ## Runs -/

/-- Where a context is. -/
def placeOf (s : (contexts P A C).Conf) (c : Context A C) : Place P := place (s.trace c)

variable [DecidableEq C]

variable (P A C) in
/-- The contexts, before any port is initialised. -/
abbrev system : Lts := (contexts P A C).lts .initial

variable {s s' : (contexts P A C).Conf} {l : (contexts P A C).Label}

/-- What a context does next is proper. -/
theorem fits (h : (system P A C).Reachable s) {c : Context A C} {x : Access P A}
    (hx : s.next c = some x) : Fits c (placeOf s c) x := by
  obtain ⟨method, k, hr⟩ := Contexts.Conf.running_of_next hx
  exact (Contexts.ensured Kept.refl Kept.trans Kept.access body_ensures h c _ hr s.mem
    (.refl _)).1

/-- A call that is about to return has come to what it should. -/
theorem done (h : (system P A C).Reachable s) {c : Context A C}
    {method : (contexts P A C).Method c} {trace : List (Entry P A)} {u : Unit}
    (hr : s.running c = some ⟨method, trace, .pure u⟩) :
    place trace = .free ∧ Done c method trace s.mem :=
  Contexts.ensured Kept.refl Kept.trans Kept.access body_ensures h c _ hr s.mem (.refl _)

/-- A step leaves the memory and the places alone, or is an access of one context, which alone
moves. -/
theorem step_places (h : (system P A C).Reachable s) (hs : Contexts.step l s = some s') :
    (s'.mem = s.mem ∧ ∀ d, placeOf s' d = placeOf s d) ∨
    (∃ c x, l = .act c ∧ s.next c = some x ∧ Fits c (placeOf s c) x ∧
      s'.mem = (s.mem.access x).2 ∧ s'.trace c = ⟨x, (s.mem.access x).1⟩ :: s.trace c ∧
      ∀ d, d ≠ c → placeOf s' d = placeOf s d) := by
  rcases Contexts.step_trace hs with ⟨hmem, c, hc, hothers, hends⟩ |
    ⟨c, x, hl, hx, hmem, hc, hothers⟩
  · refine .inl ⟨hmem, fun d => ?_⟩
    unfold placeOf
    by_cases hd : d = c
    · subst hd
      rw [hc]
      rcases hends with hnone | ⟨method, u, hr⟩
      · rw [Contexts.Conf.trace_eq_nil hnone]
      · exact (done h hr).1.symm
    · rw [hothers d hd]
  · refine .inr ⟨c, x, hl, hx, fits h hx, hmem, hc, fun d hd => ?_⟩
    unfold placeOf
    rw [hothers d hd]

/-- A context that has loaded the count is about to store it, one higher. -/
theorem next_of_counting (h : (system P A C).Reachable s) {c : Context A C} {count : UInt32}
    (hc : placeOf s c = .counting count) : s.next c = some (.storeDropped (count + 1)) := by
  cases hr : s.running c with
  | none =>
    rw [placeOf, Contexts.Conf.trace_eq_nil hr] at hc
    cases hc
  | some call =>
    obtain ⟨method, trace, left⟩ := call
    cases left with
    | pure u =>
      rw [placeOf, Contexts.Conf.trace_eq hr, (done h hr).1] at hc
      cases hc
    | call x k =>
      have hx : s.next c = some x := by rw [Contexts.Conf.next, hr]
      have hfits := fits h hx
      rw [hc] at hfits
      rw [hx, hfits]

/-- What an active object has executed, then what its thread holds, then what is in its queue, is
what the queue accepted. -/
def InOrder (s : (contexts P A C).Conf) : Prop :=
  ∀ a, s.mem.executed a ++ ((placeOf s (.object a)).held ++ (s.mem.queue a).items) =
    s.mem.accepted a

/-- A context that holds what it held leaves what each holds alone. -/
theorem held_of {c : Context A C} (hheld : (placeOf s' c).held = (placeOf s c).held)
    (hothers : ∀ d, d ≠ c → placeOf s' d = placeOf s d) (d : Context A C) :
    (placeOf s' d).held = (placeOf s d).held := by
  by_cases hd : d = c
  · rw [hd, hheld]
  · rw [hothers d hd]

/-- Every step keeps the order. -/
theorem InOrder.step (h : (system P A C).Reachable s) (hs : Contexts.step l s = some s')
    (hi : InOrder s) : InOrder s' := by
  rcases step_places h hs with ⟨hmem, hplaces⟩ | ⟨c, x, -, -, hfits, hmem, hc, hothers⟩
  · intro a
    rw [hmem, hplaces]
    exact hi a
  · rcases access_moves hfits s.mem (p := placeOf s' c) (by rw [placeOf, hc]) with
      ⟨hqueue, haccepted, hexecuted, hheld⟩ | ⟨a, e, q, -, hq, hm, hheld⟩ |
      ⟨a, e, q, rfl, hq, hm, hheld, hheld'⟩ | ⟨a, e, rfl, hm, hheld, hheld'⟩
    · intro b
      rw [hmem, hqueue, haccepted, hexecuted, held_of hheld hothers]
      exact hi b
    · -- the event goes behind the others, there and in the queue
      intro b
      rw [hmem, hm, held_of hheld hothers]
      show s.mem.executed b ++ (_ ++ (Function.update s.mem.queue a q b).items) =
        Function.update s.mem.accepted a _ b
      by_cases hb : b = a
      · subst hb
        rw [Function.update_self, Function.update_self, hq, ← hi b, List.append_assoc,
          List.append_assoc]
      · rw [Function.update_of_ne hb, Function.update_of_ne hb, hi b]
    · -- the oldest event leaves the queue, and the thread holds it
      intro b
      rw [hmem, hm]
      show s.mem.executed b ++ (_ ++ (Function.update s.mem.queue a q b).items) = s.mem.accepted b
      by_cases hb : b = a
      · subst hb
        have hholding : (placeOf s (.object b)).held = [] := hheld
        rw [Function.update_self, hheld', ← hi b, hq, hholding]
        rfl
      · rw [Function.update_of_ne hb, hothers _ fun hc => hb (Context.object.inj hc), hi b]
    · -- the event the thread holds is executed
      intro b
      rw [hmem, hm]
      show Function.update s.mem.executed a _ b ++ (_ ++ (s.mem.queue b).items) = s.mem.accepted b
      by_cases hb : b = a
      · subst hb
        have hholding : (placeOf s (.object b)).held = [e] := hheld
        rw [Function.update_self, hheld', ← hi b, hholding, List.append_assoc]
        rfl
      · rw [Function.update_of_ne hb, hothers _ fun hc => hb (Context.object.inj hc), hi b]

/-- A step keeps what is registered, and the reason of a fault. -/
theorem kept_step (hs : Contexts.step l s = some s') : Kept s.mem s'.mem := by
  rcases Contexts.step_trace hs with ⟨hmem, -⟩ | ⟨c, x, -, -, hmem, -⟩
  · rw [hmem]
    exact .refl _
  · rw [hmem]
    exact .access x s.mem

/-! ## Careful runs -/

/-- A step of a careful run: the count is loaded by one context at a time, up to its store, and
nothing is posted to a null active object. -/
def Careful : (contexts P A C).Label → (contexts P A C).Conf → Prop
  | .act c, s =>
    (s.next c = some .loadDropped → ∀ d count, s.next d ≠ some (.storeDropped count)) ∧
      ∀ e, s.next c ≠ some (.put none e)
  | _, _ => True

/-- The count is what was refused, less what some contexts have not counted yet; and one of these at
most has loaded it, and has what is there. -/
structure Counted (s : (contexts P A C).Conf) : Prop where
  lost : ∃ uncounted : List (Context A C), uncounted.Nodup ∧
    (∀ c, c ∈ uncounted ↔ (placeOf s c).Uncounted) ∧
    UInt32.ofNat s.mem.refused = s.mem.dropped + UInt32.ofNat uncounted.length
  alone : ∀ c count, placeOf s c = .counting count → s.mem.dropped = count ∧
    ∀ d count', placeOf s d = .counting count' → d = c

omit [DecidableEq C] in
/-- A step that leaves the count alone, and no context newly counting, keeps it. -/
theorem Counted.same (hi : Counted s) (hdropped : s'.mem.dropped = s.mem.dropped)
    (hrefused : s'.mem.refused = s.mem.refused)
    (hplaces : ∀ d, placeOf s' d = placeOf s d ∨
      ¬ (placeOf s d).Uncounted ∧ ¬ (placeOf s' d).Uncounted) : Counted s' := by
  obtain ⟨uncounted, hnodup, hmem, hlost⟩ := hi.lost
  have hcounting {d count} (hd : placeOf s' d = .counting count) :
      placeOf s d = .counting count := by
    rcases hplaces d with hsame | ⟨-, hafter⟩
    · rw [← hsame, hd]
    · rw [hd] at hafter
      exact absurd trivial hafter
  refine ⟨⟨uncounted, hnodup, fun d => ?_, ?_⟩, fun c count hc => ?_⟩
  · rcases hplaces d with hsame | ⟨hbefore, hafter⟩
    · rw [hmem, hsame]
    · rw [hmem]
      exact iff_of_false hbefore hafter
  · rw [hdropped, hrefused, hlost]
  · obtain ⟨hcount, halone⟩ := hi.alone c count (hcounting hc)
    exact ⟨hdropped.trans hcount, fun d count' hd => halone d count' (hcounting hd)⟩

/-- A queue refuses an event: one more is uncounted. -/
theorem Counted.refuse (hi : Counted s) {c : Context A C}
    (hdropped : s'.mem.dropped = s.mem.dropped)
    (hrefused : s'.mem.refused = s.mem.refused + 1) (hbefore : ¬ (placeOf s c).Uncounted)
    (hafter : placeOf s' c = .refused) (hothers : ∀ d, d ≠ c → placeOf s' d = placeOf s d) :
    Counted s' := by
  obtain ⟨uncounted, hnodup, hmem, hlost⟩ := hi.lost
  have hcounting {d count} (hd : placeOf s' d = .counting count) :
      placeOf s d = .counting count := by
    by_cases hdc : d = c
    · rw [hdc, hafter] at hd
      cases hd
    · rw [← hothers d hdc, hd]
  refine ⟨⟨c :: uncounted, List.nodup_cons.2 ⟨fun hc => hbefore ((hmem c).1 hc), hnodup⟩,
    fun d => ?_, ?_⟩, fun d count hd => ?_⟩
  · rw [List.mem_cons, hmem]
    by_cases hdc : d = c
    · rw [hdc, hafter]
      exact iff_of_true (.inl rfl) trivial
    · rw [hothers d hdc]
      exact or_iff_right hdc
  · rw [hdropped, hrefused, List.length_cons, UInt32.ofNat_add, UInt32.ofNat_add, hlost,
      UInt32.add_assoc]
  · obtain ⟨hcount, halone⟩ := hi.alone d count (hcounting hd)
    exact ⟨hdropped.trans hcount, fun d' count' hd' => halone d' count' (hcounting hd')⟩

/-- A context loads the count while none is between its load and its store. -/
theorem Counted.load (hi : Counted s) {c : Context A C} (hm : s'.mem = s.mem)
    (hnone : ∀ d count, placeOf s d ≠ .counting count) (hbefore : placeOf s c = .refused)
    (hafter : placeOf s' c = .counting s.mem.dropped)
    (hothers : ∀ d, d ≠ c → placeOf s' d = placeOf s d) : Counted s' := by
  obtain ⟨uncounted, hnodup, hmem, hlost⟩ := hi.lost
  have honly {d count} (hd : placeOf s' d = .counting count) : d = c := by
    by_contra hdc
    rw [hothers d hdc] at hd
    exact hnone d count hd
  refine ⟨⟨uncounted, hnodup, fun d => ?_, ?_⟩, fun d count hd => ?_⟩
  · rw [hmem]
    by_cases hdc : d = c
    · rw [hdc, hbefore, hafter]
      exact Iff.rfl
    · rw [hothers d hdc]
  · rw [hm, hlost]
  · cases honly hd
    rw [hafter] at hd
    cases hd
    exact ⟨by rw [hm], fun d' count' hd' => honly hd'⟩

/-- A context stores the count it loaded, one higher: nobody has stored it in between. -/
theorem Counted.store (hi : Counted s) {c : Context A C} {count : UInt32}
    (hm : s'.mem = { s.mem with dropped := count + 1 }) (hbefore : placeOf s c = .counting count)
    (hafter : placeOf s' c = .free) (hothers : ∀ d, d ≠ c → placeOf s' d = placeOf s d) :
    Counted s' := by
  obtain ⟨uncounted, hnodup, hmem, hlost⟩ := hi.lost
  obtain ⟨hcount, halone⟩ := hi.alone c count hbefore
  have hc : c ∈ uncounted := (hmem c).2 (by rw [hbefore]; trivial)
  refine ⟨⟨uncounted.erase c, hnodup.erase c, fun d => ?_, ?_⟩, fun d count' hd => ?_⟩
  · rw [hnodup.mem_erase_iff, hmem]
    by_cases hdc : d = c
    · rw [hdc, hafter]
      exact iff_of_false (fun h => h.1 rfl) id
    · rw [hothers d hdc]
      exact and_iff_right hdc
  · have hlength : (uncounted.erase c).length + 1 = uncounted.length := by
      rw [List.length_erase_of_mem hc]
      exact Nat.succ_pred_eq_of_pos (List.length_pos_of_mem hc)
    rw [hm, hlost, hcount, ← hlength, UInt32.ofNat_add]
    show count + (_ + 1) = count + 1 + _
    rw [UInt32.add_assoc, UInt32.add_comm 1]
  · by_cases hdc : d = c
    · rw [hdc, hafter] at hd
      cases hd
    · rw [hothers d hdc] at hd
      exact absurd (halone d count' hd) hdc

/-- Every careful step keeps the count. -/
theorem Counted.step (h : (system P A C).Reachable s) (hl : Careful l s)
    (hs : Contexts.step l s = some s') (hi : Counted s) : Counted s' := by
  rcases step_places h hs with ⟨hm, hplaces⟩ | ⟨c, x, rfl, hx, hfits, hm, hc, hothers⟩
  · exact hi.same (by rw [hm]) (by rw [hm]) fun d => .inl (hplaces d)
  · have hnull (e : Event P) : x ≠ .put none e := by
      rintro rfl
      exact hl.2 e hx
    rcases access_counts hfits hnull s.mem (p := placeOf s' c) (by rw [placeOf, hc]) with
      ⟨hdropped, hrefused, hbefore, hafter⟩ | ⟨hdropped, hrefused, hbefore, hafter⟩ |
      ⟨rfl, hsame, hbefore, hafter⟩ | ⟨count, hstored, hbefore, hafter⟩
    · refine hi.same (by rw [hm, hdropped]) (by rw [hm, hrefused]) fun d => ?_
      by_cases hd : d = c
      · rw [hd]
        exact .inr ⟨hbefore, hafter⟩
      · exact .inl (hothers d hd)
    · exact hi.refuse (by rw [hm, hdropped]) (by rw [hm, hrefused]) hbefore hafter hothers
    · refine hi.load (by rw [hm, hsame]) (fun d count hd => ?_) hbefore hafter hothers
      exact hl.1 hx d _ (next_of_counting h hd)
    · exact hi.store (by rw [hm, hstored]) hbefore hafter hothers

/-- Everything is delivered once and in order, or the loss shows. -/
structure Exact (s : (contexts P A C).Conf) : Prop where
  /-- No null pointer was followed. -/
  defined : s.mem.undefined = false
  /-- What an active object has executed, then the event its thread holds, then what is in its
  queue, is what the queue accepted. -/
  inOrder : ∀ a, s.mem.executed a ++ ((placeOf s (.object a)).held ++ (s.mem.queue a).items) =
    s.mem.accepted a
  /-- A queue accepts what a call posts, one event a post, and nothing else. -/
  accepts : ∀ l s' a, Contexts.step l s = some s' → s'.mem.accepted a = s.mem.accepted a ∨
    ∃ c e, l = .act c ∧ s'.trace c = ⟨.put (some a) e, true⟩ :: s.trace c ∧
      s'.mem.accepted a = s.mem.accepted a ++ [e]
  /-- A thread's call that is about to return has appended one event, or has changed no queue and
  leaves the latch active. -/
  sent : ∀ c id eventId data trace u,
    s.running (.sender c) = some ⟨.sendEvent id eventId data, trace, .pure u⟩ →
      Sent id eventId data trace s.mem
  /-- An interrupt's call that is about to return has appended one event, or counted one loss, or
  found no port registered. -/
  sentFromIsr : ∀ c id eventId data trace u,
    s.running (.sender c) = some ⟨.sendEventFromIsr id eventId data, trace, .pure u⟩ →
      SentFromIsr id eventId data trace
  /-- Whoever counts a loss increments the count by one. -/
  counts : ∀ c count, s.next c = some (.storeDropped count) → count = s.mem.dropped + 1
  /-- The count is the number of losses, less those that are not counted yet. -/
  lost : ∃ uncounted : List (Context A C), uncounted.Nodup ∧
    (∀ c, c ∈ uncounted ↔ (placeOf s c).Uncounted) ∧
    UInt32.ofNat s.mem.refused = s.mem.dropped + UInt32.ofNat uncounted.length
  /-- An active latch keeps its reason in any further run. -/
  latched : ∀ reason ls s', s.mem.fault = some reason → (system P A C).run ls s = some s' →
    s'.mem.fault = some reason

/-- A queue accepts what a call posts. -/
theorem accepted_step (h : (system P A C).Reachable s) (hs : Contexts.step l s = some s') (a : A) :
    s'.mem.accepted a = s.mem.accepted a ∨
      ∃ c e, l = .act c ∧ s'.trace c = ⟨.put (some a) e, true⟩ :: s.trace c ∧
        s'.mem.accepted a = s.mem.accepted a ++ [e] := by
  rcases step_places h hs with ⟨hm, -⟩ | ⟨c, x, rfl, -, hfits, hm, hc, -⟩
  · rw [hm]
    exact .inl rfl
  · rcases access_moves hfits s.mem rfl with ⟨-, haccepted, -⟩ | ⟨a', e, q, hentry, -, hput, -⟩ |
      ⟨_, _, _, -, -, hget, -⟩ | ⟨_, _, -, hexecute, -⟩
    · rw [hm, haccepted]
      exact .inl rfl
    · rw [hentry] at hc
      rw [hm, hput]
      show Function.update s.mem.accepted a' _ a = _ ∨ ∃ c e, _ ∧ _ ∧ Function.update _ _ _ _ = _
      by_cases ha : a = a'
      · subst ha
        rw [Function.update_self]
        exact .inr ⟨c, e, rfl, hc, rfl⟩
      · rw [Function.update_of_ne ha]
        exact .inl rfl
    · rw [hm, hget]
      exact .inl rfl
    · rw [hm, hexecute]
      exact .inl rfl

/-- No careful step follows a null pointer. -/
theorem defined_step (h : (system P A C).Reachable s) (hl : Careful l s)
    (hs : Contexts.step l s = some s') : s'.mem.undefined = s.mem.undefined := by
  rcases step_places h hs with ⟨hm, -⟩ | ⟨c, x, rfl, hx, hfits, hm, -⟩
  · rw [hm]
  · rw [hm]
    refine access_defined hfits (fun e => ?_) s.mem
    rintro rfl
    exact hl.2 e hx

/-- The count is kept along a careful run. -/
theorem counted (h : (system P A C).Within Careful s) : Counted s := by
  refine h.invariant (I := Counted) ?_ fun _ _ _ hreach hl hi hs => hi.step hreach hl hs
  rintro _ rfl
  exact ⟨⟨[], List.nodup_nil, fun c => iff_of_false List.not_mem_nil id, rfl⟩,
    fun c count hc => nomatch hc⟩

/-- **Delivery is exactly once and in order, or the loss shows.** In every state that a careful run
reaches, whatever the contexts do and however their accesses interleave. -/
theorem delivery_exact (h : (system P A C).Within Careful s) : Exact s where
  defined := h.invariant (I := fun s : (contexts P A C).Conf => s.mem.undefined = false)
    (fun _ hinit => by rw [hinit]; rfl)
    fun _ _ _ hreach hl hi hs => (defined_step hreach hl hs).trans hi
  inOrder := h.invariant (I := InOrder) (fun _ hinit a => by rw [hinit]; rfl)
    fun _ _ _ hreach _ hi hs => hi.step hreach hs
  accepts _ _ a hs := accepted_step h.reachable hs a
  sent _ _ _ _ _ _ hr := (done h.reachable hr).2
  sentFromIsr _ _ _ _ _ _ hr := (done h.reachable hr).2
  counts c count hc := by
    have hfits := fits h.reachable hc
    cases hplace : placeOf s c with
    | free =>
      rw [hplace] at hfits
      exact hfits.elim
    | refused =>
      rw [hplace] at hfits
      cases hfits
    | counting loaded =>
      rw [hplace] at hfits
      cases hfits
      rw [((counted h).alone c loaded hplace).1]
    | holding e =>
      rw [hplace] at hfits
      obtain ⟨a, -, hx⟩ := hfits
      cases hx
  lost := (counted h).lost
  latched reason _ _ hfault hrun :=
    (system P A C).run_kept (I := fun s : (contexts P A C).Conf => s.mem.fault = some reason)
      (fun _ _ _ hfault hs => (kept_step hs).fault reason hfault) hfault hrun

/-- Whether a step is careful, where the contexts are these. -/
def carefulStep (all : List (Context A C)) :
    (contexts P A C).Label → (contexts P A C).Conf → Bool
  | .act c, s =>
    match s.next c with
    | some .loadDropped => all.all fun d =>
      match s.next d with
      | some (.storeDropped _) => false
      | _ => true
    | some (.put none _) => false
    | _ => true
  | _, _ => true

omit [DecidableEq C] in
theorem carefulStep_careful {all : List (Context A C)} (hall : ∀ c, c ∈ all)
    (l : (contexts P A C).Label) (s : (contexts P A C).Conf) (h : carefulStep all l s = true) :
    Careful l s := by
  cases l with
  | act c =>
    refine ⟨fun hc d count hd => ?_, fun e hc => ?_⟩
    · simp only [carefulStep, hc] at h
      have hcount := List.all_eq_true.1 h d (hall d)
      rw [hd] at hcount
      cases hcount
    · simp only [carefulStep, hc] at h
      cases h
  | _ => trivial

/-- A sender's call, up to its first `n` accesses, with nobody in between. -/
def begins (c : C) (call : Send P A) (n : Nat) : List (contexts P A C).Label :=
  Contexts.Label.calls (.sender c) call n

/-- A sender's call of `n` accesses, with nobody in between. -/
def sends (c : C) (call : Send P A) (n : Nat) : List (contexts P A C).Label :=
  begins c call n ++ [.ret (.sender c)]

/-- An active object takes an event and executes it. -/
def takes (a : A) : List (contexts P A C).Label :=
  Contexts.Label.calls (.object a) () 2 ++ [.ret (.object a)]

/-- A port is initialised, and the queue of its active object is filled. -/
def fills (c : C) (port : P) (id : UInt8) (a : A) : List (contexts P A C).Label :=
  sends c (.init port id a) 2 ++
    (List.range QUEUE_LENGTH).flatMap fun i => sends c (.sendEvent id (.ofNat i) 0) 6

end

/-- The queue is full. One event was executed, and another was taken after an interrupt and a thread
had each lost one. -/
theorem delivery_exact_full : ∃ s : (contexts Unit Unit Bool).Conf,
    (system Unit Unit Bool).Within Careful s ∧ s.mem.executed () = [⟨(), 0, 0⟩] ∧
    (placeOf s (.object ())).held = [⟨(), 1, 0⟩] ∧ (s.mem.queue ()).items.length = 19 ∧
    s.mem.dropped = 2 ∧ s.mem.fault = some .eventLost ∧ s.returns (.sender false) = true ∧
    s.returns (.sender true) = true ∧ Exact s := by
  have hall : ∀ c : Context Unit Bool, c ∈ [.object (), .sender false, .sender true]
    | .object () => .head _
    | .sender false => .tail _ (.head _)
    | .sender true => .tail _ (.tail _ (.head _))
  obtain ⟨s, hs, hp⟩ := Lts.Within.exists_of_runWithin (L := system Unit Unit Bool)
    (carefulStep_careful hall)
    (fills false () 1 () ++ takes () ++ sends false (.sendEvent 1 20 0) 6 ++
      begins true (.sendEventFromIsr 1 21 0) 8 ++ begins false (.sendEvent 1 22 0) 9 ++
      Contexts.Label.calls (.object ()) () 1)
    (fun s => decide (s.mem.executed () = [⟨(), 0, 0⟩] ∧
      (placeOf s (.object ())).held = [⟨(), 1, 0⟩] ∧ (s.mem.queue ()).items.length = 19 ∧
      s.mem.dropped = 2 ∧ s.mem.fault = some .eventLost ∧ s.returns (.sender false) = true ∧
      s.returns (.sender true) = true))
    (.init rfl) (by decide +kernel)
  obtain ⟨hexecuted, hheld, hqueue, hdropped, hfault, hthread, hisr⟩ := of_decide_eq_true hp
  exact ⟨s, hs, hexecuted, hheld, hqueue, hdropped, hfault, hthread, hisr, delivery_exact hs⟩

/-- The queues of two active objects are full, and two calls of `send_event_from_isr()` overlap, as
when a timer interrupts the thread that receives advertisements: the second one counts its loss
between the load and the store of the first, whose store increments nothing. Two events were lost,
and the count says one. And a call that has found its port goes to a null active object when another
port object is registered under the id in between, and is not initialised yet. -/
theorem delivery_fails :
    (∃ s : (contexts Bool Bool Bool).Conf, (system Bool Bool Bool).Reachable s ∧
      s.next (.sender true) = some (.storeDropped 1) ∧ s.mem.dropped = 1 ∧ ¬ Exact s) ∧
    (∃ s : (contexts Bool Bool Bool).Conf, (system Bool Bool Bool).Reachable s ∧
      (∀ c, s.running c = none) ∧ s.mem.refused = 2 ∧ s.mem.dropped = 1 ∧ ¬ Exact s) ∧
    ∃ s : (contexts Bool Bool Bool).Conf, (system Bool Bool Bool).Reachable s ∧
      s.mem.undefined = true ∧ ¬ Exact s := by
  -- both queues are full, and the outer call has loaded the count when the inner one comes
  let overlap : List (contexts Bool Bool Bool).Label :=
    fills false false 2 false ++ fills false true 3 true ++
      begins true (.sendEventFromIsr 2 20 0) 7 ++ sends false (.sendEventFromIsr 3 20 0) 8
  refine ⟨?_, ?_, ?_⟩
  · obtain ⟨s, hs, hp⟩ := Lts.Reachable.exists_of_run (L := system Bool Bool Bool) overlap
      (fun s => decide (s.next (.sender true) = some (.storeDropped 1) ∧ s.mem.dropped = 1))
      (.init rfl) (by decide +kernel)
    obtain ⟨hnext, hdropped⟩ := of_decide_eq_true hp
    refine ⟨s, hs, hnext, hdropped, fun h => ?_⟩
    have hcount := h.counts _ _ hnext
    rw [hdropped] at hcount
    cases hcount
  · obtain ⟨s, hs, hp⟩ := Lts.Reachable.exists_of_run (L := system Bool Bool Bool)
      (overlap ++ [.act (.sender true), .ret (.sender true)])
      (fun s => decide ((∀ b, s.running (.object b) = none ∧ s.running (.sender b) = none) ∧
        s.mem.refused = 2 ∧ s.mem.dropped = 1))
      (.init rfl) (by decide +kernel)
    obtain ⟨hquiet, hrefused, hdropped⟩ := of_decide_eq_true hp
    have hnone : ∀ c, s.running c = none
      | .object a => (hquiet a).1
      | .sender c => (hquiet c).2
    refine ⟨s, hs, hnone, hrefused, hdropped, fun h => ?_⟩
    obtain ⟨uncounted, -, hmem, hlost⟩ := h.lost
    have hempty : uncounted = [] := List.eq_nil_iff_forall_not_mem.2 fun c hc => by
      have hplace := (hmem c).1 hc
      rw [placeOf, Contexts.Conf.trace_eq_nil (hnone c)] at hplace
      exact hplace
    rw [hempty, hrefused, hdropped] at hlost
    cases hlost
  · obtain ⟨s, hs, hp⟩ := Lts.Reachable.exists_of_run (L := system Bool Bool Bool)
      (sends false (.init false 1 false) 2 ++ begins true (.sendEvent 1 7 0) 3 ++
        begins false (.init true 1 true) 1 ++ List.replicate 3 (.act (.sender true)))
      (fun s => s.mem.undefined) (.init rfl) (by decide +kernel)
    exact ⟨s, hs, hp, fun h => by rw [h.defined] at hp; cases hp⟩

end Concentrator.Eda.Delivery
