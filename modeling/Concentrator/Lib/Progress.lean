import Concentrator.Lib.Linearize

/-!
# Calls that can always be brought to their end

A thread that runs a method which conforms is never stuck: it waits for the lock only while another
thread holds it, and a thread that holds it waits for nothing (`View.Sound.act`). With a bound on
the steps of every method, each call can be brought to its end in so many steps of its own and of
the thread that holds the lock (`View.Sound.completes`).
-/

namespace Concentrator

namespace Prog

variable {S T : Sig} {α β : Type}

/-- The program makes at most `n` calls, whatever the answers are. -/
def AtMost : Prog S α → Nat → Prop
  | .pure _, _ => True
  | .call _ _, 0 => False
  | .call _ k, n + 1 => ∀ r, (k r).AtMost n

theorem AtMost.mono {p : Prog S α} {n n' : Nat} (hp : p.AtMost n) (hn : n ≤ n') : p.AtMost n' := by
  induction p generalizing n n' with
  | pure a => trivial
  | call o k ih =>
    cases n with
    | zero => exact hp.elim
    | succ n =>
      obtain ⟨n', rfl⟩ : ∃ m, n' = m + 1 := ⟨n' - 1, by omega⟩
      exact fun r => ih r (hp r) (by omega)

/-- After a call no more is left than before. -/
theorem AtMost.rest {o : S.Op} {k : S.Res o → Prog S α} {n : Nat} (hp : (Prog.call o k).AtMost n)
    (r : S.Res o) : (k r).AtMost n := by
  cases n with
  | zero => exact hp.elim
  | succ n => exact (hp r).mono (Nat.le_succ n)

theorem AtMost.op {o : S.Op} {f : S.Res o → Prog S α} {n : Nat} (hf : ∀ r, (f r).AtMost n) :
    (Prog.op o >>= f).AtMost (n + 1) := hf

/-- Sequencing adds the bounds. -/
theorem AtMost.bind {p : Prog S α} {f : α → Prog S β} {n m k : Nat} (hp : p.AtMost n)
    (hf : ∀ a, (f a).AtMost m) (hk : n + m ≤ k) : (p >>= f).AtMost k := by
  induction p generalizing n k with
  | pure a => exact (hf a).mono (by omega)
  | call o q ih =>
    cases n with
    | zero => exact hp.elim
    | succ n =>
      obtain ⟨k, rfl⟩ : ∃ j, k = j + 1 := ⟨k - 1, by omega⟩
      exact fun r => ih r (hp r) (by omega)

theorem AtMost.ite {c : Prop} [Decidable c] {p q : Prog S α} {n : Nat} (hp : p.AtMost n)
    (hq : q.AtMost n) : (if c then p else q).AtMost n := by
  split
  · exact hp
  · exact hq

theorem AtMost.hoist {ι : S.Op → T.Op} {f : ∀ o, T.Res (ι o) → S.Res o} {p : Prog S α} {n : Nat}
    (hp : p.AtMost n) : (p.hoist ι f).AtMost n := by
  induction p generalizing n with
  | pure a => trivial
  | call o k ih =>
    cases n with
    | zero => exact hp.elim
    | succ n => exact fun r => ih _ (hp _)

end Prog

namespace View

variable {S : Sig} {Op Res Time Tid : Type} {O : Shared S Op Res Time} {A : Atomic Op Res Time}
  [LE Time] [Std.IsPreorder Time] [DecidableLE Time] [DecidableEq Tid]

/-- A thread that has a step left can take it, unless another one holds the lock. -/
theorem Sound.act {V : View O A} (hV : V.Sound) {c : O.Conf Tid} (h : (O.lts Tid).Reachable c)
    {t : Tid} {x : (S.locking Time).Op} {k : (S.locking Time).Res x → Prog (S.locking Time) Res}
    (hr : c.running t = some (.call x k)) (ho : c.owner = none ∨ c.owner = some t) :
    ∃ c' r, Shared.step (.act t) c = some c' ∧ c'.running t = some (k r) ∧
      (c'.owner = none ∨ c'.owner = some t) ∧ ∀ u, u ≠ t → c'.running u = c.running u := by
  obtain ⟨P, p, hc⟩ := hV.linked h
  obtain ⟨o, called, d, e, -, -, hconf⟩ := hc.busy t _ hr
  cases x with
  | lock =>
    rcases ho with ho | ho
    · refine ⟨{ c.resume t (k ()) with owner := some t }, (), ?_, c.resume_self t _, .inr rfl,
        fun u hu => c.resume_of_ne hu _⟩
      simp only [Shared.step, hr, ho, if_true]
    · rw [place, if_pos ho] at hconf
      exact hconf.elim
  | unlock =>
    rcases ho with ho | ho
    · rw [place, if_neg (ho ▸ (Option.some_ne_none t).symm)] at hconf
      exact hconf.elim
    · refine ⟨{ c.resume t (k ()) with owner := none }, (), ?_, c.resume_self t _, .inl rfl,
        fun u hu => c.resume_of_ne hu _⟩
      simp only [Shared.step, hr, ho, if_true]
  | clock =>
    refine ⟨c.resume t (k c.now), c.now, ?_, c.resume_self t _, ho,
      fun u hu => c.resume_of_ne hu _⟩
    simp only [Shared.step, hr]
  | access x =>
    refine ⟨{ c.resume t (k (O.access x c.mem).1) with mem := (O.access x c.mem).2 }, _, ?_,
      c.resume_self t _, ho, fun u hu => c.resume_of_ne hu _⟩
    simp only [Shared.step, hr]

/-- A call that is about to return does not hold the lock. -/
theorem Sound.released {V : View O A} (hV : V.Sound) {c : O.Conf Tid}
    (h : (O.lts Tid).Reachable c) {t : Tid} {r : Res} (hr : c.running t = some (.pure r)) :
    c.owner ≠ some t := by
  obtain ⟨P, p, hc⟩ := hV.linked h
  obtain ⟨o, called, d, e, -, -, hw, -⟩ := hc.busy t _ hr
  intro ho
  rw [place, if_pos ho] at hw
  cases hw

/-- A thread for which the lock is free, or its own, gets to its return by its own steps. The
induction is on what it has left to run. -/
theorem Sound.runs_out {V : View O A} (hV : V.Sound) {t : Tid} {q : Prog (S.locking Time) Res}
    {n : Nat} (hq : q.AtMost n) {c : O.Conf Tid} (h : (O.lts Tid).Reachable c)
    (hr : c.running t = some q) (ho : c.owner = none ∨ c.owner = some t) :
    ∃ k c' r, k ≤ n ∧ (O.lts Tid).run (List.replicate k (.act t)) c = some c' ∧
      c'.running t = some (.pure r) ∧ c'.owner = none ∧
      ∀ u, u ≠ t → c'.running u = c.running u := by
  induction q generalizing n c with
  | pure r =>
    exact ⟨0, c, r, Nat.zero_le n, rfl, hr, ho.resolve_right (hV.released h hr), fun _ _ => rfl⟩
  | call x k ih =>
    cases n with
    | zero => exact hq.elim
    | succ n =>
      obtain ⟨c₁, r₁, hstep, hr₁, ho₁, hothers₁⟩ := hV.act h hr ho
      obtain ⟨j, c', r, hj, hrun, hr', ho', hothers⟩ :=
        ih r₁ (hq r₁) (.step (.act t) h hstep) hr₁ ho₁
      refine ⟨j + 1, c', r, Nat.succ_le_succ hj, ?_, hr', ho',
        fun u hu => (hothers u hu).trans (hothers₁ u hu)⟩
      exact Option.bind_eq_some_iff.2 ⟨c₁, hstep, hrun⟩

omit [Std.IsPreorder Time] in
/-- What a thread has left to run is within the bound on the methods. -/
theorem running_atMost {N : Nat} (hN : ∀ o, (O.body o).AtMost N) {c : O.Conf Tid}
    (h : (O.lts Tid).Reachable c) : ∀ t q, c.running t = some q → q.AtMost N := by
  refine Lts.Reachable.invariant (I := fun c : O.Conf Tid => ∀ t q, c.running t = some q →
    q.AtMost N) ?_ ?_ h
  · rintro c ⟨now, rfl⟩ t q hq
    cases hq
  · intro l c c' hc hs
    have hresume {t : Tid} {q : Prog (S.locking Time) Res} (hq : q.AtMost N) (u : Tid)
        (q' : Prog (S.locking Time) Res) (hq' : (c.resume t q).running u = some q') :
        q'.AtMost N := by
      by_cases hut : u = t
      · subst hut
        cases (c.resume_self u q).symm.trans hq'
        exact hq
      · exact hc u q' ((c.resume_of_ne hut q).symm.trans hq')
    rcases Shared.step_cases hs with ⟨t, o, -, rfl⟩ | ⟨t, k, hr, -, rfl⟩ | ⟨t, k, hr, -, rfl⟩ |
      ⟨t, k, hr, rfl⟩ | ⟨t, x, k, hr, rfl⟩ | ⟨t, r, -, rfl⟩ | ⟨now, -, rfl⟩
    · exact hresume (hN o)
    · exact hresume ((hc t _ hr).rest ())
    · exact hresume ((hc t _ hr).rest ())
    · exact hresume ((hc t _ hr).rest c.now)
    · exact hresume ((hc t _ hr).rest _)
    · intro u q hq
      by_cases hut : u = t
      · subst hut
        cases (Function.update_self u none c.running).symm.trans hq
      · exact hc u q ((Function.update_of_ne hut none c.running).symm.trans hq)
    · exact hc

/-- **Every call can be brought to its end**, by the steps of the thread that holds the lock and
then its own: the others need not take part, and neither of the two waits. -/
theorem Sound.completes {V : View O A} (hV : V.Sound) {N : Nat} (hN : ∀ o, (O.body o).AtMost N)
    {c : O.Conf Tid} (h : (O.lts Tid).Reachable c) {t : Tid} {q : Prog (S.locking Time) Res}
    (hr : c.running t = some q) :
    ∃ ls c', ls.length ≤ 2 * N + 1 ∧ (O.lts Tid).run ls c = some c' ∧ c'.running t = none ∧
      ∀ l ∈ ls, l = .ret t ∨ ∃ u, l = .act u ∧ (u = t ∨ c.owner = some u) := by
  -- First the holder of the lock, if it is another thread.
  obtain ⟨j, c₁, hj, u, hu, hrun₁, ho₁, hr₁⟩ : ∃ j c₁, j ≤ N ∧ ∃ u, (u = t ∨ c.owner = some u) ∧
      (O.lts Tid).run (List.replicate j (.act u)) c = some c₁ ∧
      (c₁.owner = none ∨ c₁.owner = some t) ∧ c₁.running t = some q := by
    cases ho : c.owner with
    | none => exact ⟨0, c, Nat.zero_le N, t, .inl rfl, rfl, .inl ho, hr⟩
    | some u =>
      by_cases hut : u = t
      · exact ⟨0, c, Nat.zero_le N, t, .inl rfl, rfl, .inr (hut ▸ ho), hr⟩
      · obtain ⟨P, p, hc⟩ := hV.linked h
        cases hq : c.running u with
        | none => exact absurd ho (hc.idle u hq).2
        | some q' =>
          obtain ⟨j, c₁, r, hj, hrun, -, ho₁, hothers⟩ :=
            hV.runs_out (running_atMost hN h u q' hq) h hq (.inr ho)
          exact ⟨j, c₁, hj, u, .inr rfl, hrun, .inl ho₁, (hothers t (Ne.symm hut)).trans hr⟩
  -- Then the thread itself, up to its return.
  have h₁ := h.run hrun₁
  obtain ⟨k, c₂, r, hk, hrun₂, hr₂, -, -⟩ :=
    hV.runs_out (running_atMost hN h₁ t q hr₁) h₁ hr₁ ho₁
  refine ⟨List.replicate j (.act u) ++ (List.replicate k (.act t) ++ [.ret t]), { c₂ with
    running := Function.update c₂.running t none
    history := .ret t r c₂.now :: c₂.history }, ?_, ?_, Function.update_self .., ?_⟩
  · simp only [List.length_append, List.length_replicate, List.length_singleton]
    omega
  · rw [Lts.run_append, hrun₁]
    show (O.lts Tid).run (List.replicate k (.act t) ++ [.ret t]) c₁ = _
    rw [Lts.run_append, hrun₂]
    show (Shared.step (.ret t) c₂).bind _ = _
    simp only [Shared.step, hr₂]
    rfl
  · intro l hl
    rcases List.mem_append.1 hl with hl | hl
    · exact .inr ⟨u, List.eq_of_mem_replicate hl, hu⟩
    · rcases List.mem_append.1 hl with hl | hl
      · exact .inr ⟨t, List.eq_of_mem_replicate hl, .inl rfl⟩
      · exact .inl (List.mem_singleton.1 hl)

end View

end Concentrator
