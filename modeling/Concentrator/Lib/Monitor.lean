import Concentrator.Lib.Prog

/-!
# Programs under a monitor

A monitor watches the calls of a program: it allows a call or not, and moves with the answer. A
program that obeys it makes allowed calls only, whatever the answers are. When every program of a
thread obeys the monitor and the monitor's state can be read off the shared state, every call that
a run is about to make is allowed (`Threaded.obeys_reach`). Other than `wp`, this speaks of the call
itself, before it is made.
-/

namespace Concentrator

/-- A monitor with states `σ`: which calls it allows, and how an answer moves it. -/
structure Monitor (S : Sig) (σ : Type) where
  allows : σ → S.Op → Prop
  next : (o : S.Op) → S.Res o → σ → σ

namespace Prog

variable {S T : Sig} {σ α β : Type}

/-- From the state `m` of the monitor, the program makes allowed calls only. -/
def Obeys (W : Monitor S σ) : Prog S α → σ → Prop
  | .pure _, _ => True
  | .call o k, m => W.allows m o ∧ ∀ r, (k r).Obeys W (W.next o r m)

/-- Sequencing, when what follows obeys the monitor in every state. -/
theorem Obeys.bind {W : Monitor S σ} {p : Prog S α} {f : α → Prog S β} {m : σ} (hp : p.Obeys W m)
    (hf : ∀ a m', (f a).Obeys W m') : (p.bind f).Obeys W m := by
  induction p generalizing m with
  | pure a => exact hf a m
  | call o k ih => exact ⟨hp.1, fun r => ih r (hp.2 r)⟩

/-- From the state `m` of the monitor, the program makes allowed calls only, and ends with `Q`. -/
def ObeysTo (W : Monitor S σ) (Q : α → σ → Prop) : Prog S α → σ → Prop
  | .pure a, m => Q a m
  | .call o k, m => W.allows m o ∧ ∀ r, (k r).ObeysTo W Q (W.next o r m)

theorem ObeysTo.obeys {W : Monitor S σ} {Q : α → σ → Prop} {p : Prog S α} {m : σ}
    (h : p.ObeysTo W Q m) : p.Obeys W m := by
  induction p generalizing m with
  | pure a => trivial
  | call o k ih => exact ⟨h.1, fun r => ih r (h.2 r)⟩

theorem ObeysTo.mono {W : Monitor S σ} {P Q : α → σ → Prop} {p : Prog S α} {m : σ}
    (hp : p.ObeysTo W P m) (hQ : ∀ a m', P a m' → Q a m') : p.ObeysTo W Q m := by
  induction p generalizing m with
  | pure a => exact hQ a m hp
  | call o k ih => exact ⟨hp.1, fun r => ih r (hp.2 r)⟩

/-- One call, and what follows it. -/
theorem ObeysTo.op {W : Monitor S σ} {Q : α → σ → Prop} {o : S.Op} {f : S.Res o → Prog S α} {m : σ}
    (ho : W.allows m o) (hf : ∀ r, (f r).ObeysTo W Q (W.next o r m)) :
    (Prog.op o >>= f).ObeysTo W Q m :=
  ⟨ho, hf⟩

theorem ObeysTo.ite {W : Monitor S σ} {Q : α → σ → Prop} {c : Prop} [Decidable c] {p q : Prog S α}
    {m : σ} (hp : c → p.ObeysTo W Q m) (hq : ¬ c → q.ObeysTo W Q m) :
    (if c then p else q).ObeysTo W Q m := by
  split
  · next hc => exact hp hc
  · next hc => exact hq hc

/-- Sequencing: what follows starts where the first part ends. -/
theorem ObeysTo.bind {W : Monitor S σ} {P : α → σ → Prop} {Q : β → σ → Prop} {p : Prog S α}
    {f : α → Prog S β} {m : σ} (hp : p.ObeysTo W P m)
    (hf : ∀ a m', P a m' → (f a).ObeysTo W Q m') : (p >>= f).ObeysTo W Q m := by
  induction p generalizing m with
  | pure a => exact hf a m hp
  | call o k ih => exact ⟨hp.1, fun r => ih r (hp.2 r)⟩

/-- A program that obeys a monitor obeys one that the first simulates. -/
theorem ObeysTo.simulate {τ : Type} {W : Monitor S σ} {W' : Monitor S τ} {Q : α → σ → Prop}
    (R : σ → τ → Prop) (hallows : ∀ {m m' o}, W.allows m o → R m m' → W'.allows m' o)
    (hnext : ∀ {m m' o}, W.allows m o → R m m' → ∀ r, R (W.next o r m) (W'.next o r m'))
    {p : Prog S α} {m : σ} {m' : τ} (hp : p.ObeysTo W Q m) (hR : R m m') :
    p.ObeysTo W' (fun a m' => ∃ m, Q a m ∧ R m m') m' := by
  induction p generalizing m m' with
  | pure a => exact ⟨m, hp, hR⟩
  | call o k ih => exact ⟨hallows hp.1 hR, fun r => ih r (hp.2 r) (hnext hp.1 hR r)⟩

/-- A program over a larger signature obeys a monitor that treats its calls alike. -/
theorem Obeys.hoist {W : Monitor S σ} {W' : Monitor T σ} {ι : S.Op → T.Op}
    {f : ∀ o, T.Res (ι o) → S.Res o} (hallows : ∀ m o, W.allows m o → W'.allows m (ι o))
    (hnext : ∀ o r m, W'.next (ι o) r m = W.next o (f o r) m) {p : Prog S α} {m : σ}
    (hp : p.Obeys W m) : (p.hoist ι f).Obeys W' m := by
  induction p generalizing m with
  | pure a => trivial
  | call o k ih =>
    refine ⟨hallows m o hp.1, fun r => ?_⟩
    rw [hnext]
    exact ih _ (hp.2 _)

end Prog

namespace Threaded

variable {S : Sig} {M : Threaded S} {G : Guard M} {c₀ c : M.Conf}

/-- An assertion for each state of a monitor that the others keep and that every allowed call takes
along, among steps that the guard allows. -/
structure Follows {σ : Type} (W : Monitor S σ) (G : Guard M) (K : σ → M.State → Prop) : Prop where
  stable : ∀ {m}, Stable G (K m)
  call : ∀ {m o} ans {s}, W.allows m o → G.call o ans s → K m s →
    K (W.next o (M.perform o ans s).1 m) (M.perform o ans s).2

section
variable {σ : Type} {W : Monitor S σ} {K K' : σ → M.State → Prop}

theorem Follows.and (F : Follows W G K) (F' : Follows W G K') :
    Follows W G fun m s => K m s ∧ K' m s where
  stable := F.stable.and F'.stable
  call ans _ ho hg h := ⟨F.call ans ho hg h.1, F'.call ans ho hg h.2⟩

/-- What follows a monitor under a guard does so under one that allows less. -/
theorem Follows.guard {G' : Guard M} (F : Follows W G K)
    (hcall : ∀ o ans s, G'.call o ans s → G.call o ans s)
    (hother : ∀ x s, G'.other x s → G.other x s) : Follows W G' K where
  stable x s hg := F.stable x s (hother x s hg)
  call ans _ ho hg := F.call ans ho (hcall _ ans _ hg)

end

/-- The thread waits and the assertion of `last` holds, or it runs a program that obeys the monitor
from a state whose assertion holds, to `last`. -/
def Tracks {σ : Type} (W : Monitor S σ) (K : σ → M.State → Prop) (last : σ) (c : M.Conf) : Prop :=
  match c.running with
  | none => K last c.state
  | some p => ∃ m, p.ObeysTo W (fun _ m' => m' = last) m ∧ K m c.state

section
variable {σ : Type} {W : Monitor S σ} {K : σ → M.State → Prop} {last : σ}

theorem Tracks.exists (h : Tracks W K last c) : ∃ m, K m c.state := by
  obtain ⟨s, r⟩ := c
  cases r with
  | none => exact ⟨last, h⟩
  | some p =>
    obtain ⟨m, -, hK⟩ := h
    exact ⟨m, hK⟩

theorem Tracks.waiting (h : Tracks W K last c) (hnone : c.running = none) : K last c.state := by
  obtain ⟨s, r⟩ := c
  cases hnone
  exact h

theorem Tracks.of_waiting (hnone : c.running = none) (h : K last c.state) : Tracks W K last c := by
  obtain ⟨s, r⟩ := c
  cases hnone
  exact h

theorem Tracks.of_running {p : Prog S Unit} {m : σ} {s : M.State}
    (hp : p.ObeysTo W (fun _ m' => m' = last) m) (h : K m s) :
    Tracks W K last (⟨s, some p⟩ : M.Conf) :=
  ⟨m, hp, h⟩

theorem Tracks.resume (hfinish : ∀ s, K last s → K last (M.finish s)) {p : Prog S Unit} {m : σ}
    {s : M.State} (hp : p.ObeysTo W (fun _ m' => m' = last) m) (h : K m s) :
    Tracks W K last (Threaded.resume p s) := by
  cases p with
  | pure _ =>
    obtain rfl : m = last := hp
    exact hfinish s h
  | call o k => exact ⟨m, hp, h⟩

/-- **The rule for runs.** Where every program that is taken up obeys the monitor, and ends where
the next one may be taken up, an assertion that follows the monitor holds in every run. -/
theorem Follows.reach (F : Follows W G K)
    (hstart : ∀ s p s', G.start s → K last s → M.start s = some (p, s') →
      ∃ m, p.ObeysTo W (fun _ m' => m' = last) m ∧ K m s')
    (hfinish : ∀ s, K last s → K last (M.finish s)) (h₀ : Tracks W K last c₀) (h : Reach G c₀ c) :
    Tracks W K last c := by
  induction h with
  | refl => exact h₀
  | @step d _ l _ hl hs ih =>
    obtain ⟨s, r⟩ := d
    rcases step_cases hs with ⟨p, s', rfl, hr, hp, rfl⟩ | ⟨ans, o, k, rfl, hr, rfl⟩ | ⟨x, rfl, rfl⟩
    · cases hr
      obtain ⟨m, hobeys, hK⟩ := hstart s p s' hl ih hp
      exact .resume hfinish hobeys hK
    · cases hr
      obtain ⟨m, hobeys, hK⟩ := ih
      exact .resume hfinish (hobeys.2 _) (F.call ans hobeys.1 hl hK)
    · cases r with
      | none => exact F.stable x s hl ih
      | some p =>
        obtain ⟨m, hobeys, hK⟩ := ih
        exact ⟨m, hobeys, F.stable x s hl hK⟩

/-- The same for the run of one program, when no other is taken up. -/
theorem Follows.ended (F : Follows W G K) (hstart : ∀ s, ¬ G.start s)
    (hfinish : ∀ s, K last s → K last (M.finish s)) {p : Prog S Unit} {m : σ} {s : M.State}
    (hp : p.ObeysTo W (fun _ m' => m' = last) m) (h : K m s) (hc : Reach G ⟨s, some p⟩ c)
    (hnone : c.running = none) : K last c.state :=
  (F.reach (fun s _ _ hg => (hstart s hg).elim) hfinish (.of_running hp h) hc).waiting hnone

end

/-- **The monitor rule.** `watch` reads the monitor's state off the shared state, as long as `I`
holds: the others leave it alone, and the calls move it. -/
theorem obeys_reach {σ : Type} (W : Monitor S σ) (watch : M.State → σ) {I : M.State → Prop}
    (hI : ∀ d, Reach G c₀ d → I d.state) (hother : ∀ x s, watch (M.other x s) = watch s)
    (hperform : ∀ o ans s, I s →
      watch (M.perform o ans s).2 = W.next o (M.perform o ans s).1 (watch s))
    (hstart : ∀ s p s', M.start s = some (p, s') → p.Obeys W (watch s'))
    (hidle : c₀.running = none) (h : Reach G c₀ c) {p : Prog S Unit} (hp : c.running = some p) :
    p.Obeys W (watch c.state) := by
  have hresume {q : Prog S Unit} {s : M.State} (hq : q.Obeys W (watch s)) {p : Prog S Unit}
      (hp : (resume q s).running = some p) : p.Obeys W (watch (resume q s).state) := by
    cases q with
    | pure _ => cases hp
    | call o k =>
      cases hp
      exact hq
  induction h generalizing p with
  | refl =>
    rw [hidle] at hp
    cases hp
  | @step d _ _ hreach _ hs ih =>
    rcases step_cases hs with ⟨q, s', -, -, hq, rfl⟩ | ⟨ans, o, k, -, hd, rfl⟩ | ⟨x, -, rfl⟩
    · exact hresume (hstart _ _ _ hq) hp
    · refine hresume ?_ hp
      rw [hperform _ _ _ (hI d hreach)]
      exact (ih hd).2 _
    · show p.Obeys W (watch (M.other x d.state))
      rw [hother]
      exact ih hp

end Threaded

end Concentrator
