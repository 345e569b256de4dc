import Mathlib.Logic.Relation
import Mathlib.Tactic.Common

/-!
# Programs that make calls, and threads that run them among others

A program (`Prog`) over a signature of calls is a finite tree: it returns, or it makes one call and
goes on with the answer. A thread runs such programs over a state that other parties change between
any two of its calls (`Threaded`). `wp` is the weakest precondition of a program under that
interference: a proof about a program picks, at each call, an assertion that the others keep
(`wp_call`), and `Threaded.invariant` turns the proofs about single programs into an invariant of
every run.
-/

namespace Concentrator

/-- A signature: the calls a program may make, and the type of the answer to each. -/
structure Sig where
  Op : Type
  Res : Op → Type

/-- A program that makes calls of the signature `S` and returns an `α`. -/
inductive Prog (S : Sig) (α : Type) : Type where
  | pure (a : α)
  | call (o : S.Op) (k : S.Res o → Prog S α)

namespace Prog

variable {S T : Sig} {α β : Type}

/-- Sequencing: the calls of `p`, then those of what its result selects. -/
def bind : Prog S α → (α → Prog S β) → Prog S β
  | .pure a, f => f a
  | .call o k, f => .call o fun r => (k r).bind f

instance : Monad (Prog S) where
  pure := .pure
  bind := .bind

/-- The program that makes one call and returns its answer. -/
def op (o : S.Op) : Prog S (S.Res o) := .call o .pure

/-- What a program returns where each call is answered in the same way whenever it is made. -/
def eval (answer : ∀ o, S.Res o) : Prog S α → α
  | .pure a => a
  | .call o k => (k (answer o)).eval answer

theorem eval_bind (answer : ∀ o, S.Res o) (p : Prog S α) (f : α → Prog S β) :
    (p.bind f).eval answer = (f (p.eval answer)).eval answer := by
  induction p with
  | pure a => rfl
  | call o k ih => exact ih (answer o)

@[simp] theorem eval_pure (answer : ∀ o, S.Res o) (a : α) :
    (Pure.pure a : Prog S α).eval answer = a := rfl

@[simp] theorem eval_then (answer : ∀ o, S.Res o) (p : Prog S α) (f : α → Prog S β) :
    (p >>= f).eval answer = (f (p.eval answer)).eval answer := eval_bind answer p f

@[simp] theorem eval_ite (answer : ∀ o, S.Res o) (c : Prop) [Decidable c] (p q : Prog S α) :
    (if c then p else q).eval answer = if c then p.eval answer else q.eval answer :=
  apply_ite _ _ _ _

/-- What a program that makes accesses returns and leaves behind when nobody else makes any. -/
def exec {M : Type} (access : (o : S.Op) → M → S.Res o × M) : Prog S α → M → α × M
  | .pure a, m => (a, m)
  | .call o k, m => (k (access o m).1).exec access (access o m).2

theorem exec_bind {M : Type} (access : (o : S.Op) → M → S.Res o × M) (p : Prog S α)
    (f : α → Prog S β) (m : M) :
    (p >>= f).exec access m = (f (p.exec access m).1).exec access (p.exec access m).2 := by
  show (p.bind f).exec access m = _
  induction p generalizing m with
  | pure a => rfl
  | call o k ih => exact ih _ _

/-- A program over `S` as one over a larger signature `T`: each call `o` becomes the call `ι o`,
whose answer is read back along `f`. -/
def hoist (ι : S.Op → T.Op) (f : ∀ o, T.Res (ι o) → S.Res o) : Prog S α → Prog T α
  | .pure a => .pure a
  | .call o k => .call (ι o) fun r => (k (f o r)).hoist ι f

end Prog

/-- A thread among others: what its calls do to the shared state (`perform`, where `Answer` is what
the environment answers to one call), what the others may do between two of its calls (`other`),
which program it takes up next (`start`, `none` when there is nothing to do), and what is noted when
a program has ended (`finish`). -/
structure Threaded (S : Sig) where
  State : Type
  Answer : Type
  Act : Type
  perform : (o : S.Op) → Answer → State → S.Res o × State
  other : Act → State → State
  start : State → Option (Prog S Unit × State)
  finish : State → State

namespace Threaded

variable {S : Sig} (M : Threaded S)

/-- The shared state and what the thread has left to run, `none` when it waits. -/
structure Conf where
  state : M.State
  running : Option (Prog S Unit)

/-- One step of a run: the thread takes up a program, or makes its next call, or another party
acts. -/
inductive Label where
  | start
  | call (ans : M.Answer)
  | other (x : M.Act)

variable {M}

/-- The configuration in which the thread has `p` left: it waits when `p` has ended. -/
def resume (p : Prog S Unit) (s : M.State) : M.Conf :=
  match p with
  | .pure _ => ⟨M.finish s, none⟩
  | p => ⟨s, some p⟩

/-- One step. `none` when the label does not apply: a start while a program runs or with nothing to
start, a call while none runs. -/
def step : M.Label → M.Conf → Option M.Conf
  | .start, ⟨s, none⟩ => (M.start s).map fun ps => resume ps.1 ps.2
  | .call ans, ⟨s, some (.call o k)⟩ =>
    some (resume (k (M.perform o ans s).1) (M.perform o ans s).2)
  | .other x, ⟨s, r⟩ => some ⟨M.other x s, r⟩
  | _, _ => none

/-- The configuration after a list of steps, `none` when one of them does not apply. -/
def run : List M.Label → M.Conf → Option M.Conf
  | [], c => some c
  | l :: ls, c => (step l c).bind (run ls)

/-- What a run may be restricted to: the calls with their answers, the acts of the others, and the
starts, at the states where they happen. -/
structure Guard (M : Threaded S) where
  call : (o : S.Op) → M.Answer → M.State → Prop
  other : M.Act → M.State → Prop
  start : M.State → Prop := fun _ => True

/-- The guard that allows everything. -/
def Guard.all : Guard M := ⟨fun _ _ _ => True, fun _ _ => True, fun _ => True⟩

/-- Whether a guard allows a step at a configuration. -/
def Guard.Allows (G : Guard M) : M.Label → M.Conf → Prop
  | .start, ⟨s, none⟩ => G.start s
  | .call ans, ⟨s, some (.call o _)⟩ => G.call o ans s
  | .other x, ⟨s, _⟩ => G.other x s
  | _, _ => True

/-- The configurations that runs from `c₀` reach when every step is one the guard allows. -/
inductive Reach (G : Guard M) (c₀ : M.Conf) : M.Conf → Prop where
  | refl : Reach G c₀ c₀
  | step {c c' : M.Conf} {l : M.Label} :
      Reach G c₀ c → G.Allows l c → M.step l c = some c' → Reach G c₀ c'

theorem Reach.trans {G : Guard M} {a b c : M.Conf} (hab : Reach G a b) (hbc : Reach G b c) :
    Reach G a c := by
  induction hbc with
  | refl => exact hab
  | step _ hl hs ih => exact ih.step hl hs

/-- A guard that allows more allows the runs. -/
theorem Reach.mono {G G' : Guard M} {c₀ c : M.Conf} (hG : ∀ l c, G.Allows l c → G'.Allows l c)
    (h : Reach G c₀ c) : Reach G' c₀ c := by
  induction h with
  | refl => exact .refl
  | step _ hl hs ih => exact ih.step (hG _ _ hl) hs

/-- A run may make its next call with any answer that the guard allows. -/
theorem Reach.call {G : Guard M} {o : S.Op} {k : S.Res o → Prog S Unit} {s : M.State} {c : M.Conf}
    (ans : M.Answer) (hg : G.call o ans s)
    (h : Reach G (resume (k (M.perform o ans s).1) (M.perform o ans s).2) c) :
    Reach G (resume (.call o k) s) c := by
  have hstep : Reach G (resume (.call o k) s) _ := Reach.refl.step (l := .call ans) hg rfl
  exact hstep.trans h

/-- A run given by labels that are always allowed reaches its last configuration. -/
theorem Reach.of_run_allowed {G : Guard M} {ls : List M.Label} {c c' : M.Conf}
    (hl : ∀ l ∈ ls, ∀ d, G.Allows l d) (h : run ls c = some c') : Reach G c c' := by
  induction ls generalizing c with
  | nil => cases h; exact .refl
  | cons l ls ih =>
    obtain ⟨d, hd, h⟩ := Option.bind_eq_some_iff.1 h
    exact (Reach.refl.step (hl l (.head _) c) hd).trans (ih (fun l' h' => hl l' (.tail _ h')) h)

theorem Guard.all_allows (l : M.Label) (c : M.Conf) : (Guard.all : Guard M).Allows l c := by
  unfold Guard.Allows Guard.all
  split <;> trivial

theorem Reach.of_run {ls : List M.Label} {c c' : M.Conf} (h : run ls c = some c') :
    Reach Guard.all c c' :=
  .of_run_allowed (fun l _ d => Guard.all_allows l d) h

/-- A run whose last configuration passes a test reaches a configuration that does. -/
theorem Reach.exists_of_run (ls : List M.Label) {c : M.Conf} (p : M.Conf → Bool)
    (h : (run ls c).any p = true) : ∃ c', Reach Guard.all c c' ∧ p c' = true := by
  cases hr : run ls c with
  | none =>
    rw [hr] at h
    cases h
  | some c' =>
    rw [hr] at h
    exact ⟨c', .of_run hr, h⟩

/-- The configuration after a list of steps that all pass a test, `none` when one of them does not
or does not apply. -/
def runWithin (allows : M.Label → M.Conf → Bool) : List M.Label → M.Conf → Option M.Conf
  | [], c => some c
  | l :: ls, c => if allows l c then (step l c).bind (runWithin allows ls) else none

/-- A run within a test that the guard passes, and whose last configuration passes another, reaches
a configuration that does. -/
theorem Reach.exists_of_runWithin {G : Guard M} {allows : M.Label → M.Conf → Bool}
    (hallows : ∀ l c, allows l c = true → G.Allows l c) (ls : List M.Label) {c : M.Conf}
    (p : M.Conf → Bool) (h : (runWithin allows ls c).any p = true) :
    ∃ c', Reach G c c' ∧ p c' = true := by
  induction ls generalizing c with
  | nil => exact ⟨c, .refl, h⟩
  | cons l ls ih =>
    unfold runWithin at h
    split at h
    · next hl =>
      cases hs : M.step l c with
      | none =>
        rw [hs] at h
        cases h
      | some d =>
        rw [hs] at h
        obtain ⟨c', hreach, hp⟩ := ih h
        exact ⟨c', (Reach.refl.step (hallows l c hl) hs).trans hreach, hp⟩
    · cases h

/-- Everything a step can do: the thread takes up a program, makes its next call, or another party
acts. -/
theorem step_cases {l : M.Label} {c c' : M.Conf} (h : step l c = some c') :
    (∃ p s', l = .start ∧ c.running = none ∧ M.start c.state = some (p, s') ∧
      c' = resume p s') ∨
    (∃ ans o k, l = .call ans ∧ c.running = some (.call o k) ∧
      c' = resume (k (M.perform o ans c.state).1) (M.perform o ans c.state).2) ∨
    (∃ x, l = .other x ∧ c' = ⟨M.other x c.state, c.running⟩) := by
  obtain ⟨s, r⟩ := c
  cases l with
  | start =>
    cases r with
    | none =>
      obtain ⟨⟨p, s'⟩, hp, rfl⟩ := Option.map_eq_some_iff.1 h
      exact .inl ⟨p, s', rfl, rfl, hp, rfl⟩
    | some p => cases h
  | call ans =>
    match r, h with
    | some (.call o k), h => exact .inr (.inl ⟨ans, o, k, rfl, rfl, by cases h; rfl⟩)
  | other x => exact .inr (.inr ⟨x, rfl, by cases h; rfl⟩)

/-! ## Weakest preconditions under interference -/

/-- What the others may do, in any number of acts that the guard allows. -/
def Rely (G : Guard M) : M.State → M.State → Prop :=
  Relation.ReflTransGen fun s s' => ∃ x, G.other x s ∧ s' = M.other x s

/-- An assertion the others keep. -/
def Stable (G : Guard M) (P : M.State → Prop) : Prop :=
  ∀ x s, G.other x s → P s → P (M.other x s)

theorem Stable.rely {G : Guard M} {P : M.State → Prop} (h : Stable G P) {s s' : M.State}
    (hs : Rely G s s') (hP : P s) : P s' := by
  induction hs with
  | refl => exact hP
  | tail _ hx ih =>
    obtain ⟨x, hg, rfl⟩ := hx
    exact h x _ hg ih

theorem Stable.and {G : Guard M} {P Q : M.State → Prop} (hP : Stable G P) (hQ : Stable G Q) :
    Stable G fun s => P s ∧ Q s :=
  fun x s hg h => ⟨hP x s hg h.1, hQ x s hg h.2⟩

/-- The weakest precondition of a program among the others: from here, whatever they do before each
call and whatever the calls answer, the state satisfies `I` after each call, and `Q` when the
program returns. -/
def wp (G : Guard M) (I : M.State → Prop) {α : Type} :
    Prog S α → (α → M.State → Prop) → M.State → Prop
  | .pure a, Q, s => Q a s
  | .call o k, Q, s => ∀ s', Rely G s s' → ∀ ans, G.call o ans s' →
      I (M.perform o ans s').2 ∧ wp G I (k (M.perform o ans s').1) Q (M.perform o ans s').2

section
variable {G : Guard M} {I : M.State → Prop} {α β : Type}

@[simp] theorem wp_pure {a : α} {Q : α → M.State → Prop} {s : M.State} :
    wp G I (.pure a) Q s ↔ Q a s := Iff.rfl

/-- A call, proved at an assertion that holds here and that the others keep. -/
theorem wp_call {o : S.Op} {k : S.Res o → Prog S α} {Q : α → M.State → Prop} {s : M.State}
    (P : M.State → Prop) (hP : P s) (hst : Stable G P)
    (h : ∀ s', P s' → ∀ ans, G.call o ans s' → I (M.perform o ans s').2 ∧
      wp G I (k (M.perform o ans s').1) Q (M.perform o ans s').2) :
    wp G I (.call o k) Q s :=
  fun s' hs ans hg => h s' (hst.rely hs hP) ans hg

theorem wp_mono {p : Prog S α} {Q Q' : α → M.State → Prop} (hQ : ∀ a s, Q a s → Q' a s)
    {s : M.State} (h : wp G I p Q s) : wp G I p Q' s := by
  induction p generalizing s with
  | pure a => exact hQ _ _ h
  | call o k ih => exact fun s' hs ans hg => ⟨(h s' hs ans hg).1, ih _ (h s' hs ans hg).2⟩

/-- What the others keep and every call keeps, a program keeps: the induction is on the program. -/
theorem wp_kept {P : M.State → Prop} (hst : Stable G P)
    (hcall : ∀ o ans s, G.call o ans s → P s → P (M.perform o ans s).2) (p : Prog S α)
    {s : M.State} (h : P s) : wp G P p (fun _ => P) s := by
  induction p generalizing s with
  | pure a => exact h
  | call o k ih =>
    refine wp_call P h hst fun s' hs' ans hg => ?_
    have hnext := hcall o ans s' hg hs'
    exact ⟨hnext, ih _ hnext⟩

/-- Sequencing: the first program establishes what the second one starts from. -/
theorem wp_bind {p : Prog S α} {f : α → Prog S β} {Q : β → M.State → Prop} {s : M.State} :
    wp G I (p.bind f) Q s ↔ wp G I p (fun a => wp G I (f a) Q) s := by
  induction p generalizing s with
  | pure a => rfl
  | call o k ih =>
    constructor
    · exact fun h s' hs ans hg => ⟨(h s' hs ans hg).1, ih _ |>.1 (h s' hs ans hg).2⟩
    · exact fun h s' hs ans hg => ⟨(h s' hs ans hg).1, ih _ |>.2 (h s' hs ans hg).2⟩

/-- The precondition of a program that still has a call to make is one the others keep. -/
theorem wp_rely {o : S.Op} {k : S.Res o → Prog S α} {Q : α → M.State → Prop} {s s' : M.State}
    (hs : Rely G s s') (h : wp G I (.call o k) Q s) : wp G I (.call o k) Q s' :=
  fun s'' hs' => h s'' (hs.trans hs')

end

/-! ## Runs -/

/-- What a run keeps: `I` always, `J` while the thread waits, and while it runs a program the
program's precondition for ending in `J`. -/
def Inv (G : Guard M) (I J : M.State → Prop) (c : M.Conf) : Prop :=
  I c.state ∧
    match c.running with
    | none => J c.state
    | some p =>
      (∃ o k, p = .call o k) ∧ wp G I p (fun _ s => J (M.finish s) ∧ I (M.finish s)) c.state

section
variable {G : Guard M} {I J : M.State → Prop}

/-- A thread that resumes where the rest of its program is safe keeps the invariant. -/
theorem Inv.resume {p : Prog S Unit} {s : M.State} (hI : I s)
    (h : wp G I p (fun _ s => J (M.finish s) ∧ I (M.finish s)) s) : Inv G I J (resume p s) := by
  cases p with
  | pure _ => exact ⟨h.2, h.1⟩
  | call o k => exact ⟨hI, ⟨o, k, rfl⟩, h⟩

/-- One step keeps the invariant. -/
theorem Inv.step (hI : Stable G I) (hJ : Stable G J)
    (hstart : ∀ s p s', G.start s → J s → I s → M.start s = some (p, s') →
      I s' ∧ wp G I p (fun _ s => J (M.finish s) ∧ I (M.finish s)) s')
    {l : M.Label} {c c' : M.Conf} (hl : G.Allows l c) (hs : M.step l c = some c')
    (h : Inv G I J c) : Inv G I J c' := by
  obtain ⟨s, r⟩ := c
  rcases step_cases hs with ⟨p, s', rfl, hr, hp, rfl⟩ | ⟨ans, o, k, rfl, hr, rfl⟩ | ⟨x, rfl, rfl⟩
  · cases hr
    obtain ⟨hI', hw⟩ := hstart _ _ _ hl h.2 h.1 hp
    exact .resume hI' hw
  · cases hr
    obtain ⟨hI', hw⟩ := h.2.2 s .refl ans hl
    exact .resume hI' hw
  · refine ⟨hI x s hl h.1, ?_⟩
    cases r with
    | none => exact hJ x s hl h.2
    | some p =>
      obtain ⟨⟨o, k, rfl⟩, hw⟩ := h.2
      exact ⟨⟨o, k, rfl⟩, wp_rely (.single ⟨x, hl, rfl⟩) hw⟩

/-- **The invariant rule.** Where the others keep `I` and `J`, and every program the thread takes up
from `J` is safe and ends in `J`, every run keeps the invariant. -/
theorem invariant (hI : Stable G I) (hJ : Stable G J)
    (hstart : ∀ s p s', G.start s → J s → I s → M.start s = some (p, s') →
      I s' ∧ wp G I p (fun _ s => J (M.finish s) ∧ I (M.finish s)) s')
    {c₀ c : M.Conf} (h₀ : Inv G I J c₀) (h : Reach G c₀ c) : Inv G I J c := by
  induction h with
  | refl => exact h₀
  | step _ hl hs ih => exact ih.step hI hJ hstart hl hs

/-- What every step keeps holds in every run from a thread that waits. -/
theorem Reach.kept (hother : Stable G I)
    (hcall : ∀ o ans s, G.call o ans s → I s → I (M.perform o ans s).2)
    (hstart : ∀ s p s', I s → M.start s = some (p, s') → I s')
    (hfinish : ∀ s, I s → I (M.finish s)) {c₀ c : M.Conf} (hidle : c₀.running = none)
    (h₀ : I c₀.state) (h : Reach G c₀ c) : I c.state := by
  have hinv₀ : Inv G I I c₀ := by
    refine ⟨h₀, ?_⟩
    rw [hidle]
    exact h₀
  refine (invariant hother hother (fun s p s' _ hJ _ hs => ?_) hinv₀ h).1
  have hs' := hstart s p s' hJ hs
  exact ⟨hs', wp_mono (fun _ s h => ⟨hfinish s h, hfinish s h⟩) (wp_kept hother hcall p hs')⟩

end

/-- A program can be run to its end where some answer is always allowed: the induction is on the
program. -/
theorem finishes {G : Guard M} (hcall : ∀ o s, ∃ ans, G.call o ans s) (p : Prog S Unit)
    (s : M.State) : ∃ c, Reach G (resume p s) c ∧ c.running = none := by
  induction p generalizing s with
  | pure a => exact ⟨_, .refl, rfl⟩
  | call o k ih =>
    obtain ⟨ans, hans⟩ := hcall o s
    obtain ⟨c, hc, hnone⟩ := ih (M.perform o ans s).1 (M.perform o ans s).2
    exact ⟨c, .call ans hans hc, hnone⟩

end Threaded

end Concentrator
