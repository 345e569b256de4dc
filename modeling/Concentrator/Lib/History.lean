import Concentrator.Lib.Monitor

/-!
# A thread with its history

A history keeps what a thread's state does not: when the thread took up its programs, and every call
they made, with the answer and the state it was made in. The history is written and never read, so
every run of the thread is one of the thread with its history (`Reach.withHistory`), and what is
proved with the help of the history holds without it. A monitor that starts afresh with each program
reads its state off the history (`obeys_since`).
-/

namespace Concentrator.Threaded

variable {S : Sig} {M : Threaded S}

variable (M) in
/-- An item of a history: the thread took up a program, or a program made a call. -/
inductive Noted where
  | start (state : M.State)
  | call (o : S.Op) (answer : S.Res o) (state : M.State)

variable (M) in
/-- The thread with its history, the latest item first. -/
abbrev withHistory : Threaded S where
  State := M.State × List (Noted M)
  Answer := M.Answer
  Act := M.Act
  perform o ans s :=
    ((M.perform o ans s.1).1,
      (M.perform o ans s.1).2, .call o (M.perform o ans s.1).1 s.1 :: s.2)
  other x s := (M.other x s.1, s.2)
  start s := (M.start s.1).map fun ps => (ps.1, ps.2, .start s.1 :: s.2)
  finish s := (M.finish s.1, s.2)

/-- A guard of the thread guards it with its history as well. -/
def Guard.withHistory (G : Guard M) : Guard M.withHistory where
  call o ans s := G.call o ans s.1
  other x s := G.other x s.1
  start s := G.start s.1

/-- A configuration with a history. -/
def Conf.withHistory (c : M.Conf) (history : List (Noted M)) : M.withHistory.Conf :=
  ⟨(c.state, history), c.running⟩

/-- A program resumes with a history as it does without. -/
theorem resume_withHistory (p : Prog S Unit) (s : M.State) (history : List (Noted M)) :
    resume p (s, history) = (resume p s).withHistory history := by
  cases p <;> rfl

/-- A step can be taken with any history, and leaves one. -/
theorem step_withHistory {l : M.Label} {c c' : M.Conf} (h : step l c = some c')
    (history : List (Noted M)) : ∃ (l' : M.withHistory.Label) (history' : List (Noted M)),
      (∀ G : Guard M, G.Allows l c → G.withHistory.Allows l' (c.withHistory history)) ∧
      step l' (c.withHistory history) = some (c'.withHistory history') := by
  obtain ⟨s, r⟩ := c
  rcases step_cases h with ⟨p, s', rfl, hr, hstart, rfl⟩ | ⟨ans, o, k, rfl, hr, rfl⟩ | ⟨x, rfl, rfl⟩
  · cases hr
    refine ⟨.start, .start s :: history, fun G hG => hG, ?_⟩
    rw [← resume_withHistory]
    show ((M.start s).map _).map _ = _
    rw [hstart]
    rfl
  · cases hr
    refine ⟨.call ans, .call o (M.perform o ans s).1 s :: history, fun G hG => hG, ?_⟩
    rw [← resume_withHistory]
    rfl
  · exact ⟨.other x, history, fun G hG => hG, rfl⟩

/-- **Every run has a history.** The induction is on the run. -/
theorem Reach.withHistory {G : Guard M} {c₀ c : M.Conf} (h : Reach G c₀ c)
    (history : List (Noted M)) :
    ∃ history', Reach G.withHistory (c₀.withHistory history) (c.withHistory history') := by
  induction h with
  | refl => exact ⟨history, .refl⟩
  | step _ hl hs ih =>
    obtain ⟨history₁, hreach⟩ := ih
    obtain ⟨l', history₂, hallows, hstep⟩ := step_withHistory hs history₁
    exact ⟨history₂, hreach.step (hallows _ hl) hstep⟩

/-- The state of a monitor that starts afresh with each program. -/
def since {σ : Type} (W : Monitor S σ) (m₀ : σ) : List (Noted M) → σ
  | [] | .start _ :: _ => m₀
  | .call o r _ :: history => W.next o r (since W m₀ history)

/-- **The monitor rule, program by program.** When every program a thread takes up obeys a monitor
from its initial state, the program at hand obeys it from where its calls so far have led. -/
theorem obeys_since {σ : Type} (W : Monitor S σ) (m₀ : σ) {G : Guard M.withHistory}
    {c₀ c : M.withHistory.Conf} (hstart : ∀ s p s', M.start s = some (p, s') → p.Obeys W m₀)
    (hidle : c₀.running = none) (h : Reach G c₀ c) {p : Prog S Unit} (hp : c.running = some p) :
    p.Obeys W (since W m₀ c.state.2) := by
  refine obeys_reach W (fun s : M.withHistory.State => since W m₀ s.2) (I := fun _ => True)
    (fun _ _ => trivial) (fun _ _ => rfl) (fun _ _ _ _ => rfl) (fun s p s' hs => ?_) hidle h hp
  obtain ⟨⟨q, s₁⟩, hq, heq⟩ := Option.map_eq_some_iff.1 hs
  cases heq
  exact hstart _ _ _ hq

/-- **The invariant rule, under a monitor.** What the others keep, and every call that the monitor
allows, holds of the state and what the monitor knows of the program at hand, in every run. -/
theorem since_kept {σ : Type} {W : Monitor S σ} {m₀ : σ} {J : M.State → σ → Prop}
    {G : Guard M.withHistory} {c₀ c : M.withHistory.Conf}
    (hobeys : ∀ s p s', M.start s = some (p, s') → p.Obeys W m₀)
    (hstart : ∀ s m p s', J s m → M.start s = some (p, s') → J s' m₀)
    (hcall : ∀ o ans s m, J s m → W.allows m o →
      J (M.perform o ans s).2 (W.next o (M.perform o ans s).1 m))
    (hother : ∀ x s m, J s m → J (M.other x s) m) (hfinish : ∀ s m, J s m → J (M.finish s) m)
    (hidle : c₀.running = none) (h₀ : J c₀.state.1 (since W m₀ c₀.state.2)) (h : Reach G c₀ c) :
    J c.state.1 (since W m₀ c.state.2) := by
  have hresume {q : Prog S Unit} {s : M.withHistory.State} (hs : J s.1 (since W m₀ s.2)) :
      J (resume q s).state.1 (since W m₀ (resume q s).state.2) := by
    cases q with
    | pure _ => exact hfinish _ _ hs
    | call o k => exact hs
  induction h with
  | refl => exact h₀
  | @step d _ _ hreach _ hs ih =>
    rcases step_cases hs with ⟨q, s', -, -, hq, rfl⟩ | ⟨ans, o, k, -, hd, rfl⟩ | ⟨x, -, rfl⟩
    · obtain ⟨⟨q₁, s₁⟩, hq₁, heq⟩ := Option.map_eq_some_iff.1 hq
      cases heq
      exact hresume (hstart _ _ _ _ ih hq₁)
    · exact hresume (hcall o ans _ _ ih (obeys_since W m₀ hobeys hidle hreach hd).1)
    · exact hother x _ _ ih

end Concentrator.Threaded
