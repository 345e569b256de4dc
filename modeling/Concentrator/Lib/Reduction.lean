import Concentrator.Lib.Monitor

/-!
# Reduction

An act of the others moves behind a call when it does nothing, or when it does after the call what
it does before, and the call answers the same (`Moves`). Where every act moves behind every call
that a program can still make, a run of the program among the others is a run of the program alone
with all their acts behind it (`Reach.reduces`): what the program does alone is what it does.

A monitor says which calls are still to come, so that an act need not move behind all of them.
-/

namespace Concentrator.Threaded

variable {S : Sig} {M : Threaded S}

/-- The thread takes up no further program, and the others do some acts only. -/
def Guard.only (own : M.Act → Prop) : Guard M where
  call _ _ _ := True
  other x _ := own x
  start _ := False

/-- The act moves behind the call. -/
def Moves (x : M.Act) (o : S.Op) (s : M.State) : Prop :=
  M.other x s = s ∨ ∀ ans, M.perform o ans (M.other x s) =
    ((M.perform o ans s).1, M.other x (M.perform o ans s).2)

section
variable {σ : Type} {W : Monitor S σ} {alone among : M.State → σ → Prop} {own : M.Act → Prop}

/-- All the acts so far move behind the next call. The induction is on the acts. -/
theorem Rely.moves (hother : ∀ x s m, own x → among s m → among (M.other x s) m)
    (hmoves : ∀ x o s m, own x → among s m → W.allows m o → Moves x o s) {s s' : M.State}
    (hs : Rely (.only own) s s') {m : σ} (h : among s m) {o : S.Op} (ho : W.allows m o)
    (ans : M.Answer) : among s' m ∧ (M.perform o ans s').1 = (M.perform o ans s).1 ∧
      Rely (.only own) (M.perform o ans s).2 (M.perform o ans s').2 := by
  induction hs with
  | refl => exact ⟨h, rfl, .refl⟩
  | @tail s₁ s₂ _ hx ih =>
    obtain ⟨x, hown, rfl⟩ := hx
    obtain ⟨h₁, hanswer, hrely⟩ := ih
    refine ⟨hother x s₁ m hown h₁, ?_⟩
    rcases hmoves x o s₁ m hown h₁ ho with hsame | hmove
    · rw [hsame]
      exact ⟨hanswer, hrely⟩
    · rw [hmove ans]
      exact ⟨hanswer, hrely.tail ⟨x, hown, rfl⟩⟩

/-- **The reduction rule.** `alone` is kept by the calls of the program, and `among`, which follows
from it, by the others. The induction is on the run: the acts are kept behind the calls. -/
theorem Reach.reduces (hfinish : ∀ s, M.finish s = s)
    (hcall : ∀ o ans s m, alone s m → W.allows m o →
      alone (M.perform o ans s).2 (W.next o (M.perform o ans s).1 m))
    (hamong : ∀ s m, alone s m → among s m)
    (hother : ∀ x s m, own x → among s m → among (M.other x s) m)
    (hmoves : ∀ x o s m, own x → among s m → W.allows m o → Moves x o s)
    {p : Prog S Unit} {Q : Unit → σ → Prop} {s : M.State} {m : σ} (hp : p.ObeysTo W Q m)
    (hs : alone s m) {c : M.Conf} (h : Reach (.only own) (resume p s) c) :
    ∃ s₁ m₁, alone s₁ m₁ ∧ Rely (.only own) s₁ c.state ∧ (c.running = none → Q () m₁) ∧
      ∀ q, c.running = some q → q.ObeysTo W Q m₁ := by
  have hresume {q : Prog S Unit} {m₁ : σ} {s₁ s₂ : M.State} (hq : q.ObeysTo W Q m₁)
      (hs₁ : alone s₁ m₁) (hs₂ : Rely (.only own) s₁ s₂) :
      ∃ s₁ m₁, alone s₁ m₁ ∧ Rely (.only own) s₁ (resume q s₂).state ∧
        ((resume q s₂).running = none → Q () m₁) ∧
        ∀ q', (resume q s₂).running = some q' → q'.ObeysTo W Q m₁ := by
    cases q with
    | pure _ =>
      refine ⟨s₁, m₁, hs₁, ?_, fun _ => hq, nofun⟩
      show Rely (.only own) s₁ (M.finish s₂)
      rwa [hfinish]
    | call o k => exact ⟨s₁, m₁, hs₁, hs₂, nofun, fun q' hq' => Option.some.inj hq' ▸ hq⟩
  induction h with
  | refl => exact hresume hp hs .refl
  | @step c₁ _ _ _ hl hstep ih =>
    obtain ⟨s₁, m₁, hs₁, hrely, hdone, hobeys⟩ := ih
    rcases step_cases hstep with ⟨q, s₂, rfl, hnone, -, -⟩ | ⟨ans, o, k, -, hc, rfl⟩ | ⟨x, rfl, rfl⟩
    · obtain ⟨s₂, r⟩ := c₁
      cases hnone
      exact hl.elim
    · have hq := hobeys _ hc
      obtain ⟨-, hanswer, hafter⟩ := hrely.moves hother hmoves (hamong s₁ m₁ hs₁) hq.1 ans
      rw [hanswer]
      exact hresume (hq.2 _) (hcall o ans s₁ m₁ hs₁ hq.1) hafter
    · exact ⟨s₁, m₁, hs₁, hrely.tail ⟨x, hl, rfl⟩, hdone, hobeys⟩

end

end Concentrator.Threaded
