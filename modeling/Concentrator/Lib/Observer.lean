import Concentrator.Lib.Prog

/-!
# What an observer sees of a thread

An observer looks at a part of the shared state. Some acts of the others are inputs to that part,
and it moves as a function of the input; every other step, the thread's own calls included, leaves
it alone. So what the observer sees after a run depends on the inputs of the run and on nothing else
(`Observer.view_run`), and two runs with the same inputs look the same, even of different threads
(`Observer.agree`).
-/

namespace Concentrator.Threaded

variable {S : Sig} {M : Threaded S} {ι V : Type} {next : V → ι → V} {I : M.State → Prop}

/-- An observer, as long as `I` holds: an input `i` moves its view by `next`. -/
structure Observer (M : Threaded S) (I : M.State → Prop) (next : V → ι → V) where
  view : M.State → V
  input : M.Act → Option ι
  other : ∀ x s, I s → view (M.other x s) = (input x).elim (view s) (next (view s))
  start : ∀ s p s', M.start s = some (p, s') → view s' = view s
  perform : ∀ o ans s, view (M.perform o ans s).2 = view s
  finish : ∀ s, view (M.finish s) = view s

namespace Observer

variable (O : Observer M I next)

/-- The input that a step brings, if it brings one. -/
def labelInput : M.Label → Option ι
  | .other x => O.input x
  | _ => none

/-- The inputs that a run brings. -/
def inputs (ls : List M.Label) : List ι := ls.filterMap O.labelInput

theorem view_resume (p : Prog S Unit) (s : M.State) : O.view (resume p s).state = O.view s := by
  cases p with
  | pure _ => exact O.finish s
  | call _ _ => rfl

/-- One step moves the view by its input. -/
theorem view_step {l : M.Label} {c c' : M.Conf} (hI : I c.state) (hs : step l c = some c') :
    O.view c'.state = (O.labelInput l).elim (O.view c.state) (next (O.view c.state)) := by
  rcases step_cases hs with ⟨p, s', rfl, -, hp, rfl⟩ | ⟨ans, o, k, rfl, -, rfl⟩ | ⟨x, rfl, rfl⟩
  · exact (O.view_resume _ _).trans (O.start _ _ _ hp)
  · exact (O.view_resume _ _).trans (O.perform _ _ _)
  · exact O.other x c.state hI

/-- **The view of a run.** It is what the inputs make of the first view: the induction is on the
labels. -/
theorem view_run {G : Guard M} {ls : List M.Label} {c c' : M.Conf}
    (hI : ∀ d, Reach G c d → I d.state) (hl : ∀ l ∈ ls, ∀ d, G.Allows l d)
    (h : run ls c = some c') : O.view c'.state = (O.inputs ls).foldl next (O.view c.state) := by
  induction ls generalizing c with
  | nil =>
    cases h
    rfl
  | cons l ls ih =>
    obtain ⟨d, hd, h⟩ := Option.bind_eq_some_iff.1 h
    have hreach : Reach G c d := Reach.refl.step (hl l (.head _) c) hd
    have hrest := ih (fun e he => hI e (hreach.trans he)) (fun l' h' => hl l' (.tail _ h')) h
    rw [hrest, O.view_step (hI c .refl) hd, inputs, inputs, List.filterMap_cons]
    cases O.labelInput l <;> rfl

/-- Runs that bring the same inputs to the same view look the same. -/
theorem agree {S' : Sig} {M' : Threaded S'} {I' : M'.State → Prop} (O' : Observer M' I' next)
    {G : Guard M} {G' : Guard M'} {ls : List M.Label} {ls' : List M'.Label} {c₀ c : M.Conf}
    {c₀' c' : M'.Conf} (hI : ∀ d, Reach G c₀ d → I d.state)
    (hI' : ∀ d, Reach G' c₀' d → I' d.state) (hl : ∀ l ∈ ls, ∀ d, G.Allows l d)
    (hl' : ∀ l ∈ ls', ∀ d, G'.Allows l d) (h : run ls c₀ = some c) (h' : run ls' c₀' = some c')
    (hview : O.view c₀.state = O'.view c₀'.state) (hinputs : O.inputs ls = O'.inputs ls') :
    O.view c.state = O'.view c'.state := by
  rw [O.view_run hI hl h, O'.view_run hI' hl' h', hview, hinputs]

end Observer

end Concentrator.Threaded
