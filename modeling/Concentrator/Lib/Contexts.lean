import Concentrator.Lib.Lts
import Concentrator.Lib.Prog
import Mathlib.Logic.Function.Basic

/-!
# Contexts that share a memory

Contexts, such as threads and interrupts, run methods over one memory. A method makes accesses to it
one at a time, and between any two of these the other contexts may make theirs: nothing is locked.

A proof about a method takes it alone. It says what each access may rely on and what holds at the
end (`Contexts.Ensures`), given a relation `R` that every access keeps, whoever makes it.
`Contexts.ensured` then holds it of each call of every run.
-/

namespace Concentrator

/-- Contexts `C` that share a memory: the methods of each, and the accesses they make. -/
structure Contexts (S : Sig) (C : Type) where
  Mem : Type
  Method : C → Type
  access : (x : S.Op) → Mem → S.Res x × Mem
  body : (c : C) → Method c → Prog S Unit

/-- An access with its answer. -/
abbrev Sig.Entry (S : Sig) : Type := (x : S.Op) × S.Res x

namespace Contexts

variable {S : Sig} {C : Type} (X : Contexts S C)

/-- A call that has not returned: the accesses it has made, the latest first, and what it has left
to run. -/
structure Call (c : C) where
  method : X.Method c
  trace : List S.Entry
  left : Prog S Unit

/-- The memory, and the call each context is in, if any. -/
structure Conf where
  mem : X.Mem
  running : (c : C) → Option (X.Call c)

/-- One step of a run: a context calls a method, makes its next access or returns. -/
inductive Label where
  | call (c : C) (method : X.Method c)
  | act (c : C)
  | ret (c : C)

variable {X}

/-- A call and its first `n` accesses, with nobody in between. -/
def Label.calls (c : C) (method : X.Method c) (n : Nat) : List X.Label :=
  .call c method :: List.replicate n (.act c)

/-- The access a context is about to make. -/
def Conf.next (s : X.Conf) (c : C) : Option S.Op :=
  match s.running c with
  | some ⟨_, _, .call x _⟩ => some x
  | _ => none

/-- The accesses of the call a context is in, the latest first. -/
def Conf.trace (s : X.Conf) (c : C) : List S.Entry :=
  match s.running c with
  | some call => call.trace
  | none => []

/-- A context is about to return. -/
def Conf.returns (s : X.Conf) (c : C) : Bool :=
  match s.running c with
  | some ⟨_, _, .pure _⟩ => true
  | _ => false

theorem Conf.trace_eq {s : X.Conf} {c : C} {call : X.Call c} (h : s.running c = some call) :
    s.trace c = call.trace := by
  rw [Conf.trace, h]

theorem Conf.trace_eq_nil {s : X.Conf} {c : C} (h : s.running c = none) : s.trace c = [] := by
  rw [Conf.trace, h]

/-- A context that is about to make an access is in a call. -/
theorem Conf.running_of_next {s : X.Conf} {c : C} {x : S.Op} (h : s.next c = some x) :
    ∃ method k, s.running c = some ⟨method, s.trace c, .call x k⟩ := by
  unfold Conf.next at h
  split at h
  · next method trace x' k hr =>
    cases h
    exact ⟨method, k, by rw [Conf.trace_eq hr, hr]⟩
  · cases h

variable [DecidableEq C]

/-- The context is in the call `call`, or in none. -/
def Conf.enter (s : X.Conf) (c : C) (call : Option (X.Call c)) : X.Conf :=
  { s with running := Function.update s.running c call }

@[simp] theorem Conf.enter_mem (s : X.Conf) (c : C) (call : Option (X.Call c)) :
    (s.enter c call).mem = s.mem := rfl

@[simp] theorem Conf.enter_running_self (s : X.Conf) (c : C) (call : Option (X.Call c)) :
    (s.enter c call).running c = call := Function.update_self ..

theorem Conf.enter_running_of_ne (s : X.Conf) {c d : C} (h : d ≠ c) (call : Option (X.Call c)) :
    (s.enter c call).running d = s.running d := Function.update_of_ne h ..

theorem Conf.enter_trace_of_ne (s : X.Conf) {c d : C} (h : d ≠ c) (call : Option (X.Call c)) :
    (s.enter c call).trace d = s.trace d := by
  unfold Conf.trace
  rw [Conf.enter_running_of_ne s h]

/-- One step, `none` where it does not apply: a context is in one call at a time. -/
def step : X.Label → X.Conf → Option X.Conf
  | .call c method, s =>
    match s.running c with
    | none => some (s.enter c (some ⟨method, [], X.body c method⟩))
    | some _ => none
  | .act c, s =>
    match s.running c with
    | some ⟨method, trace, .call x k⟩ =>
      some { s.enter c
          (some ⟨method, ⟨x, (X.access x s.mem).1⟩ :: trace, k (X.access x s.mem).1⟩) with
        mem := (X.access x s.mem).2 }
    | _ => none
  | .ret c, s =>
    match s.running c with
    | some ⟨_, _, .pure _⟩ => some (s.enter c none)
    | _ => none

variable (X) in
/-- The contexts, from a memory on. -/
abbrev lts (mem : X.Mem) : Lts where
  State := X.Conf
  Label := X.Label
  init s := s = ⟨mem, fun _ => none⟩
  step := step

/-- Everything a step can do. -/
theorem step_cases {l : X.Label} {s s' : X.Conf} (h : step l s = some s') :
    (∃ c method, l = .call c method ∧ s.running c = none ∧
      s' = s.enter c (some ⟨method, [], X.body c method⟩)) ∨
    (∃ c method trace x k, l = .act c ∧ s.running c = some ⟨method, trace, .call x k⟩ ∧
      s' = { s.enter c (some ⟨method, ⟨x, (X.access x s.mem).1⟩ :: trace,
          k (X.access x s.mem).1⟩) with
        mem := (X.access x s.mem).2 }) ∨
    (∃ c method trace u, l = .ret c ∧ s.running c = some ⟨method, trace, .pure u⟩ ∧
      s' = s.enter c none) := by
  cases l with
  | call c method =>
    simp only [step] at h
    split at h
    · next hr => exact .inl ⟨c, method, rfl, hr, (Option.some.inj h).symm⟩
    · cases h
  | act c =>
    simp only [step] at h
    split at h
    · next method trace x k hr =>
      exact .inr (.inl ⟨c, method, trace, x, k, rfl, hr, (Option.some.inj h).symm⟩)
    · cases h
  | ret c =>
    simp only [step] at h
    split at h
    · next method trace u hr =>
      exact .inr (.inr ⟨c, method, trace, u, rfl, hr, (Option.some.inj h).symm⟩)
    · cases h

/-- What a step does to the memory and the traces: a call begins or ends, or a context makes its
next access. -/
theorem step_trace {l : X.Label} {s s' : X.Conf} (h : step l s = some s') :
    (s'.mem = s.mem ∧ ∃ c, s'.trace c = [] ∧ (∀ d, d ≠ c → s'.trace d = s.trace d) ∧
      (s.running c = none ∨ ∃ method u, s.running c = some ⟨method, s.trace c, .pure u⟩)) ∨
    (∃ c x, l = .act c ∧ s.next c = some x ∧ s'.mem = (X.access x s.mem).2 ∧
      s'.trace c = ⟨x, (X.access x s.mem).1⟩ :: s.trace c ∧
      ∀ d, d ≠ c → s'.trace d = s.trace d) := by
  rcases step_cases h with ⟨c, method, -, hr, rfl⟩ | ⟨c, method, trace, x, k, hl, hr, rfl⟩ |
    ⟨c, method, trace, u, -, hr, rfl⟩
  · refine .inl ⟨rfl, c, ?_, fun d hd => s.enter_trace_of_ne hd _, .inl hr⟩
    exact Conf.trace_eq (s.enter_running_self c _)
  · refine .inr ⟨c, x, hl, by rw [Conf.next, hr], rfl, ?_, fun d hd => s.enter_trace_of_ne hd _⟩
    rw [Conf.trace_eq hr]
    exact Conf.trace_eq (s.enter_running_self c _)
  · refine .inl ⟨rfl, c, ?_, fun d hd => s.enter_trace_of_ne hd _, .inr ⟨method, u, ?_⟩⟩
    · exact Conf.trace_eq_nil (s.enter_running_self c none)
    · rw [Conf.trace_eq hr, hr]

/-! ## One method among others -/

/-- What is left of a method is safe, whatever the others do: before each access `P` allows it, and
at the end `Q` holds. The others keep `R`. -/
def Ensures (X : Contexts S C) (R : X.Mem → X.Mem → Prop)
    (P : S.Op → List S.Entry → X.Mem → Prop) {α : Type}
    (Q : α → List S.Entry → X.Mem → Prop) : Prog S α → List S.Entry → X.Mem → Prop
  | .pure a, trace, m => ∀ m', R m m' → Q a trace m'
  | .call x k, trace, m => ∀ m', R m m' → P x trace m' ∧
      Ensures X R P Q (k (X.access x m').1) (⟨x, (X.access x m').1⟩ :: trace) (X.access x m').2

section
variable {R : X.Mem → X.Mem → Prop} {P : S.Op → List S.Entry → X.Mem → Prop} {α β : Type}
  {trace : List S.Entry} {m : X.Mem}

omit [DecidableEq C] in
/-- What others do beforehand changes nothing. -/
theorem Ensures.after (htrans : ∀ a b c, R a b → R b c → R a c)
    {Q : α → List S.Entry → X.Mem → Prop} {p : Prog S α} {m' : X.Mem}
    (h : X.Ensures R P Q p trace m) (hm : R m m') : X.Ensures R P Q p trace m' := by
  cases p with
  | pure a => exact fun m₁ hm₁ => h m₁ (htrans _ _ _ hm hm₁)
  | call x k => exact fun m₁ hm₁ => h m₁ (htrans _ _ _ hm hm₁)

omit [DecidableEq C] in
theorem Ensures.mono {Q Q' : α → List S.Entry → X.Mem → Prop} {p : Prog S α}
    (h : X.Ensures R P Q p trace m) (hQ : ∀ a trace m, Q a trace m → Q' a trace m) :
    X.Ensures R P Q' p trace m := by
  induction p generalizing trace m with
  | pure a => exact fun m' hm' => hQ a trace m' (h m' hm')
  | call x k ih => exact fun m' hm' => ⟨(h m' hm').1, ih _ (h m' hm').2⟩

omit [DecidableEq C] in
/-- Sequencing: what follows starts where the first part ends. The induction is on the first
part. -/
theorem Ensures.bind {Q : α → List S.Entry → X.Mem → Prop}
    {Q' : β → List S.Entry → X.Mem → Prop} (hrefl : ∀ m, R m m) {p : Prog S α} {f : α → Prog S β}
    (hp : X.Ensures R P Q p trace m)
    (hf : ∀ a trace m, Q a trace m → X.Ensures R P Q' (f a) trace m) :
    X.Ensures R P Q' (p >>= f) trace m := by
  show X.Ensures R P Q' (p.bind f) trace m
  induction p generalizing trace m with
  | pure a => exact hf a trace m (hp m (hrefl m))
  | call x k ih => exact fun m' hm' => ⟨(hp m' hm').1, ih _ (hp m' hm').2⟩

end

/-- **The rule.** Every access keeps `R`, whoever makes it, and each method by itself is safe. Then
so is what is left of each call of every run. -/
theorem ensured {R : X.Mem → X.Mem → Prop} (hrefl : ∀ m, R m m)
    (htrans : ∀ a b c, R a b → R b c → R a c) (haccess : ∀ x m, R m (X.access x m).2)
    {P : C → S.Op → List S.Entry → X.Mem → Prop}
    {Q : (c : C) → X.Method c → List S.Entry → X.Mem → Prop}
    (hbody : ∀ c method m, X.Ensures R (P c) (fun _ => Q c method) (X.body c method) [] m)
    {mem : X.Mem} {s : X.Conf} (h : (X.lts mem).Reachable s) (c : C) (call : X.Call c)
    (hcall : s.running c = some call) :
    X.Ensures R (P c) (fun _ => Q c call.method) call.left call.trace s.mem := by
  refine h.invariant (I := fun s : X.Conf => ∀ c (call : X.Call c), s.running c = some call →
    X.Ensures R (P c) (fun _ => Q c call.method) call.left call.trace s.mem) ?_ ?_ c call hcall
  · rintro s rfl c call hcall
    cases hcall
  · intro l s s' ih hs d call hd
    rcases step_cases hs with ⟨c, method, -, -, rfl⟩ | ⟨c, method, trace, x, k, -, hr, rfl⟩ |
      ⟨c, method, trace, u, -, -, rfl⟩
    · by_cases hdc : d = c
      · subst hdc
        rw [Conf.enter_running_self] at hd
        cases hd
        exact hbody d method s.mem
      · rw [Conf.enter_running_of_ne s hdc] at hd
        exact ih d call hd
    · by_cases hdc : d = c
      · subst hdc
        rw [Conf.enter_running_self] at hd
        cases hd
        exact (ih d _ hr s.mem (hrefl _)).2
      · rw [Conf.enter_running_of_ne s hdc] at hd
        exact (ih d call hd).after htrans (haccess x s.mem)
    · by_cases hdc : d = c
      · subst hdc
        rw [Conf.enter_running_self] at hd
        cases hd
      · rw [Conf.enter_running_of_ne s hdc] at hd
        exact ih d call hd

end Contexts

end Concentrator
