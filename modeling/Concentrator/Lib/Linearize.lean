import Concentrator.Lib.Lts
import Concentrator.Lib.Prog
import Mathlib.Data.Set.Basic
import Mathlib.Order.Defs.PartialOrder

/-!
# Objects that threads share, and the rule for linearizability

Threads call the methods of an object in shared memory (`Shared`). A method takes and releases the
object's lock and makes accesses to the memory, one at a time; between any two of these the other
threads may take theirs, and time may pass. An atomic object (`Atomic`) carries out each call at one
instant between its start and its return. The shared object is linearizable when the calls and
returns of every run of it are those of a run of the atomic one, at the same times.

The rule (`View.Sound.runs_of_reachable`) asks for each method by itself that it conforms
(`Conforms`): the calls of the other threads do not occur in it. It keeps the set of states that the
atomic object may be in: a call may take effect before all of its effect is settled, as long as the
set is narrowed later.
-/

namespace Concentrator

/-- What a method does next: it takes the lock, releases it, reads the clock or makes an access. -/
inductive LockOp (S : Sig) where
  | lock
  | unlock
  | clock
  | access (x : S.Op)

/-- The calls of a method that makes the accesses `S`. -/
abbrev Sig.locking (S : Sig) (Time : Type) : Sig where
  Op := LockOp S
  Res
    | .lock | .unlock => Unit
    | .clock => Time
    | .access x => S.Res x

/-- An object in shared memory, with methods `Op` that return a `Res`. -/
structure Shared (S : Sig) (Op Res Time : Type) where
  Mem : Type
  init : Mem
  access : (x : S.Op) → Mem → S.Res x × Mem
  body : Op → Prog (S.locking Time) Res

/-- An object that carries out a call at one instant: `step o called now r` says what the operation
`o`, called at the time `called` and carried out at `now`, does when it returns `r`. -/
structure Atomic (Op Res Time : Type) where
  State : Type
  init : State
  step : Op → (called now : Time) → Res → State → State → Prop

/-- A call or a return, with the thread and the time. -/
inductive Event (Tid Op Res Time : Type) where
  | call (t : Tid) (o : Op) (now : Time)
  | ret (t : Tid) (r : Res) (now : Time)
  deriving DecidableEq

/-- A call that has not returned: `result` is what it will return, once it has taken effect. -/
structure Pending (Op Res Time : Type) where
  op : Op
  called : Time
  result : Option Res

variable {S : Sig} {Op Res Time Tid : Type}

/-- The runs of an atomic object: the time, the state, the calls that have not returned and the
history, the latest event first. -/
inductive Atomic.Runs [LE Time] [DecidableEq Tid] (A : Atomic Op Res Time) :
    Time → A.State → (Tid → Option (Pending Op Res Time)) → List (Event Tid Op Res Time) →
      Prop where
  | init (now : Time) : Runs A now A.init (fun _ => none) []
  | pass {now now' a p h} : Runs A now a p h → now ≤ now' → Runs A now' a p h
  | call {now a p h t} (o : Op) : Runs A now a p h → p t = none →
      Runs A now a (Function.update p t (some ⟨o, now, none⟩)) (.call t o now :: h)
  | effect {now a a' p h t o called r} : Runs A now a p h → p t = some ⟨o, called, none⟩ →
      A.step o called now r a a' →
      Runs A now a' (Function.update p t (some ⟨o, called, some r⟩)) h
  | ret {now a p h t o called r} : Runs A now a p h → p t = some ⟨o, called, some r⟩ →
      Runs A now a (Function.update p t none) (.ret t r now :: h)

namespace Shared

/-- An access of the object for each of the accesses `T`. -/
def via {T : Sig} (O : Shared S Op Res Time) (ι : T.Op → S.Op) (g : ∀ x, S.Res (ι x) → T.Res x)
    (x : T.Op) (m : O.Mem) : T.Res x × O.Mem :=
  (g x (O.access (ι x) m).1, (O.access (ι x) m).2)

/-- The time, the memory, who holds the lock, what each thread has left to run, and the history. -/
structure Conf (O : Shared S Op Res Time) (Tid : Type) where
  now : Time
  mem : O.Mem
  owner : Option Tid
  running : Tid → Option (Prog (S.locking Time) Res)
  history : List (Event Tid Op Res Time)

/-- One step of a run: a thread calls a method, takes the next step of it or returns, or time
passes. -/
inductive Label (Tid Op Time : Type) where
  | call (t : Tid) (o : Op)
  | act (t : Tid)
  | ret (t : Tid)
  | pass (now : Time)

variable {O : Shared S Op Res Time}

/-- The thread has `q` left to run. -/
def Conf.resume [DecidableEq Tid] (c : O.Conf Tid) (t : Tid) (q : Prog (S.locking Time) Res) :
    O.Conf Tid :=
  { c with running := Function.update c.running t (some q) }

theorem Conf.resume_self [DecidableEq Tid] (c : O.Conf Tid) (t : Tid)
    (q : Prog (S.locking Time) Res) :
    (c.resume t q).running t = some q :=
  Function.update_self ..

theorem Conf.resume_of_ne [DecidableEq Tid] (c : O.Conf Tid) {t u : Tid} (h : u ≠ t)
    (q : Prog (S.locking Time) Res) : (c.resume t q).running u = c.running u :=
  Function.update_of_ne h ..

variable [LE Time] [DecidableLE Time] [DecidableEq Tid]

/-- One step. A thread that wants the lock waits while it is held. -/
def step : Label Tid Op Time → O.Conf Tid → Option (O.Conf Tid)
  | .call t o, c =>
    match c.running t with
    | none => some { c.resume t (O.body o) with history := .call t o c.now :: c.history }
    | some _ => none
  | .act t, c =>
    match c.running t with
    | some (.call .lock k) =>
      if c.owner = none then some { c.resume t (k ()) with owner := some t } else none
    | some (.call .unlock k) =>
      if c.owner = some t then some { c.resume t (k ()) with owner := none } else none
    | some (.call .clock k) => some (c.resume t (k c.now))
    | some (.call (.access x) k) =>
      some { c.resume t (k (O.access x c.mem).1) with mem := (O.access x c.mem).2 }
    | _ => none
  | .ret t, c =>
    match c.running t with
    | some (.pure r) =>
      some { c with
        running := Function.update c.running t none
        history := .ret t r c.now :: c.history }
    | _ => none
  | .pass now, c => if c.now ≤ now then some { c with now := now } else none

variable (O Tid) in
/-- The threads that share the object. -/
abbrev lts : Lts where
  State := O.Conf Tid
  Label := Label Tid Op Time
  init c := ∃ now, c = ⟨now, O.init, none, fun _ => none, []⟩
  step := step

/-- Everything a step can do. -/
theorem step_cases {l : Label Tid Op Time} {c c' : O.Conf Tid} (h : step l c = some c') :
    (∃ t o, c.running t = none ∧
      c' = { c.resume t (O.body o) with history := .call t o c.now :: c.history }) ∨
    (∃ t k, c.running t = some (.call .lock k) ∧ c.owner = none ∧
      c' = { c.resume t (k ()) with owner := some t }) ∨
    (∃ t k, c.running t = some (.call .unlock k) ∧ c.owner = some t ∧
      c' = { c.resume t (k ()) with owner := none }) ∨
    (∃ t k, c.running t = some (.call .clock k) ∧ c' = c.resume t (k c.now)) ∨
    (∃ t x k, c.running t = some (.call (.access x) k) ∧
      c' = { c.resume t (k (O.access x c.mem).1) with mem := (O.access x c.mem).2 }) ∨
    (∃ t r, c.running t = some (.pure r) ∧
      c' = { c with
        running := Function.update c.running t none
        history := .ret t r c.now :: c.history }) ∨
    (∃ now, c.now ≤ now ∧ c' = { c with now := now }) := by
  cases l with
  | call t o =>
    simp only [step] at h
    split at h
    · next hr => exact .inl ⟨t, o, hr, (Option.some.inj h).symm⟩
    · cases h
  | act t =>
    simp only [step] at h
    split at h
    · next k hr =>
      split at h
      · next ho => exact .inr (.inl ⟨t, k, hr, ho, (Option.some.inj h).symm⟩)
      · cases h
    · next k hr =>
      split at h
      · next ho => exact .inr (.inr (.inl ⟨t, k, hr, ho, (Option.some.inj h).symm⟩))
      · cases h
    · next k hr => exact .inr (.inr (.inr (.inl ⟨t, k, hr, (Option.some.inj h).symm⟩)))
    · next x k hr => exact .inr (.inr (.inr (.inr (.inl ⟨t, x, k, hr, (Option.some.inj h).symm⟩))))
    · cases h
  | ret t =>
    simp only [step] at h
    split at h
    · next r hr =>
      exact .inr (.inr (.inr (.inr (.inr (.inl ⟨t, r, hr, (Option.some.inj h).symm⟩)))))
    · cases h
  | pass now =>
    simp only [step] at h
    split at h
    · next hle => exact .inr (.inr (.inr (.inr (.inr (.inr ⟨now, hle, (Option.some.inj h).symm⟩)))))
    · cases h

end Shared

/-! ## Methods that conform -/

/-- What a thread that runs `o`, called at the time `called`, may do at the time `now` to the states
the atomic object may be in, and to what the call will return: it narrows the states, or the call
takes effect. -/
inductive Atomic.Moves (A : Atomic Op Res Time) (o : Op) (called now : Time) :
    Set A.State → Option Res → Set A.State → Option Res → Prop where
  | narrow {P P' d} : P'.Nonempty → P' ⊆ P → Moves A o called now P d P' d
  | effect {P P' r} : P'.Nonempty → (∀ a' ∈ P', ∃ a ∈ P, A.step o called now r a a') →
      Moves A o called now P none P' (some r)

theorem Atomic.Moves.nonempty {A : Atomic Op Res Time} {o : Op} {called now : Time}
    {P P' : Set A.State} {d d' : Option Res} (h : A.Moves o called now P d P' d') :
    P'.Nonempty := by
  cases h with
  | narrow hne _ => exact hne
  | effect hne _ => exact hne

theorem Atomic.Moves.stay {A : Atomic Op Res Time} {o : Op} {called now : Time} {P : Set A.State}
    {d : Option Res} (h : P.Nonempty) : A.Moves o called now P d P d :=
  .narrow h fun _ ha => ha

/-- A move of a thread is one of the atomic object. -/
theorem Atomic.Moves.runs [LE Time] [DecidableEq Tid] {A : Atomic Op Res Time} {o : Op}
    {called now : Time} {P P' : Set A.State} {d d' : Option Res}
    {p : Tid → Option (Pending Op Res Time)} {h : List (Event Tid Op Res Time)} {t : Tid}
    (hmove : A.Moves o called now P d P' d') (hp : p t = some ⟨o, called, d⟩)
    (hruns : ∀ a ∈ P, A.Runs now a p h) :
    ∀ a ∈ P', A.Runs now a (Function.update p t (some ⟨o, called, d'⟩)) h := by
  intro a ha
  cases hmove with
  | narrow _ hsub =>
    rw [← hp, Function.update_eq_self]
    exact hruns a (hsub ha)
  | effect _ hstep =>
    obtain ⟨a₀, ha₀, hstep⟩ := hstep a ha
    exact (hruns a₀ ha₀).effect hp hstep

/-- What the memory says of the states that the atomic object may be in: `free` while no one holds
the lock, and `seen` at every point, to those who read without the lock. -/
structure View (O : Shared S Op Res Time) (A : Atomic Op Res Time) where
  free : Time → Set A.State → O.Mem → Prop
  seen : Set A.State → O.Mem → Prop

namespace View

variable {O : Shared S Op Res Time} {A : Atomic Op Res Time} [LE Time] {α β : Type}

/-- What is left of a method conforms, from the time `e` on: `w` has the possible states and the
memory while the thread holds the lock, `d` what the call will return, once it has taken effect.
Outside of the lock the others may do anything in between, and the thread may read only; inside only
time passes. At the end `Q` holds. -/
def Conforms (V : View O A) (o : Op) (called : Time)
    (Q : α → Time → Option (Set A.State × O.Mem) → Option Res → Prop) :
    Prog (S.locking Time) α → Time → Option (Set A.State × O.Mem) → Option Res → Prop
  | .pure a, e, w, d => Q a e w d
  | .call .lock k, e, none, d => ∀ now, e ≤ now → ∀ P m, V.free now P m → P.Nonempty →
      V.Conforms o called Q (k ()) now (some (P, m)) d
  | .call .lock _, _, some _, _ => False
  | .call .unlock _, _, none, _ => False
  | .call .unlock k, e, some (P, m), d => ∀ now, e ≤ now → ∃ P' d', A.Moves o called now P d P' d' ∧
      V.seen P' m ∧ V.free now P' m ∧ V.Conforms o called Q (k ()) now none d'
  | .call .clock k, e, w, d => ∀ now, e ≤ now → V.Conforms o called Q (k now) now w d
  | .call (.access x) k, e, none, d => ∀ now, e ≤ now → ∀ P m, V.seen P m → P.Nonempty →
      (O.access x m).2 = m ∧ ∃ d', A.Moves o called now P d P d' ∧
        V.Conforms o called Q (k (O.access x m).1) now none d'
  | .call (.access x) k, e, some (P, m), d => ∀ now, e ≤ now →
      ∃ P' d', A.Moves o called now P d P' d' ∧ V.seen P' (O.access x m).2 ∧
        V.Conforms o called Q (k (O.access x m).1) now (some (P', (O.access x m).2)) d'

/-- Sequencing: what follows conforms from where the first part ends. The induction is on the first
part. -/
theorem Conforms.bind {V : View O A} {o : Op} {called : Time}
    {P : α → Time → Option (Set A.State × O.Mem) → Option Res → Prop}
    {Q : β → Time → Option (Set A.State × O.Mem) → Option Res → Prop}
    {p : Prog (S.locking Time) α} {f : α → Prog (S.locking Time) β} {e : Time}
    {w : Option (Set A.State × O.Mem)} {d : Option Res} (hp : V.Conforms o called P p e w d)
    (hf : ∀ a e w d, P a e w d → V.Conforms o called Q (f a) e w d) :
    V.Conforms o called Q (p >>= f) e w d := by
  show V.Conforms o called Q (p.bind f) e w d
  induction p generalizing e w d with
  | pure a => exact hf a e w d hp
  | call x k ih =>
    cases x with
    | lock =>
      cases w with
      | none => exact fun now hnow P m hfree hne => ih () (hp now hnow P m hfree hne)
      | some _ => exact hp
    | unlock =>
      cases w with
      | none => exact hp
      | some _ =>
        intro now hnow
        obtain ⟨P', d', hmove, hseen, hfree, hk⟩ := hp now hnow
        exact ⟨P', d', hmove, hseen, hfree, ih () hk⟩
    | clock => exact fun now hnow => ih now (hp now hnow)
    | access x =>
      cases w with
      | none =>
        intro now hnow P m hseen hne
        obtain ⟨hread, d', hmove, hk⟩ := hp now hnow P m hseen hne
        exact ⟨hread, d', hmove, ih _ hk⟩
      | some _ =>
        intro now hnow
        obtain ⟨P', d', hmove, hseen, hk⟩ := hp now hnow
        exact ⟨P', d', hmove, hseen, ih _ hk⟩

section
variable {V : View O A} {o : Op} {called e : Time} {d : Option Res} {P : Set A.State} {m : O.Mem}
  {Q : α → Time → Option (Set A.State × O.Mem) → Option Res → Prop}

/-- The lock is taken: the memory is that of a free lock. -/
theorem Conforms.lock {f : Unit → Prog (S.locking Time) α}
    (h : ∀ now, e ≤ now → ∀ P m, V.free now P m → P.Nonempty →
      V.Conforms o called Q (f ()) now (some (P, m)) d) :
    V.Conforms o called Q (Prog.op (S := S.locking Time) .lock >>= f) e none d := h

/-- The lock is released, with the memory as others may find it. -/
theorem Conforms.unlock {f : Unit → Prog (S.locking Time) α}
    (h : ∀ now, e ≤ now → ∃ P' d', A.Moves o called now P d P' d' ∧ V.seen P' m ∧
      V.free now P' m ∧ V.Conforms o called Q (f ()) now none d') :
    V.Conforms o called Q (Prog.op (S := S.locking Time) .unlock >>= f) e (some (P, m)) d := h

theorem Conforms.clock {f : Time → Prog (S.locking Time) α}
    {w : Option (Set A.State × O.Mem)}
    (h : ∀ now, e ≤ now → V.Conforms o called Q (f now) now w d) :
    V.Conforms o called Q (Prog.op (S := S.locking Time) .clock >>= f) e w d := h

/-- An access inside the lock. -/
theorem Conforms.access {x : S.Op} {f : S.Res x → Prog (S.locking Time) α}
    (h : ∀ now, e ≤ now → ∃ P' d', A.Moves o called now P d P' d' ∧ V.seen P' (O.access x m).2 ∧
      V.Conforms o called Q (f (O.access x m).1) now (some (P', (O.access x m).2)) d') :
    V.Conforms o called Q (Prog.op (S := S.locking Time) (.access x) >>= f) e (some (P, m)) d := h

end

/-- Inside the lock, accesses that leave what others see alone do what they do when nobody else
makes any. The induction is on the accesses. -/
theorem Conforms.alone [Std.IsPreorder Time] {V : View O A} {T : Sig} {ι : T.Op → S.Op}
    {g : ∀ x, S.Res (ι x) → T.Res x} {o : Op} {called : Time}
    {Q : β → Time → Option (Set A.State × O.Mem) → Option Res → Prop} {p : Prog T α}
    {f : α → Prog (S.locking Time) β} {e : Time} {P : Set A.State} {m : O.Mem} {d : Option Res}
    (hkeep : ∀ x m, V.seen P m → V.seen P (O.access (ι x) m).2) (hne : P.Nonempty)
    (hseen : V.seen P m)
    (h : ∀ now, e ≤ now → V.seen P (p.exec (O.via ι g) m).2 →
      V.Conforms o called Q (f (p.exec (O.via ι g) m).1) now
        (some (P, (p.exec (O.via ι g) m).2)) d) :
    V.Conforms o called Q (p.hoist (T := S.locking Time) (fun x => .access (ι x)) g >>= f) e
      (some (P, m)) d := by
  induction p generalizing e m with
  | pure a => exact h e (Std.le_refl e) hseen
  | call x k ih =>
    refine fun now hnow => ⟨P, d, .stay hne, hkeep x m hseen, ?_⟩
    exact ih _ (hkeep x m hseen) fun now' hnow' => h now' (Std.le_trans hnow hnow')

/-- The call returns `r` without the lock, and has taken effect or does so now, whatever the states
are. -/
def Returns (V : View O A) (o : Op) (called : Time) (r : Res) (e : Time)
    (w : Option (Set A.State × O.Mem)) (d : Option Res) : Prop :=
  w = none ∧ ∀ now, e ≤ now → ∀ P m, V.seen P m → P.Nonempty →
    A.Moves o called now P d P (some r)

/-- The view of an object whose methods conform. -/
structure Sound (V : View O A) : Prop where
  init : ∀ now, V.free now {A.init} O.init
  init_seen : V.seen {A.init} O.init
  later : ∀ {now now' P m}, now ≤ now' → V.free now P m → V.free now' P m
  conforms : ∀ o called, V.Conforms o called (V.Returns o called) (O.body o) called none none

/-! ## The rule -/

variable [DecidableEq Tid]

/-- What a thread knows while it holds the lock: the states the atomic object may be in, and the
memory. -/
def place (c : O.Conf Tid) (P : Set A.State) (t : Tid) : Option (Set A.State × O.Mem) :=
  if c.owner = some t then some (P, c.mem) else none

/-- The atomic object may be in the states `P` with the pending calls `p`. -/
structure Linked (V : View O A) (c : O.Conf Tid) (P : Set A.State)
    (p : Tid → Option (Pending Op Res Time)) : Prop where
  nonempty : P.Nonempty
  runs : ∀ a ∈ P, A.Runs c.now a p c.history
  seen : V.seen P c.mem
  free : c.owner = none → V.free c.now P c.mem
  idle : ∀ t, c.running t = none → p t = none ∧ c.owner ≠ some t
  busy : ∀ t q, c.running t = some q → ∃ o called d e, p t = some ⟨o, called, d⟩ ∧ e ≤ c.now ∧
    V.Conforms o called (V.Returns o called) q e (place c P t) d

omit [LE Time] in
/-- No other thread knows anything while the lock is free or `t` has it. -/
theorem place_of_owner {c : O.Conf Tid} {P : Set A.State} {t u : Tid} (hut : u ≠ t)
    (ho : c.owner = none ∨ c.owner = some t) : place c P u = none := by
  refine if_neg fun h => ?_
  rcases ho with ho | ho
  · exact absurd (ho.symm.trans h) nofun
  · exact hut (Option.some.inj (h.symm.trans ho))

/-- The atomic object has been in one state so far, its first one. -/
theorem Sound.start {V : View O A} (hV : V.Sound) (now : Time) :
    V.Linked (⟨now, O.init, none, fun _ => none, []⟩ : O.Conf Tid) {A.init} fun _ => none where
  nonempty := ⟨A.init, rfl⟩
  runs _ ha := ha ▸ .init now
  seen := hV.init_seen
  free _ := hV.init now
  idle _ _ := ⟨rfl, nofun⟩
  busy _ _ hu := nomatch hu

/-- A call returns. -/
theorem Linked.ret {V : View O A} {c : O.Conf Tid} {P : Set A.State}
    {p : Tid → Option (Pending Op Res Time)} {t : Tid} {r : Res} (h : V.Linked c P p)
    (hr : c.running t = some (.pure r)) :
    ∃ p', V.Linked { c with
      running := Function.update c.running t none
      history := .ret t r c.now :: c.history } P p' := by
  obtain ⟨o, called, d, e, hp, he, hw, hmove⟩ := h.busy t _ hr
  have ho : c.owner ≠ some t := fun ho => by
    rw [place, if_pos ho] at hw
    cases hw
  have hruns := (hmove c.now he P c.mem h.seen h.nonempty).runs hp h.runs
  refine ⟨_, h.nonempty, fun a ha => (hruns a ha).ret (Function.update_self ..), h.seen, h.free,
    fun u hu => ?_, fun u q hu => ?_⟩
  · by_cases hut : u = t
    · subst hut
      exact ⟨Function.update_self .., ho⟩
    · rw [Function.update_of_ne hut, Function.update_of_ne hut]
      exact h.idle u ((Function.update_of_ne hut _ _).symm.trans hu)
  · by_cases hut : u = t
    · cases (Function.update_self t _ _).symm.trans (hut ▸ hu)
    · rw [Function.update_of_ne hut, Function.update_of_ne hut]
      exact h.busy u q ((Function.update_of_ne hut _ _).symm.trans hu)

variable [Std.IsPreorder Time]

/-- One step of a method: the thread `t` moves, and what the others know stays. -/
theorem Linked.move {V : View O A} {c : O.Conf Tid} {P P' : Set A.State}
    {p : Tid → Option (Pending Op Res Time)} {t : Tid} {o : Op} {called : Time}
    {d d' : Option Res} {q : Prog (S.locking Time) Res} {m : O.Mem} {owner : Option Tid}
    (h : V.Linked c P p) (hp : p t = some ⟨o, called, d⟩)
    (hmove : A.Moves o called c.now P d P' d') (hseen : V.seen P' m)
    (hfree : owner = none → V.free c.now P' m)
    (hq : V.Conforms o called (V.Returns o called) q c.now
      (if owner = some t then some (P', m) else none) d')
    (hothers : ∀ u, u ≠ t →
      (if owner = some u then some (P', m) else none) = place c P u) :
    V.Linked { c.resume t q with mem := m, owner := owner } P'
      (Function.update p t (some ⟨o, called, d'⟩)) where
  nonempty := hmove.nonempty
  runs := hmove.runs hp h.runs
  seen := hseen
  free := hfree
  idle u hu := by
    by_cases hut : u = t
    · cases (c.resume_self t q).symm.trans (hut ▸ hu)
    · rw [Function.update_of_ne hut]
      replace hu := (c.resume_of_ne hut q).symm.trans hu
      refine ⟨(h.idle u hu).1, fun ho => ?_⟩
      have hplace := hothers u hut
      rw [if_pos ho, place, if_neg (h.idle u hu).2] at hplace
      cases hplace
  busy u q' hu := by
    by_cases hut : u = t
    · subst hut
      cases (c.resume_self u q).symm.trans hu
      exact ⟨o, called, d', c.now, Function.update_self .., Std.le_refl _, hq⟩
    · rw [Function.update_of_ne hut]
      obtain ⟨o', called', d₁, e, hp', he, hconf⟩ :=
        h.busy u q' ((c.resume_of_ne hut q).symm.trans hu)
      refine ⟨o', called', d₁, e, hp', he, ?_⟩
      rw [← hothers u hut] at hconf
      exact hconf

/-- A thread calls a method. -/
theorem Sound.call {V : View O A} (hV : V.Sound) {c : O.Conf Tid} {P : Set A.State}
    {p : Tid → Option (Pending Op Res Time)} {t : Tid} (o : Op) (h : V.Linked c P p)
    (hr : c.running t = none) :
    V.Linked { c.resume t (O.body o) with history := .call t o c.now :: c.history } P
      (Function.update p t (some ⟨o, c.now, none⟩)) where
  nonempty := h.nonempty
  runs a ha := (h.runs a ha).call o (h.idle t hr).1
  seen := h.seen
  free := h.free
  idle u hu := by
    by_cases hut : u = t
    · cases (c.resume_self t _).symm.trans (hut ▸ hu)
    · rw [Function.update_of_ne hut]
      exact h.idle u ((c.resume_of_ne hut _).symm.trans hu)
  busy u q hu := by
    by_cases hut : u = t
    · subst hut
      cases (c.resume_self u _).symm.trans hu
      refine ⟨o, c.now, none, c.now, Function.update_self .., Std.le_refl _, ?_⟩
      have hplace : place { c.resume u (O.body o) with history := .call u o c.now :: c.history } P u
          = none := if_neg (h.idle u hr).2
      rw [hplace]
      exact hV.conforms o c.now
    · rw [Function.update_of_ne hut]
      exact h.busy u q ((c.resume_of_ne hut _).symm.trans hu)

/-- Time passes. -/
theorem Sound.pass {V : View O A} (hV : V.Sound) {c : O.Conf Tid} {P : Set A.State}
    {p : Tid → Option (Pending Op Res Time)} {now : Time} (h : V.Linked c P p)
    (hle : c.now ≤ now) : V.Linked { c with now := now } P p where
  nonempty := h.nonempty
  runs a ha := (h.runs a ha).pass hle
  seen := h.seen
  free ho := hV.later hle (h.free ho)
  idle := h.idle
  busy u q hu := by
    obtain ⟨o, called, d, e, hp, he, hconf⟩ := h.busy u q hu
    exact ⟨o, called, d, e, hp, Std.le_trans he hle, hconf⟩

variable [DecidableLE Time]

/-- Every step keeps the link: one case for each step. -/
theorem Sound.step {V : View O A} (hV : V.Sound) {l : Shared.Label Tid Op Time}
    {c c' : O.Conf Tid} {P : Set A.State} {p : Tid → Option (Pending Op Res Time)}
    (h : V.Linked c P p) (hs : Shared.step l c = some c') : ∃ P' p', V.Linked c' P' p' := by
  rcases Shared.step_cases hs with ⟨t, o, hr, rfl⟩ | ⟨t, k, hr, ho, rfl⟩ | ⟨t, k, hr, ho, rfl⟩ |
    ⟨t, k, hr, rfl⟩ | ⟨t, x, k, hr, rfl⟩ | ⟨t, r, hr, rfl⟩ | ⟨now, hle, rfl⟩
  · exact ⟨P, _, hV.call o h hr⟩
  · obtain ⟨o, called, d, e, hp, he, hconf⟩ := h.busy t _ hr
    rw [place, if_neg (ho ▸ nofun)] at hconf
    have hk := hconf c.now he P c.mem (h.free ho) h.nonempty
    refine ⟨P, _, h.move (q := k ()) (m := c.mem) hp (.stay h.nonempty) h.seen nofun ?_ ?_⟩
    · rwa [if_pos rfl]
    · intro u hut
      rw [place_of_owner hut (.inl ho)]
      exact if_neg fun hu => hut (Option.some.inj hu).symm
  · obtain ⟨o, called, d, e, hp, he, hconf⟩ := h.busy t _ hr
    rw [place, if_pos ho] at hconf
    obtain ⟨P', d', hmove, hseen, hfree, hk⟩ := hconf c.now he
    refine ⟨P', _, h.move (q := k ()) (m := c.mem) hp hmove hseen (fun _ => hfree) hk ?_⟩
    intro u hut
    rw [place_of_owner hut (.inr ho)]
    rfl
  · obtain ⟨o, called, d, e, hp, he, hconf⟩ := h.busy t _ hr
    exact ⟨P, _, h.move hp (.stay h.nonempty) h.seen h.free (hconf c.now he) fun _ _ => rfl⟩
  · obtain ⟨o, called, d, e, hp, he, hconf⟩ := h.busy t _ hr
    by_cases ho : c.owner = some t
    · rw [place, if_pos ho] at hconf
      obtain ⟨P', d', hmove, hseen, hk⟩ := hconf c.now he
      refine ⟨P', _, h.move hp hmove hseen (fun hn => ?_) ?_ ?_⟩
      · cases ho.symm.trans hn
      · show V.Conforms o called _ _ _ (if c.owner = some t then _ else none) d'
        rwa [if_pos ho]
      · intro u hut
        rw [place_of_owner hut (.inr ho)]
        exact if_neg fun hu => hut (Option.some.inj (hu.symm.trans ho))
    · rw [place, if_neg ho] at hconf
      obtain ⟨hread, d', hmove, hk⟩ := hconf c.now he P c.mem h.seen h.nonempty
      rw [hread]
      refine ⟨P, _, h.move hp hmove h.seen h.free ?_ fun u _ => rfl⟩
      show V.Conforms o called _ _ _ (if c.owner = some t then _ else none) d'
      rwa [if_neg ho]
  · exact ⟨P, h.ret hr⟩
  · exact ⟨P, p, hV.pass h hle⟩

/-- In every run some states of the atomic object are linked to the memory. -/
theorem Sound.linked {V : View O A} (hV : V.Sound) {c : O.Conf Tid}
    (h : (O.lts Tid).Reachable c) : ∃ P p, V.Linked c P p := by
  refine Lts.Reachable.invariant (I := fun c : O.Conf Tid => ∃ P p, V.Linked c P p) ?_ ?_ h
  · rintro c ⟨now, rfl⟩
    exact ⟨_, _, hV.start now⟩
  · rintro l c c' ⟨P, p, hc⟩ hs
    exact hV.step hc hs

/-- **The rule for linearizability.** An object whose methods conform to a view is linearizable:
the history of every run is one of the atomic object, and while no one holds the lock the view says
what the memory is in the state it has got to. -/
theorem Sound.runs_of_reachable {V : View O A} (hV : V.Sound) {c : O.Conf Tid}
    (h : (O.lts Tid).Reachable c) :
    ∃ P a p, a ∈ P ∧ A.Runs c.now a p c.history ∧ (c.owner = none → V.free c.now P c.mem) := by
  obtain ⟨P, p, hc⟩ := hV.linked h
  obtain ⟨a, ha⟩ := hc.nonempty
  exact ⟨P, a, p, ha, hc.runs a ha, hc.free⟩

end View

end Concentrator
