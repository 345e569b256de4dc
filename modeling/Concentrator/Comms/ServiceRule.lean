import Concentrator.Comms.Service

/-!
# The rule of the comms service

Whatever system the comms service runs in, its handlers make the same calls: a connect and the
report of its outcome while a join is handled, the calls of a cycle while a dispatch is handled with
dispatching enabled, the flag and the timer while the service is told to start or to stop. `Host`
says what such a system provides, `Duties` lists, call by call, what keeps an invariant of it, and
`Duties.reach` turns them into an invariant of every run.
-/

namespace Concentrator.Comms

open Threaded

variable {ρ : Type} {cfg : Config} {M : Threaded (ServiceSig ρ)}

/-- A system whose thread runs the comms service: it knows which event is being handled, whether
dispatching is enabled and whether the dispatch timer runs, and the others leave these alone. A join
is handled once its outcome is sent. -/
structure Host (cfg : Config) (M : Threaded (ServiceSig ρ)) where
  executing : M.State → Option Event
  enabled : M.State → Bool
  timer : M.State → Bool
  other_executing : ∀ x s, executing (M.other x s) = executing s
  other_enabled : ∀ x s, enabled (M.other x s) = enabled s
  start : ∀ s p s', M.start s = some (p, s') →
    ∃ e, p = executeEvent cfg e ∧ executing s' = some e
  finish : ∀ s, executing (M.finish s) = none
  perform_executing : ∀ o ans s, (∀ e, o ≠ .sendToApp e) →
    executing (M.perform o ans s).2 = executing s
  perform_sendToApp : ∀ e ans s, executing (M.perform (.sendToApp e) ans s).2 = none
  perform_cycle : ∀ o ans s, enabled (M.perform (.cycle o) ans s).2 = enabled s
  perform_dispatchEnabled : ∀ ans s, M.perform .dispatchEnabled ans s = (enabled s, s)
  perform_setDispatchEnabled : ∀ b ans s, enabled (M.perform (.setDispatchEnabled b) ans s).2 = b
  perform_startDispatchTimer : ∀ ans s, timer (M.perform .startDispatchTimer ans s).2 = true ∧
    enabled (M.perform .startDispatchTimer ans s).2 = enabled s
  perform_stopDispatchTimer : ∀ ans s, timer (M.perform .stopDispatchTimer ans s).2 = false ∧
    enabled (M.perform .stopDispatchTimer ans s).2 = enabled s

/-- The service is handling a dispatch that it has found to be allowed. -/
def Host.InCycle (H : Host cfg M) (s : M.State) : Prop :=
  (H.executing s = some .dispatchDue ∨ H.executing s = some .dispatchNow) ∧ H.enabled s = true

/-- The service has done what it was told: to start, or to stop. -/
def Host.Done (H : Host cfg M) (s : M.State) : Prop :=
  match H.executing s with
  | some .startDispatch => H.enabled s = true ∧ H.timer s = true
  | some .stopDispatch => H.enabled s = false ∧ H.timer s = false
  | _ => True

theorem Host.Done.stopped {H : Host cfg M} {s : M.State} (h : H.Done s)
    (hexecuting : H.executing s = some .stopDispatch) :
    H.enabled s = false ∧ H.timer s = false := by
  unfold Host.Done at h
  rw [hexecuting] at h
  exact h

/-- What keeps `I` in every run whose steps the guard allows, where `C result` is known between a
connect and the report of its result. -/
structure Duties (H : Host cfg M) (G : M.Guard) (I : M.State → Prop)
    (C : LinkError → M.State → Prop) : Prop where
  other : ∀ x s, G.other x s → I s → I (M.other x s)
  /-- What is known of the connect stays known. -/
  known : ∀ result x s, G.other x s → I s → C result s → C result (M.other x s)
  start : ∀ s p s', I s → H.executing s = none → M.start s = some (p, s') → I s'
  connect : ∀ ans s, G.call .connect ans s → I s → H.executing s = some .joinNetwork →
    I (M.perform .connect ans s).2 ∧ C (M.perform .connect ans s).1 (M.perform .connect ans s).2
  outcome : ∀ result ans s, I s → C result s → H.executing s = some .joinNetwork →
    I (M.perform (.sendToApp (joinOutcome result)) ans s).2
  cycle : ∀ o ans s, G.call (.cycle o) ans s → I s → H.InCycle s →
    I (M.perform (.cycle o) ans s).2
  enable : ∀ ans s, I s → H.executing s = some .startDispatch →
    I (M.perform (.setDispatchEnabled true) ans s).2
  startTimer : ∀ ans s, I s → H.executing s = some .startDispatch →
    I (M.perform .startDispatchTimer ans s).2
  disable : ∀ ans s, I s → H.executing s = some .stopDispatch →
    I (M.perform (.setDispatchEnabled false) ans s).2
  stopTimer : ∀ ans s, I s → H.executing s = some .stopDispatch →
    I (M.perform .stopDispatchTimer ans s).2
  finish : ∀ s, I s → H.executing s ≠ some .joinNetwork → H.Done s → I (M.finish s)

namespace Duties

variable {H : Host cfg M} {G : M.Guard} {I : M.State → Prop} {C : LinkError → M.State → Prop}
  {s : M.State}

/-- The service waits. -/
def Waiting (H : Host cfg M) (I : M.State → Prop) (s : M.State) : Prop :=
  I s ∧ H.executing s = none

/-- The service handles `e`. -/
def Handling (H : Host cfg M) (I : M.State → Prop) (e : Event) (s : M.State) : Prop :=
  I s ∧ H.executing s = some e

theorem stable_waiting (D : Duties H G I C) : Stable G (Waiting H I) :=
  fun x s hg h => ⟨D.other x s hg h.1, by rw [H.other_executing, h.2]⟩

theorem stable_handling (D : Duties H G I C) (e : Event) : Stable G (Handling H I e) :=
  fun x s hg h => ⟨D.other x s hg h.1, by rw [H.other_executing, h.2]⟩

/-- A handled event other than a join leaves the service waiting. -/
theorem waiting_finish (D : Duties H G I C) {e : Event} (he : e ≠ .joinNetwork)
    (h : Handling H I e s) (hdone : H.Done s) :
    Waiting H I (M.finish s) ∧ I (M.finish s) := by
  have hI := D.finish s h.1 (by rw [h.2]; simpa using he) hdone
  exact ⟨⟨hI, H.finish s⟩, hI⟩

/-- A call that the service makes while it handles `e`, and goes on handling it; `P` is known before
it, and `K` after it. -/
theorem wp_handling (D : Duties H G I C) {e : Event} {P K : M.State → Prop} (hst : Stable G P)
    {o : ServiceOp ρ} {k : o.Res → ServiceProg ρ Unit} {Q : Unit → M.State → Prop}
    (h : Handling H I e s ∧ P s) (ho : ∀ e', o ≠ .sendToApp e')
    (hI : ∀ ans s, I s → H.executing s = some e → I (M.perform o ans s).2)
    (hP : ∀ ans s, P s → K (M.perform o ans s).2)
    (hk : ∀ r s, Handling H I e s ∧ K s → wp G I (k r) Q s) : wp G I (.call o k) Q s := by
  refine wp_call (fun s => Handling H I e s ∧ P s) h ((D.stable_handling e).and hst)
    fun s' hs' ans _ => ?_
  have hnext := hI ans s' hs'.1.1 hs'.1.2
  have hexecuting := (H.perform_executing o ans s' ho).trans hs'.1.2
  exact ⟨hnext, hk _ _ ⟨⟨hnext, hexecuting⟩, hP ans s' hs'.2⟩⟩

/-- The flag is set and then the timer is started or stopped: the service has done what it was
told. -/
theorem wp_switch (D : Duties H G I C) {e : Event} {enabled : Bool} {o : ServiceOp ρ}
    {k : o.Res → ServiceProg ρ Unit} (hk : ∀ r, k r = pure ()) (he : e ≠ .joinNetwork)
    (ho : ∀ e', o ≠ .sendToApp e') (h : Handling H I e s)
    (hset : ∀ ans s, I s → H.executing s = some e →
      I (M.perform (.setDispatchEnabled enabled) ans s).2)
    (hswitch : ∀ ans s, I s → H.executing s = some e → I (M.perform o ans s).2)
    (hdone : ∀ ans s, H.enabled s = enabled → H.executing (M.perform o ans s).2 = some e →
      H.Done (M.perform o ans s).2) :
    wp G I (serviceCall (.setDispatchEnabled enabled) >>= fun _ => .call o k)
      (fun _ s => Waiting H I (M.finish s) ∧ I (M.finish s)) s := by
  refine D.wp_handling (P := fun _ => True) (K := fun s => H.enabled s = enabled)
    (fun _ _ _ _ => trivial) ⟨h, trivial⟩
    (fun _ h => nomatch h) hset (fun ans s _ => H.perform_setDispatchEnabled enabled ans s)
    fun _ s₁ h₁ => ?_
  have hst : Stable G fun s => H.enabled s = enabled :=
    fun x s _ h => (H.other_enabled x s).trans h
  refine D.wp_handling (K := fun s => H.executing s = some e → H.Done s) hst h₁ ho hswitch hdone
    fun r s₂ h₂ => ?_
  rw [hk]
  exact D.waiting_finish he h₂.1 (h₂.2 h₂.1.2)

/-- A dispatch cycle: each of its calls is made in the cycle. The induction is on the program. -/
theorem wp_hoist (D : Duties H G I C) {α : Type} (p : CommsProg ρ α) {e : Event}
    (he : e = .dispatchDue ∨ e = .dispatchNow) (h : Handling H I e s)
    (henabled : H.enabled s = true) :
    wp G I (p.hoist (T := ServiceSig ρ) .cycle fun _ r => r) (fun _ => Handling H I e) s := by
  induction p generalizing s with
  | pure a => exact h
  | call o k ih =>
    refine wp_call (fun s => Handling H I e s ∧ H.enabled s = true) ⟨h, henabled⟩
      ((D.stable_handling e).and fun x s _ h => by rw [H.other_enabled, h])
      fun s' hs' ans hg => ?_
    have hin : H.InCycle s' := by
      refine ⟨?_, hs'.2⟩
      rw [hs'.1.2]
      exact he.imp (congrArg some) (congrArg some)
    have hI := D.cycle o ans s' hg hs'.1.1 hin
    have hexecuting := H.perform_executing (.cycle o) ans s' fun _ h => nomatch h
    exact ⟨hI, ih _ ⟨hI, hexecuting.trans hs'.1.2⟩ ((H.perform_cycle o ans s').trans hs'.2)⟩

/-- A dispatch. -/
theorem wp_dispatch (D : Duties H G I C) {e : Event} (he : e = .dispatchDue ∨ e = .dispatchNow)
    (h : Handling H I e s) :
    wp G I (executeEvent (ρ := ρ) cfg e) (fun _ => Handling H I e) s := by
  have hprog : executeEvent (ρ := ρ) cfg e = (do
      let enabled ← serviceCall .dispatchEnabled
      if !enabled then pure () else serviceCycle cfg) := by
    rcases he with rfl | rfl <;> rfl
  rw [hprog]
  refine wp_call (Handling H I e) h (D.stable_handling e) fun s' hs' ans _ => ?_
  rw [H.perform_dispatchEnabled]
  refine ⟨hs'.1, ?_⟩
  show wp G I (if !H.enabled s' then _ else _) _ s'
  cases henabled : H.enabled s' with
  | true => exact D.wp_hoist _ he hs' henabled
  | false => exact hs'

/-- What the service does with an event keeps `I` and leaves the service waiting. -/
theorem wp_executeEvent (D : Duties H G I C) (e : Event) (h : Handling H I e s) :
    wp G I (executeEvent (ρ := ρ) cfg e)
      (fun _ s => Waiting H I (M.finish s) ∧ I (M.finish s)) s := by
  cases e with
  | joinNetwork =>
    refine wp_call (Handling H I .joinNetwork) h (D.stable_handling _) fun s₁ h₁ ans hg => ?_
    have hconnect := D.connect ans s₁ hg h₁.1 h₁.2
    have hexecuting := H.perform_executing .connect ans s₁ fun _ h => nomatch h
    refine ⟨hconnect.1, ?_⟩
    let result := (M.perform .connect ans s₁).1
    refine wp_call (fun s => Handling H I .joinNetwork s ∧ C result s)
      ⟨⟨hconnect.1, hexecuting.trans h₁.2⟩, hconnect.2⟩
      (fun x s hg h => ⟨D.stable_handling _ x s hg h.1, D.known result x s hg h.1.1 h.2⟩)
      fun s₂ h₂ ans _ => ?_
    have hI := D.outcome result ans s₂ h₂.1.1 h₂.2 h₂.1.2
    have hsent := H.perform_sendToApp (joinOutcome result) ans s₂
    have hdone : H.Done (M.perform (.sendToApp (joinOutcome result)) ans s₂).2 := by
      unfold Host.Done
      rw [hsent]
      trivial
    have hfinish := D.finish _ hI (by rw [hsent]; exact fun h => nomatch h) hdone
    exact ⟨hI, ⟨hfinish, H.finish _⟩, hfinish⟩
  | startDispatch =>
    refine D.wp_switch (fun _ => rfl) Event.noConfusion (fun _ h => nomatch h) h D.enable
      D.startTimer fun ans s henabled hexecuting => ?_
    obtain ⟨htimer, hkept⟩ := H.perform_startDispatchTimer ans s
    unfold Host.Done
    rw [hexecuting]
    exact ⟨hkept.trans henabled, htimer⟩
  | stopDispatch =>
    refine D.wp_switch (fun _ => rfl) Event.noConfusion (fun _ h => nomatch h) h D.disable
      D.stopTimer fun ans s henabled hexecuting => ?_
    obtain ⟨htimer, hkept⟩ := H.perform_stopDispatchTimer ans s
    unfold Host.Done
    rw [hexecuting]
    exact ⟨hkept.trans henabled, htimer⟩
  | dispatchDue =>
    refine wp_mono (fun _ _ h => D.waiting_finish Event.noConfusion h ?_)
      (D.wp_dispatch (.inl rfl) h)
    unfold Host.Done
    rw [h.2]
    trivial
  | dispatchNow =>
    refine wp_mono (fun _ _ h => D.waiting_finish Event.noConfusion h ?_)
      (D.wp_dispatch (.inr rfl) h)
    unfold Host.Done
    rw [h.2]
    trivial

/-- **The rule.** What the duties keep holds in every configuration that runs reach from one where
the service waits. -/
theorem reach (D : Duties H G I C) {c₀ c : M.Conf} (hidle : c₀.running = none) (h₀ : I c₀.state)
    (hexecuting : H.executing c₀.state = none) (h : Reach G c₀ c) : I c.state := by
  have hinv₀ : Inv G I (Waiting H I) c₀ := by
    obtain ⟨s, r⟩ := c₀
    cases hidle
    exact ⟨h₀, h₀, hexecuting⟩
  refine (invariant D.other D.stable_waiting (fun s p s' _ hJ _ hstart => ?_) hinv₀ h).1
  obtain ⟨e, rfl, he⟩ := H.start s p s' hstart
  have hI := D.start s _ s' hJ.1 hJ.2 hstart
  exact ⟨hI, D.wp_executeEvent e ⟨hI, he⟩⟩

end Duties

end Concentrator.Comms
