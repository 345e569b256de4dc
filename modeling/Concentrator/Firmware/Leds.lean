import Concentrator.Firmware.Discipline

/-!
# What the LEDs tell

The error LED has two writers: the application sets it while it is in `SOFT_ERROR`, and the
diagnostics service blinks it with the activity LED once a fault is latched. `leds_tell` says what
the three LEDs mean in every run, that a fault that shows is shown for good and changes its phase
with every heartbeat, and which reason is latched where the application gives up.
-/

namespace Concentrator.Firmware

open Threaded

variable {T : Transport} {ρ : Type} {cfg : Config}

/-! ## The latch -/

/-- The latch holds what it held. -/
structure Latched (before after : Option Eda.Reason) : Prop where
  keeps : ∀ reason, before = some reason → after = some reason

namespace Latched

variable {f f' f'' : Option Eda.Reason}

theorem refl (f : Option Eda.Reason) : Latched f f := ⟨fun _ => id⟩

theorem trans (h : Latched f f') (h' : Latched f' f'') : Latched f f'' :=
  ⟨fun reason hf => h'.keeps reason (h.keeps reason hf)⟩

theorem report (new : Eda.Reason) (f : Option Eda.Reason) : Latched f (Eda.report new f) := by
  refine ⟨fun reason hf => ?_⟩
  simp [hf, Eda.report]

theorem ne_none (h : Latched f f') (hf : f ≠ none) : f' ≠ none := by
  obtain ⟨reason, hreason⟩ := Option.ne_none_iff_exists'.1 hf
  simp [h.keeps reason hreason]

theorem sendEvent {ε : Type} (registered : Bool) (e : ε) (q : Eda.EventQueue ε)
    (ledger : Eda.Ledger) : Latched ledger.fault (Eda.sendEvent registered e q ledger).2.fault := by
  unfold Eda.sendEvent
  split
  · split
    · exact refl _
    · exact report _ _
  · exact report _ _

theorem sendEventFromIsr {ε : Type} (registered : Bool) (e : ε) (q : Eda.EventQueue ε)
    (ledger : Eda.Ledger) :
    Latched ledger.fault (Eda.sendEventFromIsr registered e q ledger).2.fault := by
  simp [Eda.sendEventFromIsr_fault, refl]

theorem carryOut (a : App.Action) (s : System.State T ρ cfg) :
    Latched s.ledger.fault (s.carryOut a).ledger.fault := by
  cases a with
  | sendToAcquisition e => exact sendEvent ..
  | sendToComms e => exact sendEvent ..
  | report reason => exact report ..
  | _ => exact refl _

/-- The induction is on the actions of a handler. -/
theorem foldl_carryOut (actions : List App.Action) (s : System.State T ρ cfg) :
    Latched s.ledger.fault (actions.foldl System.State.carryOut s).ledger.fault := by
  induction actions generalizing s with
  | nil => exact refl _
  | cons a actions ih => exact (carryOut a s).trans (ih _)

end Latched

/-! ## What the steps show -/

/-- The error LED after some actions. -/
def errorLedAfter (led : Bool) (actions : List App.Action) : Bool :=
  actions.foldl (fun led => fun
    | .setErrorLed on => on
    | _ => led) led

/-- The induction is on the actions. -/
theorem foldl_carryOut_errorLed (actions : List App.Action) (s : System.State T ρ cfg) :
    (actions.foldl System.State.carryOut s).errorLed = errorLedAfter s.errorLed actions := by
  induction actions generalizing s with
  | nil => rfl
  | cons a actions ih =>
    refine (ih _).trans ?_
    cases a <;> rfl

/-- Through any handler, the LED is on exactly in `SOFT_ERROR`. -/
theorem errorLedAfter_dispatchEvent (current : App.StateId) (e : App.Event) :
    errorLedAfter (decide (current = .softError)) (App.dispatchEvent current e) =
      decide (App.settle current (App.dispatchEvent current e) = .softError) := by
  cases current <;> cases e <;> rfl

/-- Where `HARD_ERROR` is entered, its fault is reported before anything is posted: the latch then
holds what it held, or else `UNRECOVERABLE`. -/
theorem fault_of_hardError {current : App.StateId} {e : App.Event} (hstate : current ≠ .hardError)
    (henter : App.settle current (App.dispatchEvent current e) = .hardError)
    (s : System.State T ρ cfg) :
    ((App.dispatchEvent current e).foldl System.State.carryOut s).ledger.fault =
      some (s.ledger.fault.getD .unrecoverable) := by
  rw [App.dispatchEvent_hardError hstate henter, App.transitionTo, List.foldl_append]
  have hexit :
      ((App.exit current).foldl System.State.carryOut s).ledger.fault = s.ledger.fault := by
    cases current <;> rfl
  generalize (App.exit current).foldl System.State.carryOut s = s₁ at hexit
  refine (Latched.foldl_carryOut [.sendToAcquisition .stopScan, .sendToComms .stopDispatch]
    ((s₁.carryOut (.setState .hardError)).carryOut (.report .unrecoverable))).keeps _ ?_
  show Eda.report .unrecoverable s₁.ledger.fault = _
  rw [hexit]
  cases s.ledger.fault <;> rfl

/-- Everything a step does that shows: it latches a fault at most, or the application handles an
event, or the diagnostics service handles a heartbeat. -/
inductive Shows (s s' : State T ρ cfg) : Prop
  | latches (fault : Latched s.core.ledger.fault s'.core.ledger.fault)
      (state : s'.core.state = s.core.state) (errorLed : s'.core.errorLed = s.core.errorLed)
      (diagnostics : s'.diagnostics = s.diagnostics)
  | handles (e : App.Event) (fault : Latched s.core.ledger.fault s'.core.ledger.fault)
      (enters : s.core.state ≠ .hardError → s'.core.state = .hardError →
        s'.core.ledger.fault = some (s.core.ledger.fault.getD .unrecoverable))
      (state : s'.core.state = App.settle s.core.state (App.dispatchEvent s.core.state e))
      (errorLed : s'.core.errorLed =
        errorLedAfter s.core.errorLed (App.dispatchEvent s.core.state e))
      (diagnostics : s'.diagnostics = s.diagnostics)
  | beats (fault : s'.core.ledger.fault = s.core.ledger.fault)
      (state : s'.core.state = s.core.state)
      (diagnostics : s'.diagnostics = SystemDiagnostics.executeEvent s.core.ledger.fault
        { s.diagnostics with errorLed := s.core.errorLed })
      (errorLed : s'.core.errorLed = s'.diagnostics.errorLed)

namespace Shows

theorem refl (s : State T ρ cfg) : Shows s s := .latches (.refl _) rfl rfl rfl

/-- The application handles an event. -/
theorem handleEvent (s : State T ρ cfg) : Shows s { s with core := s.core.handleEvent } := by
  rcases System.handleEvent_cases s.core with ⟨-, hs⟩ | ⟨e, q, -, hs⟩ <;> rw [hs]
  · exact refl s
  · have hstate := System.foldl_carryOut_state (App.dispatchEvent s.core.state e)
      { s.core with appQueue := q }
    refine .handles e (Latched.foldl_carryOut _ { s.core with appQueue := q })
      (fun hout hin => ?_) hstate (foldl_carryOut_errorLed _ _) rfl
    exact fault_of_hardError hout (hstate.symm.trans hin) _

section
variable [AsReading ρ]

/-- An act of the others. -/
theorem run (x : Act) (s : State T ρ cfg) : Shows s (x.run s) := by
  have hdoes := act_does x s
  unfold Act.run
  generalize x.act s = s' at hdoes ⊢
  cases hdoes with
  | handleEvent =>
    rcases handleEvent s with ⟨hf, hs, hl, hd⟩ | ⟨e, hf, hr, hs, hl, hd⟩ | ⟨hf, hs, hd, hl⟩
    · exact .latches hf hs hl hd
    · exact .handles e hf hr hs hl hd
    · exact .beats hf hs hd hl
  | postBringUp =>
    rcases System.postBringUp_cases s.core with hs | ⟨e, -, hs⟩ <;> rw [hs]
    · exact .latches (.refl _) rfl rfl rfl
    · exact .latches (.sendEvent ..) rfl rfl rfl
  | expireRetryTimer =>
    rcases System.expireRetryTimer_cases s.core with hs | hs <;> rw [hs]
    · exact .latches (.refl _) rfl rfl rfl
    · exact .latches (.sendEventFromIsr ..) rfl rfl rfl
  | expireDispatchTimer =>
    rcases System.expireDispatchTimer_cases s.core with hs | ⟨-, hs⟩ <;> rw [hs]
    · exact .latches (.refl _) rfl rfl rfl
    · exact .latches (.sendEventFromIsr ..) rfl rfl rfl
  | executeCommand result _ hget =>
    obtain ⟨isScanning, htaken⟩ := System.executeCommand_taken hget result
    rw [htaken]
    exact .latches (.refl _) rfl rfl rfl
  | executeHeartbeat _ => exact .beats rfl rfl rfl rfl
  | postAdvReport _ | expireHeartbeatTimer _ => exact .latches (.sendEventFromIsr ..) rfl rfl rfl
  | postToApp e | postDispatch e => exact .latches (.sendEvent ..) rfl rfl rfl
  | nothing | tick | refuse | accept | drain | upsert => exact .latches (.refl _) rfl rfl rfl

/-- A call of comms. -/
theorem perform (o : Comms.ServiceOp ρ) (ans : T.Answer) (s : State T ρ cfg) :
    Shows s (Firmware.perform o ans s).2 := by
  cases o with
  | cycle o => cases o <;> exact .latches (.refl _) rfl rfl rfl
  | sendToApp e =>
    refine .latches (.sendEvent ..) rfl rfl ?_
    show s.noteHandled.diagnostics = s.diagnostics
    obtain ⟨items, hnoted⟩ := noteHandled_eq s
    rw [hnoted]
  | _ => exact .latches (.refl _) rfl rfl rfl

/-- Comms takes an event. -/
theorem start {s s' : State T ρ cfg} {p : Comms.ServiceProg ρ Unit}
    (h : (firmware T ρ cfg).start s = some (p, s')) : Shows s s' := by
  obtain ⟨e, q, -, -, rfl⟩ := start_eq_some h
  exact .latches (.refl _) rfl rfl rfl

/-- Comms has handled an event. -/
theorem finish (s : State T ρ cfg) : Shows s ((firmware T ρ cfg).finish s) := by
  refine .latches (.refl _) rfl rfl ?_
  show s.noteHandled.diagnostics = s.diagnostics
  obtain ⟨items, hnoted⟩ := noteHandled_eq s
  rw [hnoted]

end

end Shows

section
variable [AsReading ρ]

/-- What every step that shows nothing more keeps, every run keeps. -/
theorem kept_of_shows {I : State T ρ cfg → Prop} (hI : ∀ s s', Shows s s' → I s → I s')
    {c₀ c : (firmware T ρ cfg).Conf} (hc : Reach .all c₀ c) (h₀ : I c₀.state) : I c.state := by
  have hresume {p : Comms.ServiceProg ρ Unit} {s : State T ρ cfg} (hs : I s) :
      I (resume (M := firmware T ρ cfg) p s).state := by
    cases p with
    | pure _ => exact hI _ _ (.finish s) hs
    | call o k => exact hs
  induction hc with
  | refl => exact h₀
  | step _ _ hs ih =>
    rcases step_cases hs with ⟨p, s', -, -, hp, rfl⟩ | ⟨ans, o, k, -, -, rfl⟩ | ⟨x, -, rfl⟩
    · exact hresume (hI _ _ (.start hp) ih)
    · exact hresume (hI _ _ (.perform o ans _) ih)
    · exact hI _ _ (.run x _) ih

end

/-! ## What the LEDs mean -/

/-- What a device that has announced a fault shows: the fault that is latched is the one it has
logged, whenever it has, the heartbeat LED is off, and the activity LED follows the blink. -/
structure ShowsFault (s : State T ρ cfg) : Prop where
  reason : ∃ reason, s.core.ledger.fault = some reason ∧ reason ∈ s.diagnostics.logged ∧
    ∀ logged ∈ s.diagnostics.logged, logged = reason
  heartbeatLed : s.diagnostics.heartbeatLed = false
  activityLed : s.diagnostics.activityLed = s.diagnostics.faultBlinkOn

/-- What a device that has announced none shows: no activity, the parity of the heartbeats, and
whether it is in `SOFT_ERROR`. -/
structure ShowsHealth (s : State T ρ cfg) : Prop where
  logged : s.diagnostics.logged = []
  activityLed : s.diagnostics.activityLed = false
  heartbeatLed : s.diagnostics.heartbeatLed = (s.diagnostics.heartbeatCount % 2 == 1)
  errorLed : s.core.errorLed = decide (s.core.state = .softError)

/-- What the LEDs tell. -/
structure Told (s : State T ρ cfg) : Prop where
  announced : s.diagnostics.faultAnnounced = true → ShowsFault s
  healthy : s.diagnostics.faultAnnounced = false → ShowsHealth s
  hardError : s.core.state = .hardError → s.core.ledger.fault ≠ none

/-- What a device shows of its fault stays while the latch does. -/
theorem ShowsFault.latched {s s' : State T ρ cfg} (h : ShowsFault s)
    (hfault : Latched s.core.ledger.fault s'.core.ledger.fault)
    (hdiagnostics : s'.diagnostics = s.diagnostics) : ShowsFault s' := by
  obtain ⟨reason, hlatched, hlogged⟩ := h.reason
  constructor <;> rw [hdiagnostics]
  · exact ⟨reason, hfault.keeps reason hlatched, hlogged⟩
  · exact h.heartbeatLed
  · exact h.activityLed

/-- So does what a healthy device shows, while its error LED follows the state. -/
theorem ShowsHealth.kept {s s' : State T ρ cfg} (h : ShowsHealth s)
    (hdiagnostics : s'.diagnostics = s.diagnostics)
    (herror : s'.core.errorLed = decide (s'.core.state = .softError)) : ShowsHealth s' := by
  constructor
  · rw [hdiagnostics]
    exact h.logged
  · rw [hdiagnostics]
    exact h.activityLed
  · rw [hdiagnostics]
    exact h.heartbeatLed
  · exact herror

theorem ShowsFault.latch {s : State T ρ cfg} (h : ShowsFault s) : s.core.ledger.fault ≠ none := by
  obtain ⟨reason, hlatched, -⟩ := h.reason
  simp [hlatched]

/-- One heartbeat more: the counter wraps at an even number. -/
theorem parity_succ (count : UInt32) : ((count + 1) % 2 == 1) = !(count % 2 == 1) := by
  have hparity (n : UInt32) : (n % 2 == 1) = decide (n.toNat % 2 = 1) := by
    rw [Bool.beq_eq_decide_eq, decide_eq_decide, ← UInt32.toNat_inj, UInt32.toNat_mod]
    rfl
  have hsucc : (count + 1).toNat = (count.toNat + 1) % 2 ^ 32 := UInt32.toNat_add count 1
  rw [hparity, hparity, hsucc, ← decide_not, decide_eq_decide]
  omega

/-- An announced fault is not announced again. -/
theorem executeEvent_announced (fault : Option Eda.Reason) {d : SystemDiagnostics.State}
    (h : d.faultAnnounced = true) :
    (SystemDiagnostics.executeEvent fault d).faultAnnounced = true := by
  cases fault with
  | none => exact h
  | some reason => exact (SystemDiagnostics.executeEvent_annunciated reason d).announced

/-- While a fault is shown, the heartbeat LED stays off. -/
theorem heartbeatLed_off (reason : Eda.Reason) {d : SystemDiagnostics.State}
    (h : d.faultAnnounced = true → d.heartbeatLed = false) :
    (SystemDiagnostics.executeEvent (some reason) d).heartbeatLed = false := by
  unfold SystemDiagnostics.executeEvent SystemDiagnostics.annunciateFault
    SystemDiagnostics.logFault
  grind

/-- What is logged of a fault names it. -/
theorem logged_executeEvent (reason : Eda.Reason) {d : SystemDiagnostics.State}
    (hnew : d.faultAnnounced = false → d.logged = [])
    (hold : d.faultAnnounced = true →
      reason ∈ d.logged ∧ ∀ logged ∈ d.logged, logged = reason) :
    reason ∈ (SystemDiagnostics.executeEvent (some reason) d).logged ∧
      ∀ logged ∈ (SystemDiagnostics.executeEvent (some reason) d).logged, logged = reason := by
  unfold SystemDiagnostics.executeEvent SystemDiagnostics.annunciateFault
    SystemDiagnostics.logFault
  cases hannounced : d.faultAnnounced with
  | false => simp [hnew hannounced]
  | true =>
    obtain ⟨hmem, hall⟩ := hold hannounced
    simp only [Bool.not_true, Bool.false_eq_true, if_false]
    split
    · exact ⟨.head _, List.forall_mem_cons.2 ⟨rfl, hall⟩⟩
    · exact ⟨hmem, hall⟩

/-- A heartbeat of a healthy device. -/
theorem Told.beatHealthy {s s' : State T ρ cfg} (h : Told s) (hlatch : s.core.ledger.fault = none)
    (hstate : s'.core.state = s.core.state)
    (hdiagnostics : s'.diagnostics = SystemDiagnostics.executeEvent none
      { s.diagnostics with errorLed := s.core.errorLed })
    (hled : s'.core.errorLed = s'.diagnostics.errorLed) : Told s' := by
  have hhealthy : s.diagnostics.faultAnnounced = false :=
    Bool.eq_false_iff.2 fun hannounced => (h.announced hannounced).latch hlatch
  have hshown := h.healthy hhealthy
  refine ⟨fun hannounced => ?_, fun _ => ⟨?_, ?_, ?_, ?_⟩, fun henter => ?_⟩
  · rw [hdiagnostics] at hannounced
    exact (Bool.false_ne_true (hhealthy.symm.trans hannounced)).elim
  · rw [hdiagnostics]
    exact hshown.logged
  · rw [hdiagnostics]
    exact hshown.activityLed
  · rw [hdiagnostics]
    show (!s.diagnostics.heartbeatLed) = _
    rw [hshown.heartbeatLed]
    exact (parity_succ _).symm
  · rw [hled, hdiagnostics, hstate]
    exact hshown.errorLed
  · rw [hstate] at henter
    exact absurd hlatch (h.hardError henter)

/-- A heartbeat of a device with a latched fault. -/
theorem Told.beatFault {s s' : State T ρ cfg} (h : Told s) {reason : Eda.Reason}
    (hlatch : s.core.ledger.fault = some reason)
    (hfault : s'.core.ledger.fault = s.core.ledger.fault)
    (hdiagnostics : s'.diagnostics = SystemDiagnostics.executeEvent (some reason)
      { s.diagnostics with errorLed := s.core.errorLed }) : Told s' := by
  have hshown := SystemDiagnostics.executeEvent_annunciated reason
    { s.diagnostics with errorLed := s.core.errorLed }
  have hlogged := logged_executeEvent reason
    (d := { s.diagnostics with errorLed := s.core.errorLed })
    (fun hhealthy => (h.healthy hhealthy).logged) fun hannounced => by
      obtain ⟨first, hfirst, hnamed⟩ := (h.announced hannounced).reason
      cases hlatch.symm.trans hfirst
      exact hnamed
  have hoff := heartbeatLed_off reason (d := { s.diagnostics with errorLed := s.core.errorLed })
    fun hannounced => (h.announced hannounced).heartbeatLed
  rw [← hdiagnostics] at hshown hlogged hoff
  refine ⟨fun _ => ⟨⟨reason, hfault.trans hlatch, hlogged⟩, hoff, hshown.activityLed⟩,
    fun hhealthy => ?_, fun _ => by simp [hfault, hlatch]⟩
  simp [hshown.announced] at hhealthy

theorem Told.shows {s s' : State T ρ cfg} (hs : Shows s s') (h : Told s) : Told s' := by
  cases hs with
  | latches hfault hstate hled hdiagnostics =>
    refine ⟨fun hannounced => ?_, fun hhealthy => ?_, fun henter => ?_⟩
    · rw [hdiagnostics] at hannounced
      exact (h.announced hannounced).latched hfault hdiagnostics
    · rw [hdiagnostics] at hhealthy
      refine (h.healthy hhealthy).kept hdiagnostics ?_
      rw [hled, hstate]
      exact (h.healthy hhealthy).errorLed
    · rw [hstate] at henter
      exact hfault.ne_none (h.hardError henter)
  | handles e hfault henters hstate hled hdiagnostics =>
    refine ⟨fun hannounced => ?_, fun hhealthy => ?_, fun henter => ?_⟩
    · rw [hdiagnostics] at hannounced
      exact (h.announced hannounced).latched hfault hdiagnostics
    · rw [hdiagnostics] at hhealthy
      refine (h.healthy hhealthy).kept hdiagnostics ?_
      rw [hled, hstate, (h.healthy hhealthy).errorLed]
      exact errorLedAfter_dispatchEvent _ _
    · by_cases hold : s.core.state = .hardError
      · exact hfault.ne_none (h.hardError hold)
      · simp [henters hold henter]
  | beats hfault hstate hdiagnostics hled =>
    cases hlatch : s.core.ledger.fault with
    | none =>
      rw [hlatch] at hdiagnostics
      exact h.beatHealthy hlatch hstate hdiagnostics hled
    | some reason =>
      rw [hlatch] at hdiagnostics
      exact h.beatFault hlatch hfault hdiagnostics

theorem told_broughtUp [AsReading ρ] (acquisitionReady linkReady : Bool) :
    Told (.broughtUp acquisitionReady linkReady : State T ρ cfg) := by
  have hstate :
      (State.broughtUp acquisitionReady linkReady : State T ρ cfg).core.state = .startup := rfl
  refine ⟨fun h => (Bool.false_ne_true h).elim, fun _ => ⟨rfl, rfl, rfl, rfl⟩, fun h => ?_⟩
  simp [hstate] at h

/-- From `d` to `d'`, a fault being shown in both, the blink has changed its phase as often as
heartbeats were handled. -/
def Blinked (d d' : SystemDiagnostics.State) : Prop :=
  (d'.faultBlinkOn ^^ (d'.heartbeatCount % 2 == 1)) =
    (d.faultBlinkOn ^^ (d.heartbeatCount % 2 == 1))

/-- A heartbeat of a device with a latched fault counts, and changes the phase. -/
theorem blinked_executeEvent (reason : Eda.Reason) (d : SystemDiagnostics.State) :
    Blinked d (SystemDiagnostics.executeEvent (some reason) d) ∧
      (SystemDiagnostics.executeEvent (some reason) d).heartbeatCount = d.heartbeatCount + 1 := by
  have hcount :
      (SystemDiagnostics.executeEvent (some reason) d).heartbeatCount = d.heartbeatCount + 1 := by
    unfold SystemDiagnostics.executeEvent SystemDiagnostics.annunciateFault
      SystemDiagnostics.logFault
    grind
  refine ⟨?_, hcount⟩
  rw [Blinked, hcount, (SystemDiagnostics.executeEvent_annunciated reason d).blinks, parity_succ,
    Bool.not_xor_not]

/-- A step of a device that shows a fault keeps the phase in step with the heartbeats. -/
theorem Shows.blinked {s s' : State T ρ cfg} (hs : Shows s s') (h : Told s)
    (hannounced : s.diagnostics.faultAnnounced = true) : Blinked s.diagnostics s'.diagnostics := by
  cases hs with
  | latches _ _ _ hdiagnostics | handles _ _ _ _ _ hdiagnostics =>
    rw [hdiagnostics]
    exact rfl
  | beats _ _ hdiagnostics =>
    obtain ⟨reason, hreason, -⟩ := (h.announced hannounced).reason
    rw [hdiagnostics, hreason]
    exact (blinked_executeEvent reason { s.diagnostics with errorLed := s.core.errorLed }).1

/-- In `HARD_ERROR`, the error and the activity LED blink together. -/
structure InStep (s : State T ρ cfg) : Prop where
  state : s.core.state = .hardError
  announced : s.diagnostics.faultAnnounced = true
  errorLed : s.core.errorLed = s.diagnostics.faultBlinkOn
  activityLed : s.diagnostics.activityLed = s.diagnostics.faultBlinkOn

/-- A heartbeat in `HARD_ERROR` brings them in step. -/
theorem inStep_of_beat {s s' : State T ρ cfg} (h : Told s) (hstate : s.core.state = .hardError)
    (hstate' : s'.core.state = s.core.state)
    (hdiagnostics : s'.diagnostics = SystemDiagnostics.executeEvent s.core.ledger.fault
      { s.diagnostics with errorLed := s.core.errorLed })
    (hled : s'.core.errorLed = s'.diagnostics.errorLed) : InStep s' := by
  obtain ⟨reason, hreason⟩ := Option.ne_none_iff_exists'.1 (h.hardError hstate)
  have hshown := SystemDiagnostics.executeEvent_annunciated reason
    { s.diagnostics with errorLed := s.core.errorLed }
  rw [← hreason, ← hdiagnostics] at hshown
  exact ⟨hstate'.trans hstate, hshown.announced, hled.trans hshown.errorLed, hshown.activityLed⟩

/-- Nothing brings them out of step again. -/
theorem InStep.shows {s s' : State T ρ cfg} (hs : Shows s s') (h : Told s ∧ InStep s) :
    Told s' ∧ InStep s' := by
  obtain ⟨htold, h⟩ := h
  refine ⟨htold.shows hs, ?_⟩
  cases hs with
  | latches _ hstate hled hdiagnostics =>
    exact ⟨hstate.trans h.state, by simp [hdiagnostics, h.announced],
      by simp [hled, hdiagnostics, h.errorLed], by simp [hdiagnostics, h.activityLed]⟩
  | handles e _ _ hstate hled hdiagnostics =>
    -- No event is handled in the state.
    rw [h.state] at hstate hled
    exact ⟨hstate, by simp [hdiagnostics, h.announced],
      hled.trans (h.errorLed.trans (by rw [hdiagnostics])), by simp [hdiagnostics, h.activityLed]⟩
  | beats _ hstate hdiagnostics hled => exact inStep_of_beat htold h.state hstate hdiagnostics hled

/-- A heartbeat that is handled shows the fault that is latched. -/
theorem executeHeartbeat_shows [AsReading ρ] {s : State T ρ cfg}
    (hqueued : s.diagnosticsQueue.items ≠ []) :
    let s' := Act.executeHeartbeat.run s
    s'.core.state = s.core.state ∧ s'.core.errorLed = s'.diagnostics.errorLed ∧
      s'.diagnostics = SystemDiagnostics.executeEvent s.core.ledger.fault
        { s.diagnostics with errorLed := s.core.errorLed } := by
  simp only [Act.run, Act.act, State.executeHeartbeat]
  split
  · next hget => exact absurd (Fifo.tryGet_eq_none hget) hqueued
  · exact ⟨rfl, rfl, rfl⟩

/-- An announced fault stays announced, and blinks with the heartbeats. -/
theorem announced_kept [AsReading ρ] {c c' : (firmware T ρ cfg).Conf} (hc' : Reach .all c c')
    (h : Told c.state) (hannounced : c.state.diagnostics.faultAnnounced = true) :
    c'.state.diagnostics.faultAnnounced = true ∧
      Blinked c.state.diagnostics c'.state.diagnostics := by
  refine (kept_of_shows (I := fun s => Told s ∧ s.diagnostics.faultAnnounced = true ∧
    Blinked c.state.diagnostics s.diagnostics) (fun s s' hs hkept => ?_) hc'
    ⟨h, hannounced, rfl⟩).2
  obtain ⟨htold, hannounced, hblinked⟩ := hkept
  refine ⟨htold.shows hs, ?_, (hs.blinked htold hannounced).trans hblinked⟩
  cases hs with
  | latches _ _ _ hdiagnostics | handles _ _ _ _ _ hdiagnostics =>
    rw [hdiagnostics]
    exact hannounced
  | beats _ _ hdiagnostics =>
    rw [hdiagnostics]
    exact executeEvent_announced _ hannounced

/-- A latched fault stays the one that is latched. -/
theorem fault_kept [AsReading ρ] {c c' : (firmware T ρ cfg).Conf} (hc' : Reach .all c c') :
    Latched c.state.core.ledger.fault c'.state.core.ledger.fault := by
  refine kept_of_shows (I := fun s => Latched c.state.core.ledger.fault s.core.ledger.fault)
    (fun s s' hs h => h.trans ?_) hc' (.refl _)
  cases hs with
  | latches hfault => exact hfault
  | handles _ hfault => exact hfault
  | beats hfault => simp [hfault, Latched.refl]

/-- The application enters `HARD_ERROR` with what was latched, or else with `UNRECOVERABLE`. -/
theorem fault_of_handleEvent [AsReading ρ] {s : State T ρ cfg} (hout : s.core.state ≠ .hardError)
    (hin : (Act.handleEvent.run s).core.state = .hardError) :
    (Act.handleEvent.run s).core.ledger.fault =
      some (s.core.ledger.fault.getD .unrecoverable) := by
  rcases Shows.handleEvent s with ⟨-, hstate⟩ | ⟨e, -, henters⟩ | ⟨-, hstate⟩
  · exact absurd (hstate.symm.trans hin) hout
  · exact henters hout hin
  · exact absurd (hstate.symm.trans hin) hout

/-- **The LEDs tell what there is to tell.** In every run after any bring-up, whoever posts what:
what the LEDs show at any time means what `Told` says; a fault that is latched stays the one that is
latched, and shown once it was shown, with as many changes of phase as heartbeats are handled; the
application gives up with the fault that is latched, or else with `UNRECOVERABLE`; each heartbeat
that finds a fault announces it and changes the phase; and from the first heartbeat that is handled
in `HARD_ERROR` on, the device stays there, and its error and its activity LED blink together. -/
theorem leds_tell [AsReading ρ] {acquisitionReady linkReady : Bool} {c : (firmware T ρ cfg).Conf}
    (hc : Reach .all (booted T ρ cfg acquisitionReady linkReady) c) :
    Told c.state ∧
      (∀ c' : (firmware T ρ cfg).Conf, Reach .all c c' →
        Latched c.state.core.ledger.fault c'.state.core.ledger.fault ∧
          (c.state.diagnostics.faultAnnounced = true →
            c'.state.diagnostics.faultAnnounced = true ∧
              Blinked c.state.diagnostics c'.state.diagnostics)) ∧
      (c.state.core.state ≠ .hardError → (Act.handleEvent.run c.state).core.state = .hardError →
        (Act.handleEvent.run c.state).core.ledger.fault =
          some (c.state.core.ledger.fault.getD .unrecoverable)) ∧
      (c.state.diagnosticsQueue.items ≠ [] →
        let beaten := Act.executeHeartbeat.run c.state
        (c.state.core.ledger.fault ≠ none →
          SystemDiagnostics.Annunciated c.state.diagnostics beaten.diagnostics ∧
            beaten.diagnostics.heartbeatCount = c.state.diagnostics.heartbeatCount + 1) ∧
        (c.state.core.state = .hardError →
          ∀ c' : (firmware T ρ cfg).Conf, Reach .all ⟨beaten, c.running⟩ c' →
            InStep c'.state)) := by
  have htold : Told c.state :=
    kept_of_shows (fun _ _ hs h => h.shows hs) hc (told_broughtUp acquisitionReady linkReady)
  refine ⟨htold, fun c' hc' => ⟨fault_kept hc', announced_kept hc' htold⟩, fault_of_handleEvent,
    fun hqueued => ?_⟩
  intro beaten
  obtain ⟨hstate', hled, hdiagnostics⟩ := executeHeartbeat_shows hqueued
  refine ⟨fun hfault => ?_, fun hstate c' hc' => ?_⟩
  · obtain ⟨reason, hreason⟩ := Option.ne_none_iff_exists'.1 hfault
    have hshown := SystemDiagnostics.executeEvent_annunciated reason
      { c.state.diagnostics with errorLed := c.state.core.errorLed }
    have hcount := (blinked_executeEvent reason
      { c.state.diagnostics with errorLed := c.state.core.errorLed }).2
    rw [← hreason, ← hdiagnostics] at hshown hcount
    exact ⟨⟨hshown.blinks, hshown.errorLed, hshown.activityLed, hshown.announced⟩, hcount⟩
  · have hbeat : InStep beaten := inStep_of_beat htold hstate hstate' hdiagnostics hled
    have htold' := htold.shows (.run Act.executeHeartbeat c.state)
    exact (kept_of_shows (fun _ _ hs h => InStep.shows hs h) hc' ⟨htold', hbeat⟩).2

/-- A heartbeat is queued in `HARD_ERROR`. -/
def beatsInHardError (c : (firmware (socketLink 242) Reading (.ofDevices 1)).Conf) : Bool :=
  c.state.core.state = .hardError ∧ c.state.diagnosticsQueue.items ≠ [] ∧
    c.state.core.ledger.fault = some .unrecoverable

/-- A device that gave up, at its first heartbeat. -/
theorem leds_tell_hardError :
    ∃ c : (firmware (socketLink 242) Reading (.ofDevices 1)).Conf,
      c.state.core.state = .hardError ∧ c.state.core.ledger.fault = some .unrecoverable ∧
      SystemDiagnostics.Annunciated c.state.diagnostics
        (Act.executeHeartbeat.run c.state).diagnostics ∧
      InStep (Act.executeHeartbeat.run c.state) := by
  obtain ⟨c, hc, hbeats⟩ := Reach.exists_of_run [.other (Act.postToApp .servicesFailed),
      .other Act.handleEvent, .other Act.expireHeartbeatTimer]
    (c := booted (socketLink 242) Reading (.ofDevices 1) true true) beatsInHardError
    (by decide +kernel)
  obtain ⟨hstate, hqueued, hfault⟩ := of_decide_eq_true hbeats
  obtain ⟨hshows, hblinks⟩ := (leds_tell hc).2.2.2 hqueued
  exact ⟨c, hstate, hfault, (hshows (by simp [hfault])).1, hblinks hstate _ .refl⟩

end Concentrator.Firmware
