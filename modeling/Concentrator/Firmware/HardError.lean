import Concentrator.Firmware.Discipline
import Concentrator.System.Tokens

/-!
# What `HARD_ERROR` promises

`HARD_ERROR` leaves the LEDs to the diagnostics service and tells acquisition and comms to stop. The
bring-up stops at the first service that fails, so the diagnostics service is there only when both
services before it came up. `hardError_keeps_iff` says that this is the whole condition: after a
complete bring-up the promises are kept in every run in which the two queues have room when the
state is entered, and after any other one there is a run in which they are broken.
-/

namespace Concentrator.Firmware

open Threaded

variable {T : Transport} {ρ : Type} {cfg : Config}

/-! ## The promises -/

/-- Acquisition's port has accepted the event. -/
def State.AcquisitionAccepted (s : State T ρ cfg) (e : Acquisition.Event) : Prop :=
  e ∈ s.core.acquisitionQueue.items ∨ e ∈ s.commands

/-- Comms' port has accepted the event. -/
def State.CommsAccepted (s : State T ρ cfg) (e : Comms.Event) : Prop :=
  e ∈ s.core.commsQueue.items ∨ s.core.executing = some e ∨ .handled e ∈ s.comms

/-- What `HARD_ERROR` promises: the diagnostics service is up, so that every heartbeat is posted and
annunciates the fault, and both services have been told to stop. -/
structure KeepsPromises [AsReading ρ] (s : State T ρ cfg) : Prop where
  diagnosticsPort : s.core.registered .systemDiagnosticsPort = true
  heartbeatTimer : s.heartbeatTimer = true
  posted : (Act.expireHeartbeatTimer.run s).diagnosticsQueue.items ≠ []
  annunciated : s.diagnosticsQueue.items ≠ [] →
    SystemDiagnostics.Annunciated s.diagnostics (Act.executeHeartbeat.run s).diagnostics ∧
      (Act.executeHeartbeat.run s).core.errorLed =
        (Act.executeHeartbeat.run s).diagnostics.errorLed
  acquisitionPort : s.core.registered .acquisitionPort = true
  stopScan : s.AcquisitionAccepted .stopScan
  commsPort : s.core.registered .commsPort = true
  stopDispatch : s.CommsAccepted .stopDispatch

/-! ## What no step takes back -/

/-- What no step of the core takes back: a registration, a fault, an event in a queue. -/
structure Onward (s s' : System.State T ρ cfg) : Prop where
  registered : s'.registered = s.registered
  fault : s.ledger.fault ≠ none → s'.ledger.fault ≠ none
  acquisition : s.acquisitionQueue.items <+: s'.acquisitionQueue.items
  comms : s.commsQueue.items <+: s'.commsQueue.items

namespace Onward

theorem refl (s : System.State T ρ cfg) : Onward s s :=
  ⟨rfl, id, List.prefix_refl _, List.prefix_refl _⟩

theorem trans {s s₁ s₂ : System.State T ρ cfg} (h : Onward s s₁) (h' : Onward s₁ s₂) :
    Onward s s₂ where
  registered := h'.registered.trans h.registered
  fault hf := h'.fault (h.fault hf)
  acquisition := h.acquisition.trans h'.acquisition
  comms := h.comms.trans h'.comms

theorem sendToApp (e : App.Event) (s : System.State T ρ cfg) : Onward s (s.sendToApp e) where
  registered := rfl
  fault := Eda.sendEvent_fault _ _ _
  acquisition := List.prefix_refl _
  comms := List.prefix_refl _

theorem sendToComms (e : Comms.Event) (s : System.State T ρ cfg) : Onward s (s.sendToComms e) where
  registered := rfl
  fault := Eda.sendEvent_fault _ _ _
  acquisition := List.prefix_refl _
  comms := Eda.sendEvent_prefix _ _ _

theorem carryOut (a : App.Action) (s : System.State T ρ cfg) : Onward s (s.carryOut a) := by
  cases a with
  | sendToComms e => exact sendToComms e s
  | sendToAcquisition e =>
    exact ⟨rfl, Eda.sendEvent_fault _ _ _, Eda.sendEvent_prefix _ _ _, List.prefix_refl _⟩
  | report reason =>
    refine ⟨rfl, fun hfault => ?_, List.prefix_refl _, List.prefix_refl _⟩
    obtain ⟨first, hfirst⟩ := Option.ne_none_iff_exists'.1 hfault
    show Eda.report reason s.ledger.fault ≠ none
    rw [hfirst]
    exact Option.some_ne_none first
  | _ => exact ⟨rfl, id, List.prefix_refl _, List.prefix_refl _⟩

/-- The induction is on the actions of a handler. -/
theorem foldl_carryOut (actions : List App.Action) (s : System.State T ρ cfg) :
    Onward s (actions.foldl System.State.carryOut s) := by
  induction actions generalizing s with
  | nil => exact refl s
  | cons a actions ih => exact (carryOut a s).trans (ih _)

theorem postBringUp (s : System.State T ρ cfg) : Onward s s.postBringUp := by
  rcases System.postBringUp_cases s with hs | ⟨e, -, hs⟩ <;> rw [hs]
  · exact refl s
  · exact ⟨rfl, (sendToApp e s).fault, List.prefix_refl _, List.prefix_refl _⟩

theorem expireRetryTimer (s : System.State T ρ cfg) : Onward s s.expireRetryTimer := by
  rcases System.expireRetryTimer_cases s with hs | hs <;> rw [hs]
  · exact refl s
  · refine ⟨rfl, fun hfault => ?_, List.prefix_refl _, List.prefix_refl _⟩
    rwa [← Eda.sendEventFromIsr_fault App.Event.retryTimeout s.ledger] at hfault

theorem expireDispatchTimer (s : System.State T ρ cfg) : Onward s s.expireDispatchTimer := by
  rcases System.expireDispatchTimer_cases s with hs | ⟨-, hs⟩ <;> rw [hs]
  · exact refl s
  · refine ⟨rfl, fun hfault => ?_, List.prefix_refl _, Eda.sendEventFromIsr_prefix _ _ _⟩
    rwa [← Eda.sendEventFromIsr_fault Comms.Event.dispatchDue s.ledger] at hfault

theorem handleEvent (s : System.State T ρ cfg) : Onward s s.handleEvent := by
  rcases System.handleEvent_cases s with ⟨-, hs⟩ | ⟨e, q, -, hs⟩ <;> rw [hs]
  · exact refl s
  · have htaken : Onward s { s with appQueue := q } :=
      ⟨rfl, id, List.prefix_refl _, List.prefix_refl _⟩
    exact htaken.trans (foldl_carryOut _ _)

end Onward

/-! ## Entering the state -/

/-- The application is about to handle an event that leads to `HARD_ERROR`. -/
def EntersHardError (s : System.State T ρ cfg) : Prop :=
  s.state ≠ .hardError ∧ ∃ e, s.appQueue.items.head? = some e ∧
    App.settle s.state (App.dispatchEvent s.state e) = .hardError

/-- Both queues have room for the event that tells the service to stop. -/
def StopRoom (s : System.State T ρ cfg) : Prop :=
  s.acquisitionQueue.items.length < Eda.QUEUE_LENGTH ∧
    s.commsQueue.items.length < Eda.QUEUE_LENGTH

/-- Leaving a state touches neither the ports nor their queues. -/
theorem exit_queues (current : App.StateId) (s : System.State T ρ cfg) :
    ((App.exit current).foldl System.State.carryOut s).registered = s.registered ∧
      ((App.exit current).foldl System.State.carryOut s).acquisitionQueue = s.acquisitionQueue ∧
      ((App.exit current).foldl System.State.carryOut s).commsQueue = s.commsQueue := by
  cases current <;> exact ⟨rfl, rfl, rfl⟩

/-- Entering `HARD_ERROR` latches a fault, and posts both stops where there is room. -/
theorem entry_hardError {s : System.State T ρ cfg} (hregistered : ∀ port, s.registered port = true)
    (hroom : StopRoom s) :
    let s' := (App.entry .hardError).foldl System.State.carryOut s
    s'.ledger.fault ≠ none ∧ .stopScan ∈ s'.acquisitionQueue.items ∧
      .stopDispatch ∈ s'.commsQueue.items := by
  intro s'
  let s₁ := s.carryOut (.report .unrecoverable)
  let s₂ := s₁.sendToAcquisition .stopScan
  have hfault : s₁.ledger.fault ≠ none := by
    show Eda.report .unrecoverable s.ledger.fault ≠ none
    cases s.ledger.fault <;> exact Option.some_ne_none _
  have hscan : s₂.acquisitionQueue.items = s.acquisitionQueue.items ++ [.stopScan] := by
    show (Eda.sendEvent (s.registered .acquisitionPort) _ s.acquisitionQueue _).1.items = _
    rw [hregistered]
    exact (Eda.sendEvent_room _ _ hroom.1).1
  have hdispatch : s'.commsQueue.items = s.commsQueue.items ++ [.stopDispatch] := by
    show (Eda.sendEvent (s.registered .commsPort) _ s.commsQueue _).1.items = _
    rw [hregistered]
    exact (Eda.sendEvent_room _ _ hroom.2).1
  refine ⟨?_, ?_, ?_⟩
  · exact Eda.sendEvent_fault _ _ _ (Eda.sendEvent_fault _ _ _ hfault)
  · show Acquisition.Event.stopScan ∈ s₂.acquisitionQueue.items
    rw [hscan]
    exact List.mem_append_right _ (.head _)
  · rw [hdispatch]
    exact List.mem_append_right _ (.head _)

/-- The application enters `HARD_ERROR` while all ports are registered and both queues have room. -/
theorem handleEvent_enters {s : System.State T ρ cfg}
    (hregistered : ∀ port, s.registered port = true) (hroom : EntersHardError s → StopRoom s)
    (hstate : s.state ≠ .hardError) (henter : s.handleEvent.state = .hardError) :
    s.handleEvent.ledger.fault ≠ none ∧ .stopScan ∈ s.handleEvent.acquisitionQueue.items ∧
      .stopDispatch ∈ s.handleEvent.commsQueue.items := by
  rcases System.handleEvent_cases s with ⟨-, hs⟩ | ⟨e, q, hpop, hs⟩ <;> rw [hs] at henter ⊢
  · exact absurd henter hstate
  · have hsettle := (System.foldl_carryOut_state (App.dispatchEvent s.state e)
      { s with appQueue := q }).symm.trans henter
    have hhead : s.appQueue.items.head? = some e := by
      rw [hpop]
      rfl
    have hroom := hroom ⟨hstate, e, hhead, hsettle⟩
    obtain ⟨hports, hacquisition, hcomms⟩ := exit_queues s.state { s with appQueue := q }
    rw [App.dispatchEvent_hardError hstate hsettle, App.transitionTo, List.foldl_append]
    refine entry_hardError (fun port => ?_) ⟨?_, ?_⟩
    · exact (congrFun hports port).trans (hregistered port)
    · exact Nat.lt_of_le_of_lt (Nat.le_of_eq (congrArg (·.items.length) hacquisition)) hroom.1
    · exact Nat.lt_of_le_of_lt (Nat.le_of_eq (congrArg (·.items.length) hcomms)) hroom.2

/-! ## After a complete bring-up -/

/-- What every step keeps after a bring-up in which every service came up, when the queues have room
where `HARD_ERROR` is entered. -/
structure Kept (s : State T ρ cfg) : Prop where
  registered : ∀ port, s.core.registered port = true
  timer : s.heartbeatTimer = true
  hardError : s.core.state = .hardError → s.core.ledger.fault ≠ none ∧
    s.AcquisitionAccepted .stopScan ∧ s.CommsAccepted .stopDispatch

namespace Kept

variable {s : State T ρ cfg}

/-- A step of the core that takes nothing back and does not enter the state. -/
theorem onward (h : Kept s) {core : System.State T ρ cfg} (hcore : Onward s.core core)
    (hstate : core.state = .hardError → s.core.state = .hardError)
    (hexecuting : core.executing = s.core.executing) : Kept { s with core := core } where
  registered port := (congrFun hcore.registered port).trans (h.registered port)
  timer := h.timer
  hardError henter := by
    obtain ⟨hfault, hscan, hdispatch⟩ := h.hardError (hstate henter)
    refine ⟨hcore.fault hfault, hscan.imp_left (hcore.acquisition.subset ·), ?_⟩
    exact hdispatch.imp (hcore.comms.subset ·) (·.imp_left hexecuting.trans)

/-- The application handles an event: it enters the state with both stops posted, or does not enter
it. -/
theorem handleEvent (h : Kept s) (hroom : EntersHardError s.core → StopRoom s.core) :
    Kept { s with core := s.core.handleEvent } := by
  have hown := congrArg Prod.fst (System.handleEvent_own s.core)
  by_cases hstate : s.core.state = .hardError
  · exact h.onward (Onward.handleEvent s.core) (fun _ => hstate) hown
  · refine ⟨fun port => ?_, h.timer, fun henter => ?_⟩
    · exact (congrFun (Onward.handleEvent s.core).registered port).trans (h.registered port)
    · obtain ⟨hfault, hscan, hdispatch⟩ :=
        handleEvent_enters h.registered hroom hstate henter
      exact ⟨hfault, .inl hscan, .inl hdispatch⟩

/-- The acquisition thread takes an event: what its port has accepted it has accepted still. -/
theorem executeCommand (h : Kept s) {result : Int} {e : Acquisition.Event}
    {q : Eda.EventQueue Acquisition.Event} {phase : Acquisition.Phase}
    (hget : s.core.acquisitionQueue.tryGet = some (e, q)) :
    Kept
      { s with
        core := s.core.executeCommand result
        phase := phase
        commands := e :: s.commands } := by
  obtain ⟨isScanning, htaken⟩ := System.executeCommand_taken hget result
  rw [htaken]
  refine ⟨h.registered, h.timer, fun henter => ?_⟩
  obtain ⟨hfault, hscan, hdispatch⟩ := h.hardError henter
  refine ⟨hfault, ?_, hdispatch⟩
  rcases hscan with hqueued | hexecuted
  · rw [Fifo.tryGet_eq_some hget] at hqueued
    rcases List.mem_cons.1 hqueued with rfl | hqueued
    · exact .inr (.head _)
    · exact .inl hqueued
  · exact .inr (.tail _ hexecuted)

/-- Comms takes an event. -/
theorem start (h : Kept s) {e : Comms.Event} {q : Eda.EventQueue Comms.Event}
    (hwaiting : s.core.executing = none) (hget : s.core.commsQueue.tryGet = some (e, q)) :
    Kept { s with core := { s.core with commsQueue := q, executing := some e } } := by
  refine ⟨h.registered, h.timer, fun henter => ?_⟩
  obtain ⟨hfault, hscan, hdispatch⟩ := h.hardError henter
  refine ⟨hfault, hscan, ?_⟩
  rcases hdispatch with hqueued | hexecuting | hhandled
  · rw [Fifo.tryGet_eq_some hget] at hqueued
    rcases List.mem_cons.1 hqueued with rfl | hqueued
    · exact .inr (.inl rfl)
    · exact .inl hqueued
  · rw [hwaiting] at hexecuting
    cases hexecuting
  · exact .inr (.inr hhandled)

/-- Comms has handled an event. -/
theorem noteHandled (h : Kept s) {core : System.State T ρ cfg} (hcore : Onward s.core core)
    (hstate : core.state = s.core.state) : Kept { s.noteHandled with core := core } := by
  obtain ⟨items, hnoted⟩ := noteHandled_eq s
  refine ⟨fun port => ?_, ?_, fun henter => ?_⟩
  · exact (congrFun hcore.registered port).trans (h.registered port)
  · rw [hnoted]
    exact h.timer
  · obtain ⟨hfault, hscan, hdispatch⟩ := h.hardError (hstate.symm.trans henter)
    refine ⟨hcore.fault hfault, ?_, ?_⟩
    · rw [hnoted]
      exact hscan.imp_left (hcore.acquisition.subset ·)
    · rcases hdispatch with hqueued | hexecuting | hhandled
      · exact .inl (hcore.comms.subset hqueued)
      · refine .inr (.inr ?_)
        show _ ∈ s.noteHandled.comms
        rw [noteHandled_comms hexecuting]
        exact .head _
      · refine .inr (.inr ?_)
        rw [hnoted]
        exact List.mem_append_right _ hhandled

/-- In `HARD_ERROR` it is what the state promises. -/
theorem keepsPromises [AsReading ρ] (h : Kept s) (hstate : s.core.state = .hardError) :
    KeepsPromises s := by
  obtain ⟨hfault, hscan, hdispatch⟩ := h.hardError hstate
  refine ⟨h.registered _, h.timer, ?_, fun hqueued => ?_, h.registered _, hscan, h.registered _,
    hdispatch⟩
  · simp only [Act.run, Act.act, State.expireHeartbeatTimer, if_pos h.timer, h.registered]
    exact Eda.sendEventFromIsr_ne_nil _ _
  · obtain ⟨reason, hreason⟩ := Option.ne_none_iff_exists'.1 hfault
    simp only [Act.run, Act.act, State.executeHeartbeat, hreason]
    split
    · next hget => exact absurd (Fifo.tryGet_eq_none hget) hqueued
    · have hshown := SystemDiagnostics.executeEvent_annunciated reason
        { s.diagnostics with errorLed := s.core.errorLed }
      exact ⟨⟨hshown.blinks, hshown.errorLed, hshown.activityLed, hshown.announced⟩, rfl⟩

end Kept

section
variable [AsReading ρ]

variable (T ρ cfg) in
/-- Runs in which both queues have room where `HARD_ERROR` is entered. -/
def roomGuard : (firmware T ρ cfg).Guard where
  call _ _ _ := True
  other
    | .handleEvent, s => EntersHardError s.core → StopRoom s.core
    | _, _ => True

/-- The others keep it. -/
theorem kept_run {x : Act} {s : State T ρ cfg} (hg : (roomGuard T ρ cfg).other x s) (h : Kept s) :
    Kept (x.run s) := by
  suffices hact : Kept (x.act s) from ⟨hact.registered, hact.timer, hact.hardError⟩
  have hdoes := act_does x s
  generalize x.act s = s' at hdoes ⊢
  cases hdoes with
  | handleEvent => exact h.handleEvent hg
  | executeCommand result _ hget => exact h.executeCommand hget
  | postAdvReport _ =>
    refine ⟨h.registered, h.timer, fun henter => ?_⟩
    obtain ⟨hfault, hscan, hdispatch⟩ := h.hardError henter
    refine ⟨?_, hscan.imp_left ((Eda.sendEventFromIsr_prefix _ _ _).subset ·), hdispatch⟩
    rwa [← Eda.sendEventFromIsr_fault Acquisition.Event.advReportAvailable s.core.ledger] at hfault
  | expireHeartbeatTimer _ =>
    refine ⟨h.registered, h.timer, fun henter => ?_⟩
    obtain ⟨hfault, hscan, hdispatch⟩ := h.hardError henter
    refine ⟨?_, hscan, hdispatch⟩
    rwa [← Eda.sendEventFromIsr_fault SystemDiagnostics.Event.heartbeatDue s.core.ledger] at hfault
  | postToApp e => exact h.onward (Onward.sendToApp e s.core) id rfl
  | postDispatch e => exact h.onward (Onward.sendToComms e s.core) id rfl
  | postBringUp =>
    exact h.onward (Onward.postBringUp s.core)
      (System.run_state .postBringUp s.core nofun).symm.trans
      (System.run_executing .postBringUp s.core)
  | expireRetryTimer =>
    exact h.onward (Onward.expireRetryTimer s.core)
      (System.run_state .expireRetryTimer s.core nofun).symm.trans
      (System.run_executing .expireRetryTimer s.core)
  | expireDispatchTimer =>
    exact h.onward (Onward.expireDispatchTimer s.core)
      (System.run_state .expireDispatchTimer s.core nofun).symm.trans
      (System.run_executing .expireDispatchTimer s.core)
  | nothing | tick | refuse | accept | drain | upsert | executeHeartbeat =>
    exact ⟨h.registered, h.timer, h.hardError⟩

/-- The duties of comms: it takes nothing back, and what it has taken it handles. -/
theorem kept_duties : Comms.Duties (host T ρ cfg) (roomGuard T ρ cfg) Kept fun _ _ => True where
  other _ _ hg h := kept_run hg h
  known _ _ _ _ _ _ := trivial
  start s p s' h hwaiting hstart := by
    obtain ⟨e, q, hget, -, rfl⟩ := start_eq_some hstart
    exact h.start hwaiting hget
  connect _ _ _ h _ := ⟨⟨h.registered, h.timer, h.hardError⟩, trivial⟩
  outcome result _ s h _ _ := by
    have hsent : Onward s.core { s.core.sendToApp (Comms.joinOutcome result) with
        executing := none } := ⟨rfl, (Onward.sendToApp _ s.core).fault, List.prefix_refl _,
      List.prefix_refl _⟩
    have hkept := h.noteHandled hsent rfl
    exact ⟨hkept.registered, hkept.timer, hkept.hardError⟩
  cycle o _ s _ h _ := by
    cases o with
    | send uplink =>
      refine ⟨h.registered, h.timer, fun henter => ?_⟩
      obtain ⟨hfault, hscan, hdispatch⟩ := h.hardError henter
      exact ⟨hfault, hscan, hdispatch.imp_right (·.imp_right (List.mem_cons_of_mem _))⟩
    | _ => exact ⟨h.registered, h.timer, h.hardError⟩
  enable _ _ h _ := ⟨h.registered, h.timer, h.hardError⟩
  startTimer _ _ h _ := ⟨h.registered, h.timer, h.hardError⟩
  disable _ _ h _ := ⟨h.registered, h.timer, h.hardError⟩
  stopTimer _ _ h _ := ⟨h.registered, h.timer, h.hardError⟩
  finish s h _ _ := by
    have hdone : Onward s.core { s.core with executing := none } :=
      ⟨rfl, id, List.prefix_refl _, List.prefix_refl _⟩
    exact h.noteHandled hdone rfl

/-- After a complete bring-up every port is registered and the heartbeat timer runs. -/
theorem kept_broughtUp : Kept (.broughtUp true true : State T ρ cfg) where
  registered port := by cases port <;> rfl
  timer := rfl
  hardError henter := nomatch henter

/-! ## After any other one -/

variable (T ρ cfg) in
/-- The firmware once the application has been told how the bring-up went. -/
def told (acquisitionReady linkReady : Bool) : State T ρ cfg :=
  Act.handleEvent.run (Act.postBringUp.run (.broughtUp acquisitionReady linkReady))

variable (T ρ cfg) in
/-- A service that failed leads to `HARD_ERROR`, without the diagnostics service. -/
theorem told_failed {acquisitionReady linkReady : Bool}
    (hfailed : (acquisitionReady && linkReady) = false) :
    (told T ρ cfg acquisitionReady linkReady).core.state = .hardError ∧
      ¬ KeepsPromises (told T ρ cfg acquisitionReady linkReady) := by
  let s : System.State T ρ cfg := .broughtUp acquisitionReady linkReady
  have honward := (Onward.postBringUp s).trans (Onward.handleEvent s.postBringUp)
  have hport : (told T ρ cfg acquisitionReady linkReady).core.registered .systemDiagnosticsPort =
      (acquisitionReady && linkReady) := congrFun honward.registered .systemDiagnosticsPort
  refine ⟨?_, fun hkeeps => ?_⟩
  · cases acquisitionReady with
    | false => cases linkReady <;> rfl
    | true =>
      cases linkReady with
      | false => rfl
      | true => cases hfailed
  · have hup := hkeeps.diagnosticsPort
    rw [hport, hfailed] at hup
    cases hup

/-- That state is reached, and the queues have room on the way. -/
theorem told_reached (acquisitionReady linkReady : Bool) :
    Reach (roomGuard T ρ cfg) (booted T ρ cfg acquisitionReady linkReady)
      ⟨told T ρ cfg acquisitionReady linkReady, none⟩ := by
  have hroom : StopRoom
      (Act.postBringUp.run (.broughtUp acquisitionReady linkReady : State T ρ cfg)).core := by
    have hone : 1 < Eda.QUEUE_LENGTH := by decide
    cases acquisitionReady with
    | true => exact ⟨hone, hone⟩
    | false => exact ⟨hone, Nat.zero_lt_of_lt hone⟩
  have hposted : Reach (roomGuard T ρ cfg) (booted T ρ cfg acquisitionReady linkReady) _ :=
    Reach.refl.step (l := .other .postBringUp) trivial rfl
  exact hposted.step (l := .other .handleEvent) (fun _ => hroom) rfl

/-- **When `HARD_ERROR` keeps its promises.** After a bring-up, in every run in which both queues
have room where the state is entered, the promises hold in every state of it, exactly when
acquisition and comms came up. -/
theorem hardError_keeps_iff (T : Transport) (ρ : Type) [AsReading ρ] (cfg : Config)
    (acquisitionReady linkReady : Bool) :
    (∀ c, Reach (roomGuard T ρ cfg) (booted T ρ cfg acquisitionReady linkReady) c →
      c.state.core.state = .hardError → KeepsPromises c.state) ↔
    acquisitionReady = true ∧ linkReady = true := by
  constructor
  · intro h
    by_contra hfailed
    obtain ⟨hstate, hbroken⟩ := told_failed T ρ cfg
      (Bool.eq_false_iff.2 fun hboth => hfailed (Bool.and_eq_true_iff.1 hboth))
    exact hbroken (h _ (told_reached acquisitionReady linkReady) hstate)
  · rintro ⟨rfl, rfl⟩ c hc hstate
    exact (kept_duties.reach rfl kept_broughtUp rfl hc).keepsPromises hstate

end

/-- A link that does not come up leaves a device in `HARD_ERROR` that does not blink. -/
theorem hardError_breaks :
    ∃ c : (firmware (socketLink 242) Reading (.ofDevices 1)).Conf,
      Reach .all (booted (socketLink 242) Reading (.ofDevices 1) true false) c ∧
      c.state.core.state = .hardError ∧ ¬ KeepsPromises c.state := by
  let c₀ := booted (socketLink 242) Reading (.ofDevices 1) true false
  obtain ⟨hstate, hbroken⟩ := told_failed (socketLink 242) Reading (.ofDevices 1)
    (rfl : (true && false) = false)
  have hrun : run [.other Act.postBringUp, .other Act.handleEvent] c₀ =
      some ⟨told _ _ _ _ _, none⟩ := rfl
  exact ⟨_, .of_run hrun, hstate, hbroken⟩

end Concentrator.Firmware
