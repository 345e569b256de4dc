import Concentrator.Firmware.Discipline

/-!
# Told to stop, off the air

`HARD_ERROR` tells comms to stop, and no event leaves that state. A start that was on its way is
ahead of the stop in the queue, and nothing starts comms after it. So once comms has handled the
stop, the flag is down for good: a dispatch that is asked for, before or after, ends at the flag.
-/

namespace Concentrator.Firmware

open Threaded

variable {T : Transport} {ρ : Type} {cfg : Config}

/-- Comms has handled a stop. -/
def State.Stopped (s : State T ρ cfg) : Prop := .handled .stopDispatch ∈ s.comms

/-- Once comms has handled one more event, it was a stop or there had been one. -/
theorem State.stopped_handled {s s' : State T ρ cfg} {e : Comms.Event}
    (hcomms : s'.comms = .handled e :: s.comms) (h : s'.Stopped) :
    e = .stopDispatch ∨ s.Stopped := by
  unfold State.Stopped at h
  rw [hcomms] at h
  rcases List.mem_cons.1 h with heq | hmem
  · exact .inl (CommsItem.handled.inj heq).symm
  · exact .inr hmem

/-- What every step keeps, after any bring-up, whoever posts what. -/
structure OffAir (s : State T ρ cfg) : Prop where
  /-- Only `HARD_ERROR` tells comms to stop. -/
  told : .stopDispatch ∈ s.core.commsQueue.items ∨ s.core.executing = some .stopDispatch ∨
    s.Stopped → s.core.state = .hardError
  /-- No start is queued behind a stop. -/
  behind : s.core.commsQueue.items.Pairwise fun e later =>
    e = .stopDispatch → later ≠ .startDispatch
  /-- None is left once the stop is taken. -/
  last : s.core.executing = some .stopDispatch ∨ s.Stopped →
    .startDispatch ∉ s.core.commsQueue.items ∧ s.core.executing ≠ some .startDispatch
  off : s.Stopped → s.core.dispatchEnabled = false ∧ s.core.dispatchTimer = false
  silent : ∀ later earlier, s.comms = later ++ .handled .stopDispatch :: earlier →
    ∀ uplink, .handedOver uplink ∉ later

namespace OffAir

variable {s s' : State T ρ cfg}

/-- One more item in the log: it is no uplink, or comms is on the air. -/
theorem silent_cons (h : OffAir s) {item : CommsItem ρ}
    (hitem : s.Stopped → ∀ uplink, item ≠ .handedOver uplink) :
    ∀ later earlier, item :: s.comms = later ++ .handled .stopDispatch :: earlier →
      ∀ uplink, .handedOver uplink ∉ later := by
  intro later earlier heq uplink hmem
  cases later with
  | nil => cases hmem
  | cons first later =>
    obtain ⟨rfl, hcomms⟩ := List.cons.inj heq
    have hstopped : s.Stopped := by
      unfold State.Stopped
      rw [hcomms]
      exact List.mem_append_right _ (.head _)
    rcases List.mem_cons.1 hmem with hfirst | hmem
    · exact hitem hstopped uplink hfirst.symm
    · exact h.silent later earlier hcomms uplink hmem

/-- An act that posts an event to comms at most, and leaves to comms what is its own. -/
theorem post (h : OffAir s) (hown : s'.core.own = s.core.own) (hcomms : s'.comms = s.comms)
    {l : List Comms.Event} (hq : s'.core.commsQueue.items = s.core.commsQueue.items ++ l)
    (hlength : l.length ≤ 1) (hstop : .stopDispatch ∈ l → s'.core.state = .hardError)
    (hterminal : s.core.state = .hardError → .startDispatch ∉ l ∧ s'.core.state = .hardError) :
    OffAir s' := by
  have hexecuting : s'.core.executing = s.core.executing := congrArg Prod.fst hown
  have henabled : s'.core.dispatchEnabled = s.core.dispatchEnabled :=
    congrArg (fun own => own.2.1) hown
  have htimer : s'.core.dispatchTimer = s.core.dispatchTimer :=
    congrArg (fun own => own.2.2.1) hown
  have hstopped : s'.Stopped ↔ s.Stopped := by
    unfold State.Stopped
    rw [hcomms]
  constructor
  · rw [hq, hexecuting, hstopped, List.mem_append]
    rintro ((hmem | hmem) | htold)
    · exact (hterminal (h.told (.inl hmem))).2
    · exact hstop hmem
    · exact (hterminal (h.told (.inr htold))).2
  · rw [hq, List.pairwise_append]
    refine ⟨h.behind, ?_, ?_⟩
    · match l, hlength with
      | [], _ => exact .nil
      | [e], _ => exact List.pairwise_singleton _ e
    · rintro e he e' he' rfl rfl
      exact (hterminal (h.told (.inl he))).1 he'
  · rw [hq, hexecuting, hstopped, List.mem_append, not_or]
    intro htaken
    obtain ⟨hnone, hstart⟩ := h.last htaken
    exact ⟨⟨hnone, (hterminal (h.told (.inr htaken))).1⟩, hstart⟩
  · rw [hstopped, henabled, htimer]
    exact h.off
  · rw [hcomms]
    exact h.silent

/-- Comms takes an event: one it is told to start with is not behind a stop. -/
theorem start (h : OffAir s) {e : Comms.Event} {q : Eda.EventQueue Comms.Event}
    (hget : s.core.commsQueue.tryGet = some (e, q)) :
    OffAir { s with core := { s.core with commsQueue := q, executing := some e } } := by
  have hitems := Fifo.tryGet_eq_some hget
  obtain ⟨hnext, hrest⟩ := List.pairwise_cons.1 (hitems ▸ h.behind)
  constructor
  · rintro (hmem | hexecuting | hstopped)
    · refine h.told (.inl ?_)
      rw [hitems]
      exact .tail _ hmem
    · refine h.told (.inl ?_)
      rw [hitems, Option.some.inj hexecuting]
      exact .head _
    · exact h.told (.inr (.inr hstopped))
  · exact hrest
  · rintro (hexecuting | hstopped)
    · cases hexecuting
      exact ⟨fun hmem => hnext _ hmem rfl rfl, fun heq => (nomatch heq)⟩
    · obtain ⟨hnone, -⟩ := h.last (.inr hstopped)
      rw [hitems] at hnone
      refine ⟨fun hmem => hnone (.tail _ hmem), fun heq => hnone ?_⟩
      rw [Option.some.inj heq]
      exact .head _
  · exact h.off
  · exact h.silent

/-- Comms has handled an event: a stop, when the flag is down and the timer is off. -/
theorem handled (h : OffAir s) {e : Comms.Event} (hexecuting : s.core.executing = some e)
    (hdone : e = .stopDispatch → s.core.dispatchEnabled = false ∧ s.core.dispatchTimer = false)
    (hq : s'.core.commsQueue = s.core.commsQueue) (hstate : s'.core.state = s.core.state)
    (hnone : s'.core.executing = none)
    (henabled : s'.core.dispatchEnabled = s.core.dispatchEnabled)
    (htimer : s'.core.dispatchTimer = s.core.dispatchTimer)
    (hcomms : s'.comms = .handled e :: s.comms) : OffAir s' := by
  have hnew (hstopped : s'.Stopped) : s.core.executing = some .stopDispatch ∨ s.Stopped := by
    rcases State.stopped_handled hcomms hstopped with rfl | hstopped
    · exact .inl hexecuting
    · exact .inr hstopped
  constructor
  · rw [hq, hstate, hnone]
    rintro (hmem | hexec | hstopped)
    · exact h.told (.inl hmem)
    · cases hexec
    · exact h.told (.inr (hnew hstopped))
  · rw [hq]
    exact h.behind
  · rw [hq, hnone]
    rintro (hexec | hstopped)
    · cases hexec
    · exact ⟨(h.last (hnew hstopped)).1, fun heq => (nomatch heq)⟩
  · rw [henabled, htimer]
    intro hstopped
    rcases State.stopped_handled hcomms hstopped with heq | hstopped
    · exact hdone heq
    · exact h.off hstopped
  · rw [hcomms]
    exact h.silent_cons fun _ _ heq => (nomatch heq)

end OffAir

section
variable [AsReading ρ]

/-- A call of the service in a cycle: comms is on the air. -/
theorem OffAir.cycle {s : State T ρ cfg} (h : OffAir s) (o : Comms.CommsOp ρ) (ans : T.Answer)
    (henabled : s.core.dispatchEnabled = true) : OffAir (perform (.cycle o) ans s).2 := by
  have hon : ¬ s.Stopped := by
    intro hstopped
    rw [(h.off hstopped).1] at henabled
    cases henabled
  cases o with
  | send uplink =>
    have hstopped : ¬ CommsItem.handled .stopDispatch ∈ CommsItem.handedOver uplink :: s.comms :=
      fun hmem => hon ((List.mem_cons.1 hmem).resolve_left fun heq => nomatch heq)
    exact
      { told := fun htold => h.told (htold.imp_right (·.imp_right fun hs => (hstopped hs).elim))
        behind := h.behind
        last := fun htaken => h.last (htaken.imp_right fun hs => (hstopped hs).elim)
        off := fun hs => (hstopped hs).elim
        silent := h.silent_cons fun hs => (hon hs).elim }
  | _ => exact ⟨h.told, h.behind, h.last, h.off, h.silent⟩

/-- The duties of comms. -/
theorem offAir_duties :
    Comms.Duties (host T ρ cfg) .all OffAir fun _ _ => True where
  other x s _ h := by
    obtain ⟨l, hq, hlength, hstop, hterminal⟩ := run_commsQueue x s
    exact h.post (run_own x s) (run_comms x s) hq hlength hstop hterminal
  known _ _ _ _ _ _ := trivial
  start s p s' h _ hstart := by
    obtain ⟨e, q, hget, -, rfl⟩ := start_eq_some hstart
    exact h.start hget
  connect _ _ _ h _ := ⟨⟨h.told, h.behind, h.last, h.off, h.silent⟩, trivial⟩
  outcome result ans s h _ hexecuting := by
    exact h.handled hexecuting (fun heq => (nomatch heq)) rfl rfl rfl rfl rfl
      (noteHandled_comms hexecuting)
  cycle o ans s _ h hin := h.cycle o ans hin.2
  enable _ s h hexecuting :=
    { told := h.told
      behind := h.behind
      last := h.last
      off := fun hs => ((h.last (.inr hs)).2 hexecuting).elim
      silent := h.silent }
  startTimer _ s h hexecuting :=
    { told := h.told
      behind := h.behind
      last := h.last
      off := fun hs => ((h.last (.inr hs)).2 hexecuting).elim
      silent := h.silent }
  disable _ s h _ := ⟨h.told, h.behind, h.last, fun hs => ⟨rfl, (h.off hs).2⟩, h.silent⟩
  stopTimer _ s h _ := ⟨h.told, h.behind, h.last, fun hs => ⟨(h.off hs).1, rfl⟩, h.silent⟩
  finish s h _ hdone := by
    cases hexecuting : s.core.executing with
    | none =>
      show OffAir { s.noteHandled with core := { s.core with executing := none } }
      rw [noteHandled_of_none hexecuting, ← hexecuting]
      exact h
    | some e =>
      exact h.handled hexecuting (fun he => hdone.stopped (hexecuting.trans (congrArg some he)))
        rfl rfl rfl rfl rfl (noteHandled_comms hexecuting)

theorem offAir_broughtUp (acquisitionReady linkReady : Bool) :
    OffAir (.broughtUp acquisitionReady linkReady : State T ρ cfg) := by
  have hq : (State.broughtUp acquisitionReady linkReady : State T ρ cfg).core.commsQueue.items =
      if acquisitionReady then [.joinNetwork] else [] := by
    cases acquisitionReady <;> rfl
  have hnone : ¬ (State.broughtUp acquisitionReady linkReady : State T ρ cfg).Stopped :=
    fun h => nomatch h
  constructor
  · rw [hq]
    rintro (hmem | hexecuting | hstopped)
    · split at hmem
      · cases List.mem_singleton.1 hmem
      · cases hmem
    · cases hexecuting
    · exact absurd hstopped hnone
  · rw [hq]
    split
    · exact List.pairwise_singleton _ _
    · exact .nil
  · rintro (hexecuting | hstopped)
    · cases hexecuting
    · exact absurd hstopped hnone
  · exact fun hstopped => absurd hstopped hnone
  · intro later earlier heq
    exact absurd heq.symm (List.append_ne_nil_of_right_ne_nil _ (List.cons_ne_nil _ _))

/-- **A device told to stop stays off the air.** In every run after any bring-up, whoever posts what
to the application and asks for however many dispatches: once comms has handled the stop, nothing is
handed to the link and the dispatch timer does not run. -/
theorem stopped_silent {acquisitionReady linkReady : Bool} {c : (firmware T ρ cfg).Conf}
    (hc : Reach .all (booted T ρ cfg acquisitionReady linkReady) c)
    {later earlier : List (CommsItem ρ)}
    (hstopped : c.state.comms = later ++ .handled .stopDispatch :: earlier) :
    (∀ uplink, .handedOver uplink ∉ later) ∧ c.state.core.dispatchTimer = false := by
  have h := offAir_duties.reach rfl (offAir_broughtUp acquisitionReady linkReady) rfl hc
  have hmem : c.state.Stopped := by
    unfold State.Stopped
    rw [hstopped]
    exact List.mem_append_right _ (.head _)
  exact ⟨h.silent later earlier hstopped, (h.off hmem).2⟩

end

/-- Comms has been asked for a dispatch after it was told to stop, and has handled both. -/
def askedAfterStop (c : (firmware (socketLink 242) Reading (.ofDevices 1)).Conf) : Bool :=
  match c.state.comms with
  | .handled .dispatchNow :: .handled .stopDispatch :: _ => true
  | _ => false

/-- A device that reached the network is told to stop, and asked for a dispatch afterwards. -/
theorem stopped_silent_asked :
    ∃ (c : (firmware (socketLink 242) Reading (.ofDevices 1)).Conf)
      (earlier : List (CommsItem Reading)),
      c.state.comms = [.handled .dispatchNow] ++ .handled .stopDispatch :: earlier ∧
      c.state.core.dispatchTimer = false := by
  let accept : SocketAnswer := ⟨0, 3, 0, fun _ => 1⟩
  obtain ⟨c, hc, hasked⟩ := Reach.exists_of_run [.start, .call accept, .call accept,
      .other Act.handleEvent, .start, .call accept, .call accept,
      .other (Act.postToApp .hardError), .other Act.handleEvent, .start, .call accept,
      .call accept, .other (Act.postDispatch ⟨_, .inr rfl⟩), .start, .call accept]
    (c := booted (socketLink 242) Reading (.ofDevices 1) true true) askedAfterStop
    (by decide +kernel)
  unfold askedAfterStop at hasked
  split at hasked
  · next earlier hcomms =>
    have hstopped : c.state.comms = [.handled .dispatchNow] ++ .handled .stopDispatch :: earlier :=
      hcomms
    exact ⟨c, earlier, hstopped, (stopped_silent hc hstopped).2⟩
  · cases hasked

end Concentrator.Firmware
