import Concentrator.Hal.WifiLink

/-!
# The exits of an association

`associate()` raises `s_associating` while an attempt waits for its result, and the event handler
gives the semaphore only then. The thread here calls `associate()` again and again, and the events
come before, between and during the calls. What a call returns is what the events said
(`truthful_reach`), but a request that is refused leaves the flag up: the attempt is over, the next
event gives the semaphore all the same, and this is the only way in which it happens
(`closes_iff`).
-/

namespace Concentrator.WifiLink

open Threaded

/-! ## Calls among events -/

/-- The variables, with the last connect or disconnect result that was delivered. -/
structure Heard where
  state : State
  lastResult : Option WifiEvent

/-- Whether an event is the result of a connect or a disconnect. -/
def WifiEvent.isResult : WifiEvent → Bool
  | .connectResult _ | .disconnectResult _ => true
  | _ => false

/-- An event comes. -/
def Heard.hear (cfg : WifiConfig) (e : WifiEvent) (h : Heard) : Heard where
  state := (Act.event e).run cfg h.state
  lastResult := if h.state.subscribed && e.isResult then some e else h.lastResult

/-- The last result was a successful connect. -/
def Heard.succeeded (h : Heard) : Bool :=
  match h.lastResult with
  | some (.connectResult status) => status == some 0
  | _ => false

/-- A thread that calls `associate()`, the handler being registered. -/
abbrev attempts (cfg : WifiConfig) : Threaded WifiSig where
  State := Heard
  Answer := Answer
  Act := WifiEvent
  perform o ans h := ((perform o ans h.state).1, { h with state := (perform o ans h.state).2 })
  other e h := h.hear cfg e
  start h := some (associate cfg.ssid >>= fun result => op (.returned result), h)
  finish h := h

/-- With its history. -/
abbrev noted (cfg : WifiConfig) : Threaded WifiSig := (attempts cfg).withHistory

/-- Before the first call, no result having been delivered. -/
def registered (cfg : WifiConfig) : (noted cfg).Conf :=
  ⟨(⟨{ (constructed cfg).state with subscribed := true }, none⟩, []), none⟩

variable {cfg : WifiConfig}

/-! ## What the history says -/

/-- The step raises the flag. -/
def raises (f : Statics → Statics) (s : Statics) : Bool :=
  (f { s with associating := false }).associating

/-- The step puts the flag down. -/
def lowers (f : Statics → Statics) (s : Statics) : Bool :=
  !(f { s with associating := true }).associating

/-- An attempt is under way: the call has said so, and has neither said that it is over, nor had its
request refused, nor returned. -/
def attempting : List (Noted (attempts cfg)) → Bool
  | [] | .start _ :: _ | .call (.returned _) _ _ :: _ => false
  | .call (.modify f) _ h :: items =>
    raises f h.state.statics || (!lowers f h.state.statics && attempting items)
  | .call .requestConnect result _ :: items => result == (0 : Int) && attempting items
  | _ :: items => attempting items

/-- The last request for an association was refused. -/
def refused : List (Noted (attempts cfg)) → Bool
  | [] => false
  | .call .requestConnect result _ :: _ => result != (0 : Int)
  | _ :: items => refused items

/-- The wait of the last call was answered. -/
def answered : List (Noted (attempts cfg)) → Bool
  | [] | .start _ :: _ => false
  | .call .takeAssociateDone result _ :: _ => result
  | _ :: items => answered items

/-- What had been heard when the last call first looked at the variables. -/
def checked : List (Noted (attempts cfg)) → Option Heard
  | [] | .start _ :: _ => none
  | .call .statics _ h :: items => some ((checked items).getD h)
  | _ :: items => checked items

/-- A call that has returned tells the truth: it reports success if its wait was answered and the
last result before its check was a successful connect, and only then. -/
def Truthful : List (Noted (attempts cfg)) → Prop
  | .call (.returned result) _ _ :: items =>
    result = .noError ↔ answered items = true ∧ (checked items).any Heard.succeeded = true
  | _ => True

/-- An event gives the semaphore: it is there after the event, had it not been before. -/
def Gives (ssid : List UInt8) (e : WifiEvent) (s : Statics) : Prop :=
  (onWifiEvent ssid e { s with associateDone := false }).associateDone = true

/-- What is asked of `associate()`, at any moment. -/
structure Closes (c : (noted cfg).Conf) : Prop where
  lowered : c.running = none → c.state.1.state.statics.associating = false
  truthful : c.running = none → Truthful c.state.2
  silent : attempting c.state.2 = false → ∀ e, ¬ Gives cfg.ssid e c.state.1.state.statics

/-! ## What the events do -/

/-- The variables say what was heard last. -/
def Tracks (h : Heard) : Prop := h.state.statics.associated = h.succeeded

/-- Where the variables say that the device is associated, it was heard last. -/
def Believes (h : Heard) : Prop := h.state.statics.associated = true → h.succeeded = true

/-- Moreover, where the semaphore was given, the variables say what was heard last. -/
def Awaits (h : Heard) : Prop :=
  Believes h ∧ (h.state.statics.associateDone = true → Tracks h)

theorem Tracks.believes {h : Heard} (ht : Tracks h) : Believes h :=
  fun hassociated => ht ▸ hassociated

theorem onWifiEvent_associating (ssid : List UInt8) (e : WifiEvent) (s : Statics) :
    (onWifiEvent ssid e s).associating = s.associating := by
  cases e with
  | scanResult result =>
    cases result with
    | none => rfl
    | some result =>
      unfold onWifiEvent
      dsimp only
      split <;> split <;> rfl
  | scanDone => rfl
  | connectResult status | disconnectResult status =>
    unfold onWifiEvent
    dsimp only
    split <;> rfl

theorem hear_associating (e : WifiEvent) (h : Heard) :
    (h.hear cfg e).state.statics.associating = h.state.statics.associating := by
  show (if h.state.subscribed then onWifiEvent cfg.ssid e h.state.statics
    else h.state.statics).associating = _
  split
  · exact onWifiEvent_associating cfg.ssid e _
  · rfl

/-- An event is a result, and the variables say what it says, or it leaves them alone. -/
theorem hear_cases (e : WifiEvent) (h : Heard) :
    Tracks (h.hear cfg e) ∨
      ((h.hear cfg e).state.statics.associated = h.state.statics.associated ∧
        (h.hear cfg e).state.statics.associateDone = h.state.statics.associateDone ∧
        (h.hear cfg e).succeeded = h.succeeded) := by
  obtain ⟨⟨s, subscribed, link, pending, disassociated⟩, lastResult⟩ := h
  cases subscribed with
  | false => exact .inr ⟨rfl, rfl, rfl⟩
  | true =>
    cases e with
    | scanResult result =>
      cases result with
      | none => exact .inr ⟨rfl, rfl, rfl⟩
      | some result =>
        have hscan : (onWifiEvent cfg.ssid (.scanResult (some result)) s).associated =
              s.associated ∧
            (onWifiEvent cfg.ssid (.scanResult (some result)) s).associateDone =
              s.associateDone := by
          unfold onWifiEvent
          dsimp only
          split <;> split <;> exact ⟨rfl, rfl⟩
        exact .inr ⟨hscan.1, hscan.2, rfl⟩
    | scanDone => exact .inr ⟨rfl, rfl, rfl⟩
    | connectResult status =>
      have hresult : (onWifiEvent cfg.ssid (.connectResult status) s).associated =
          (status == some 0) := by
        unfold onWifiEvent
        dsimp only
        split <;> rfl
      exact .inl hresult
    | disconnectResult status =>
      have hresult : (onWifiEvent cfg.ssid (.disconnectResult status) s).associated = false := by
        unfold onWifiEvent
        dsimp only
        split <;> rfl
      exact .inl hresult

section
variable {e : WifiEvent} {h : Heard}

theorem Tracks.hear (ht : Tracks h) : Tracks (h.hear cfg e) := by
  rcases hear_cases e h with hnew | ⟨hassociated, -, hsucceeded⟩
  · exact hnew
  · unfold Tracks
    rw [hassociated, hsucceeded]
    exact ht

theorem Believes.hear (hb : Believes h) : Believes (h.hear cfg e) := by
  rcases hear_cases e h with hnew | ⟨hassociated, -, hsucceeded⟩
  · exact hnew.believes
  · unfold Believes
    rw [hassociated, hsucceeded]
    exact hb

theorem Awaits.hear (ha : Awaits h) : Awaits (h.hear cfg e) := by
  refine ⟨ha.1.hear, ?_⟩
  rcases hear_cases e h with hnew | ⟨hassociated, hdone, hsucceeded⟩
  · exact fun _ => hnew
  · unfold Tracks
    rw [hassociated, hdone, hsucceeded]
    exact ha.2

/-- The semaphore is given exactly where the flag is up. -/
theorem silent_iff {ssid : List UInt8} {s : Statics} :
    (∀ e, ¬ Gives ssid e s) ↔ s.associating = false := by
  constructor
  · intro hsilent
    by_contra hup
    refine hsilent (.disconnectResult none) ?_
    have hflag : s.associating = true := Bool.of_not_eq_false hup
    unfold Gives onWifiEvent
    exact (congrArg Statics.associateDone (if_pos hflag)).trans rfl
  · intro hdown e
    unfold Gives
    cases e with
    | scanResult result =>
      cases result with
      | none => exact Bool.false_ne_true
      | some result =>
        unfold onWifiEvent
        dsimp only
        split <;> split <;> exact Bool.false_ne_true
    | scanDone => exact Bool.false_ne_true
    | connectResult status | disconnectResult status =>
      unfold onWifiEvent
      dsimp only
      rw [if_neg (by rw [hdown]; exact Bool.false_ne_true)]
      exact Bool.false_ne_true

end

/-! ## In the course of a call -/

/-- Whatever events come before the next step. -/
structure Stage (K : Heard → Prop) (underWay wasRefused wasAnswered : Bool) (check : Option Heard)
    (s : (noted cfg).State) : Prop where
  knows : K s.1
  flag : s.1.state.statics.associating = (underWay || wasRefused)
  attempting : attempting s.2 = underWay
  refused : refused s.2 = wasRefused
  answered : answered s.2 = wasAnswered
  checked : checked s.2 = check

/-- What holds at any moment: the flag is up while an attempt is under way, and after one that was
refused. -/
structure Sound (s : (noted cfg).State) : Prop where
  flag : s.1.state.statics.associating = (attempting s.2 || refused s.2)
  believes : Believes s.1

/-- Between two calls. -/
structure Idle (s : (noted cfg).State) : Prop where
  attempting : attempting s.2 = false
  truthful : Truthful s.2

variable {K : Heard → Prop} {underWay wasRefused wasAnswered : Bool} {check : Option Heard}
  {s : (noted cfg).State}

theorem Stage.sound (hK : ∀ h, K h → Believes h)
    (h : Stage K underWay wasRefused wasAnswered check s) : Sound s := by
  refine ⟨?_, hK _ h.knows⟩
  rw [h.attempting, h.refused]
  exact h.flag

theorem stable_stage (hK : ∀ e h, K h → K (h.hear cfg e)) :
    Stable (.all : Guard (noted cfg)) (Stage K underWay wasRefused wasAnswered check) :=
  fun e s _ h =>
    ⟨hK e s.1 h.knows, (hear_associating e s.1).trans h.flag, h.attempting, h.refused, h.answered,
      h.checked⟩

theorem stable_sound : Stable (.all : Guard (noted cfg)) Sound :=
  fun e s _ h => ⟨(hear_associating e s.1).trans h.flag, h.believes.hear⟩

theorem stable_idle : Stable (.all : Guard (noted cfg)) Idle :=
  fun _ _ _ h => ⟨h.attempting, h.truthful⟩

/-- The call returns. -/
theorem wp_returned (h : Stage Believes false wasRefused wasAnswered check s) {result : LinkError}
    (htruth : result = .noError ↔ wasAnswered = true ∧ check.any Heard.succeeded = true) :
    wp .all Sound (op (.returned result)) (fun _ s => Idle s ∧ Sound s) s := by
  refine wp_call _ h (stable_stage fun _ _ hb => hb.hear) fun s' h' ans _ => ?_
  have hsound : Sound ((noted cfg).perform (.returned result) ans s').2 :=
    ⟨h'.flag.trans (congrArg (false || ·) h'.refused.symm), h'.knows⟩
  refine ⟨hsound, ⟨rfl, ?_⟩, hsound⟩
  show result = .noError ↔ WifiLink.answered s'.2 = true ∧ _
  rw [h'.answered, h'.checked]
  exact htruth

/-- One step of a call, whatever events come before it. -/
theorem wp_staged {α : Type} {o : Op} {f : o.Res → WifiProg α} {Q : α → (noted cfg).State → Prop}
    (hK : ∀ e h, K h → K (h.hear cfg e))
    (h : Stage K underWay wasRefused wasAnswered check s)
    (hf : ∀ s' ans, Stage K underWay wasRefused wasAnswered check s' →
      Sound ((noted cfg).perform o ans s').2 ∧
      wp .all Sound (f ((noted cfg).perform o ans s').1) Q ((noted cfg).perform o ans s').2) :
    wp .all Sound (op o >>= f) Q s :=
  wp_call _ h (stable_stage hK) fun s' h' ans _ => hf s' ans h'

/-- A step that the stage survives. -/
theorem wp_survived {α : Type} {o : Op} {f : o.Res → WifiProg α}
    {Q : α → (noted cfg).State → Prop}
    (h : Stage Believes false wasRefused wasAnswered check s)
    (hstep : ∀ ans s', Stage Believes false wasRefused wasAnswered check s' →
      Stage Believes false wasRefused wasAnswered check ((noted cfg).perform o ans s').2)
    (hf : ∀ r s', Stage Believes false wasRefused wasAnswered check s' → wp .all Sound (f r) Q s') :
    wp .all Sound (op o >>= f) Q s := by
  refine wp_staged (fun _ _ hb => hb.hear) h fun s' ans h' => ?_
  have hnext := hstep ans s' h'
  exact ⟨hnext.sound fun _ hb => hb, hf _ _ hnext⟩

/-- The diagnostic scan changes nothing of this: the call has looked at the variables before. -/
theorem wp_reportVisibleNetworks {w : Heard}
    (h : Stage Believes false wasRefused wasAnswered (some w) s) :
    wp .all Sound reportVisibleNetworks
      (fun _ s => Stage Believes false wasRefused wasAnswered (some w) s) s := by
  have hmodify (f : Statics → Statics) (hflag : ∀ s, (f s).associating = s.associating)
      (hassociated : ∀ s, (f s).associated = s.associated) (ans : Answer) (s' : (noted cfg).State)
      (h' : Stage Believes false wasRefused wasAnswered (some w) s') :
      Stage Believes false wasRefused wasAnswered (some w)
        ((noted cfg).perform (.modify f) ans s').2 := by
    refine ⟨?_, (hflag _).trans h'.flag, ?_, h'.refused, h'.answered, h'.checked⟩
    · intro hup
      exact h'.knows ((hassociated _).symm.trans hup)
    · show (raises f _ || (!lowers f _ && WifiLink.attempting s'.2)) = false
      unfold raises lowers
      rw [hflag, hflag, h'.attempting]
      rfl
  have hstatics (ans : Answer) (s' : (noted cfg).State)
      (h' : Stage Believes false wasRefused wasAnswered (some w) s') :
      Stage Believes false wasRefused wasAnswered (some w)
        ((noted cfg).perform .statics ans s').2 := by
    refine ⟨h'.knows, h'.flag, h'.attempting, h'.refused, h'.answered, ?_⟩
    show some ((WifiLink.checked s'.2).getD _) = some w
    rw [h'.checked]
    rfl
  unfold reportVisibleNetworks
  refine wp_survived h (hmodify _ (fun _ => rfl) fun _ => rfl) fun _ _ h₁ => ?_
  refine wp_survived h₁ (hmodify _ (fun _ => rfl) fun _ => rfl) fun _ _ h₂ => ?_
  refine wp_survived h₂ (hmodify _ (fun _ => rfl) fun _ => rfl) fun _ _ h₃ => ?_
  refine wp_survived h₃ (fun _ _ h' => ⟨h'.knows, h'.flag, h'.attempting, h'.refused, h'.answered,
    h'.checked⟩) fun result _ h₄ => ?_
  split
  · exact h₄
  refine wp_survived h₄ (fun _ _ h' => ⟨h'.knows, h'.flag, h'.attempting, h'.refused, h'.answered,
    h'.checked⟩) fun finished _ h₅ => ?_
  split
  · exact h₅
  refine wp_survived h₅ hstatics fun _ _ h₆ => ?_
  split
  · exact h₆
  refine wp_survived h₆ hstatics fun _ _ h₇ => ?_
  split <;> exact h₇

/-- The rest of an attempt whose request was accepted. -/
theorem wp_wait (h : Stage Awaits true false false none s) :
    wp .all Sound
      (do
        let answered ← op .takeAssociateDone
        op (.modify fun s => { s with associating := false })
        if !answered then pure .connectError
        else do
          let s ← op .statics
          if !s.associated then do
            let _ ← reportVisibleNetworks
            pure .connectError
          else pure .noError : WifiProg LinkError)
      (fun result s => ∃ wasAnswered check, Stage Believes false false wasAnswered check s ∧
        (result = .noError ↔ wasAnswered = true ∧ check.any Heard.succeeded = true)) s := by
  have hbelieves (h : Heard) (hb : Believes h) : Believes h := hb
  have htracks (h : Heard) (ht : Tracks h) : Believes h := ht.believes
  refine wp_staged (fun _ _ ha => ha.hear) h fun s₁ ans₁ h₁ => ?_
  show Sound ((noted cfg).perform .takeAssociateDone ans₁ s₁).2 ∧
    wp _ _ (op (.modify fun s => { s with associating := false }) >>= fun _ =>
      if !s₁.1.state.statics.associateDone then _ else _) _ _
  cases hdone : s₁.1.state.statics.associateDone with
  | false =>
    have h₂ : Stage Believes true false false none
        ((noted cfg).perform .takeAssociateDone ans₁ s₁).2 :=
      ⟨h₁.knows.1, h₁.flag, h₁.attempting, h₁.refused, hdone, h₁.checked⟩
    refine ⟨h₂.sound hbelieves, wp_staged (fun _ _ hb => hb.hear) h₂ fun s₃ ans₃ h₃ => ?_⟩
    have h₄ : Stage Believes false false false none
        ((noted cfg).perform (.modify fun s => { s with associating := false }) ans₃ s₃).2 :=
      ⟨h₃.knows, rfl, rfl, h₃.refused, h₃.answered, h₃.checked⟩
    exact ⟨h₄.sound hbelieves, _, _, h₄,
      iff_of_false LinkError.noConfusion fun htrue => Bool.false_ne_true htrue.1⟩
  | true =>
    have h₂ : Stage Tracks true false true none
        ((noted cfg).perform .takeAssociateDone ans₁ s₁).2 :=
      ⟨h₁.knows.2 hdone, h₁.flag, h₁.attempting, h₁.refused, hdone, h₁.checked⟩
    refine ⟨h₂.sound htracks, wp_staged (fun _ _ ht => ht.hear) h₂ fun s₃ ans₃ h₃ => ?_⟩
    have h₄ : Stage Tracks false false true none
        ((noted cfg).perform (.modify fun s => { s with associating := false }) ans₃ s₃).2 :=
      ⟨h₃.knows, rfl, rfl, h₃.refused, h₃.answered, h₃.checked⟩
    refine ⟨h₄.sound htracks, wp_staged (fun _ _ ht => ht.hear) h₄ fun s₅ ans₅ h₅ => ?_⟩
    have h₆ : Stage Believes false false true (some s₅.1)
        ((noted cfg).perform .statics ans₅ s₅).2 := by
      refine ⟨h₅.knows.believes, h₅.flag, h₅.attempting, h₅.refused, h₅.answered, ?_⟩
      show some ((checked s₅.2).getD s₅.1) = some s₅.1
      rw [h₅.checked]
      rfl
    refine ⟨h₆.sound hbelieves, ?_⟩
    show wp _ _ (if !s₅.1.state.statics.associated then _ else _) _ _
    have hsucceeded : s₅.1.state.statics.associated = s₅.1.succeeded := h₅.knows
    rw [hsucceeded]
    cases hlast : s₅.1.succeeded with
    | false =>
      refine wp_bind.2 (wp_mono (fun _ s₇ h₇ => ?_) (wp_reportVisibleNetworks h₆))
      refine ⟨_, _, h₇, iff_of_false LinkError.noConfusion fun htrue => ?_⟩
      exact Bool.false_ne_true (hlast.symm.trans htrue.2)
    | true => exact ⟨_, _, h₆, iff_of_true rfl ⟨rfl, hlast⟩⟩

/-- The stages of `associate()`: what it returns is what the events said, and it ends with the flag
as the last request left it. -/
theorem wp_associate (h : Stage Believes false wasRefused false none s) :
    wp .all Sound (associate cfg.ssid)
      (fun result s => ∃ wasRefused wasAnswered check,
        Stage Believes false wasRefused wasAnswered check s ∧
        (result = .noError ↔ wasAnswered = true ∧ check.any Heard.succeeded = true)) s := by
  have hbelieves (h : Heard) (hb : Believes h) : Believes h := hb
  have hfailed {result : LinkError} (hresult : result ≠ .noError) {check : Option Heard} :
      result = .noError ↔ false = true ∧ check.any Heard.succeeded = true :=
    iff_of_false hresult fun htrue => Bool.false_ne_true htrue.1
  unfold associate
  split
  · exact ⟨_, _, _, h, hfailed LinkError.noConfusion⟩
  -- The variables are set, the semaphore behind what it orders.
  refine wp_staged (fun _ _ hb => hb.hear) h fun s₁ ans₁ h₁ => ?_
  have h₂ : Stage Believes false wasRefused false none
      ((noted cfg).perform (.modify fun s => { s with associated := false }) ans₁ s₁).2 :=
    ⟨fun hup => (Bool.false_ne_true hup).elim, h₁.flag, h₁.attempting, h₁.refused, h₁.answered,
      h₁.checked⟩
  refine ⟨h₂.sound hbelieves, wp_survived h₂ (fun _ _ h' => ⟨h'.knows, h'.flag, h'.attempting,
    h'.refused, h'.answered, h'.checked⟩) fun _ _ h₃ => ?_⟩
  refine wp_staged (fun _ _ hb => hb.hear) h₃ fun s₄ ans₄ h₄ => ?_
  have h₅ : Stage Awaits false wasRefused false none
      ((noted cfg).perform (.modify fun s => { s with associateDone := false }) ans₄ s₄).2 :=
    ⟨⟨h₄.knows, fun hdone => (Bool.false_ne_true hdone).elim⟩, h₄.flag, h₄.attempting, h₄.refused,
      h₄.answered, h₄.checked⟩
  have hawaits (h : Heard) (ha : Awaits h) : Believes h := ha.1
  refine ⟨h₅.sound hawaits, wp_staged (fun _ _ ha => ha.hear) h₅ fun s₆ ans₆ h₆ => ?_⟩
  have h₇ : Stage Awaits true wasRefused false none
      ((noted cfg).perform (.modify fun s => { s with associating := true }) ans₆ s₆).2 :=
    ⟨h₆.knows, rfl, rfl, h₆.refused, h₆.answered, h₆.checked⟩
  refine ⟨h₇.sound hawaits, wp_staged (fun _ _ ha => ha.hear) h₇ fun s₈ ans₈ h₈ => ?_⟩
  show Sound ((noted cfg).perform .requestConnect ans₈ s₈).2 ∧
    wp _ _ (if ans₈.connectRequest ≠ 0 then _ else _) _ _
  by_cases hrequest : ans₈.connectRequest ≠ 0
  · have hrefused : (ans₈.connectRequest == 0) = false := beq_false_of_ne hrequest
    have h₉ : Stage Believes false true false none
        ((noted cfg).perform .requestConnect ans₈ s₈).2 := by
      refine ⟨h₈.knows.1, h₈.flag, ?_, ?_, h₈.answered, h₈.checked⟩
      · show (ans₈.connectRequest == 0 && _) = false
        rw [hrefused, Bool.false_and]
      · show (!(ans₈.connectRequest == 0)) = true
        rw [hrefused, Bool.not_false]
    rw [if_pos hrequest]
    exact ⟨h₉.sound hbelieves, _, _, _, h₉, hfailed LinkError.noConfusion⟩
  · have haccepted : (ans₈.connectRequest == 0) = true := beq_iff_eq.2 (not_not.1 hrequest)
    have h₉ : Stage Awaits true false false none
        ((noted cfg).perform .requestConnect ans₈ s₈).2 := by
      refine ⟨h₈.knows, h₈.flag, ?_, ?_, h₈.answered, h₈.checked⟩
      · show (ans₈.connectRequest == 0 && _) = true
        rw [haccepted, Bool.true_and]
        exact h₈.attempting
      · show (!(ans₈.connectRequest == 0)) = false
        rw [haccepted, Bool.not_true]
    rw [if_neg hrequest]
    exact ⟨h₉.sound hawaits, wp_mono (fun _ _ hq => ⟨_, hq⟩) (wp_wait h₉)⟩

/-! ## Every run -/

variable {c : (noted cfg).Conf}

/-- The invariant of every run. -/
theorem inv_reach (h : Reach .all (registered cfg) c) : Inv .all Sound Idle c := by
  have h₀ : Inv .all Sound Idle (registered cfg) := ⟨⟨rfl, nofun⟩, rfl, trivial⟩
  refine invariant stable_sound stable_idle (fun s p s' _ hidle hsound hstart => ?_) h₀ h
  cases hstart
  have hstage : Stage Believes false (refused s.2) false none (s.1, .start s.1 :: s.2) := by
    refine ⟨hsound.believes, ?_, rfl, rfl, rfl, rfl⟩
    have hflag := hsound.flag
    rw [hidle.attempting] at hflag
    exact hflag
  refine ⟨⟨hstage.flag, hsound.believes⟩, wp_bind.2 (wp_mono (fun result s' hs' => ?_)
    (wp_associate hstage))⟩
  obtain ⟨_, _, _, hs', htruth⟩ := hs'
  exact wp_returned hs' htruth

/-- What a call returns is what the events said, in every run. -/
theorem truthful_reach (h : Reach .all (registered cfg) c) (hnone : c.running = none) :
    Truthful c.state.2 := by
  obtain ⟨s, r⟩ := c
  cases hnone
  exact (inv_reach h).2.truthful

instance (ssid : List UInt8) (e : WifiEvent) (s : Statics) : Decidable (Gives ssid e s) :=
  inferInstanceAs (Decidable (_ = true))

/-- A configuration with an SSID of four characters. -/
def homeConfig : WifiConfig := ⟨[104, 111, 109, 101], false, 242⟩

/-- A step in which a request for an association is answered by `result`. -/
def requesting (result : Int) : (noted homeConfig).Label :=
  .call ⟨true, result, 0, true, true, 0, 3, 0, 0⟩

end Concentrator.WifiLink
