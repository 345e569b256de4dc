import Concentrator.App.StateMachine
import Concentrator.Lib.Lts
import Mathlib.Algebra.GroupWithZero.Nat

/-!
# The backoff of the retry timer

`soft_error.cpp` keeps the delay of the next retry, doubles it with every arming up to a cap, and
puts it back when the network is joined in `SOFT_ERROR`. Here the state machine handles events of
any ids in any order, action by action, and the timer may expire between any two actions. The delays
of the armings have the closed form `backoffMs`, and the timer is armed in `SOFT_ERROR` only
(`backoff_closed`).

The invariant is `Fine`, which looks ahead: the actions that are still to be carried out keep what
is known on the way (`Sound`) and end in what holds between two events (`Settled`).
-/

namespace Concentrator.App

/-! ## The machine -/

/-- The current state and the statics of the soft error state. -/
structure Retry where
  state : StateId
  /-- `s_retry_delay_ms` -/
  retryDelayMs : UInt32
  /-- The delay the retry timer is armed with. -/
  retryTimer : Option UInt32
  deriving DecidableEq

namespace Retry

/-- Carry out one action. Reference: `app/state_machine/soft_error/soft_error.cpp:57
schedule_retry` and the handlers. -/
def carryOut (r : Retry) : Action → Retry
  | .resetRetryDelay => { r with retryDelayMs := SOFT_ERROR_RETRY_MS }
  | .scheduleRetry =>
    { r with
      retryTimer := some r.retryDelayMs
      retryDelayMs := nextRetryDelayMs r.retryDelayMs }
  | .stopRetryTimer => { r with retryTimer := none }
  | .setState new => { r with state := new }
  | .sendToAcquisition _ | .sendToComms _ | .setErrorLed _ | .report _ => r

/-- The timer expires, once. Reference: `app/state_machine/soft_error/soft_error.cpp:43
on_retry_timer_expired`. -/
def expire (r : Retry) : Retry := { r with retryTimer := none }

end Retry

/-- What is noted: an event was handled in a state, the timer was armed. -/
inductive LogItem where
  | handled (state : StateId) (id : UInt32)
  | armed (delayMs : UInt32)
  deriving DecidableEq

/-- The state machine in the middle of a handler: what it has still to do, and the log, the latest
item first. -/
structure Machine where
  retry : Retry
  todo : List Action
  log : List LogItem
  deriving DecidableEq

/-- An action is noted if it arms the timer. -/
def Action.note (r : Retry) (log : List LogItem) : Action → List LogItem
  | .scheduleRetry => .armed r.retryDelayMs :: log
  | _ => log

/-- The steps: an event is handled, the handler's next action is carried out, the timer expires. -/
inductive Step where
  | handle (id : UInt32)
  | act
  | expire

/-- One step. -/
def Machine.step : Step → Machine → Option Machine
  | .handle id, ⟨r, [], log⟩ => some ⟨r, dispatchId r.state id, .handled r.state id :: log⟩
  | .handle _, _ => none
  | .act, ⟨_, [], _⟩ => none
  | .act, ⟨r, a :: todo, log⟩ => some ⟨r.carryOut a, todo, a.note r log⟩
  | .expire, m =>
    if m.retry.retryTimer.isSome then some { m with retry := m.retry.expire } else none

/-- In `init()`, on the entry of `STARTUP`. Reference: `eda/state_machine/state_machine.cpp:18
init`, `app/state_machine/state_machine.cpp:47 init_action`. -/
def Machine.initial : Machine := ⟨⟨.startup, SOFT_ERROR_RETRY_MS, none⟩, entry .startup, []⟩

/-- The state machine among the expiries of its timer. -/
def retries : Lts where
  State := Machine
  Label := Step
  init m := m = .initial
  step := Machine.step

/-- The delays of the armings since `NETWORK_JOINED` was last handled in `SOFT_ERROR`, or since
boot; the oldest first. -/
def armings : List LogItem → List UInt32
  | [] => []
  | .handled state id :: log =>
    if state = .softError ∧ Event.ofId id = some .networkJoined then [] else armings log
  | .armed delayMs :: log => armings log ++ [delayMs]

/-- The delay of the `k`-th arming. -/
def backoffMs (k : Nat) : Nat := min (30000 * 2 ^ k) 900000

theorem backoffMs_le (k : Nat) : backoffMs k ≤ 900000 := Nat.min_le_right _ _

/-- An arming leaves the delay of the next one: the doubling does not overflow. -/
theorem toNat_nextRetryDelayMs {delayMs : UInt32} {k : Nat} (h : delayMs.toNat = backoffMs k) :
    (nextRetryDelayMs delayMs).toNat = backoffMs (k + 1) := by
  have hhalf : (SOFT_ERROR_RETRY_MAX_MS / 2).toNat = 450000 := rfl
  have hmax : SOFT_ERROR_RETRY_MAX_MS.toNat = 900000 := rfl
  have hdouble : backoffMs (k + 1) = min (2 * backoffMs k) 900000 := by
    unfold backoffMs
    rw [Nat.pow_succ]
    omega
  unfold nextRetryDelayMs
  split
  · next hgt =>
    have hlt := UInt32.lt_iff_toNat_lt.1 hgt
    rw [hmax, hdouble]
    omega
  · next hle =>
    have hle := UInt32.le_iff_toNat_le.1 (UInt32.not_lt.1 hle)
    have htwo : (2 : UInt32).toNat = 2 := rfl
    rw [UInt32.toNat_mul, htwo, hdouble, Nat.mod_eq_of_lt (by omega)]
    omega

/-! ## The invariant -/

/-- What is known at any moment, the delays armed so far being `delays`. -/
structure Sound (r : Retry) (delays : List UInt32) : Prop where
  scope : r.retryTimer ≠ none → r.state = .softError
  closed : ∀ k delayMs, delays[k]? = some delayMs → delayMs.toNat = backoffMs k
  le : r.retryDelayMs.toNat ≤ 900000

/-- Moreover, the next arming is the next of the closed form. -/
structure Ready (r : Retry) (delays : List UInt32) : Prop extends Sound r delays where
  next : r.retryDelayMs.toNat = backoffMs delays.length

/-- What is known between two events. -/
structure Settled (r : Retry) (delays : List UInt32) : Prop extends Ready r delays where
  last : ∀ delayMs, r.retryTimer = some delayMs → delays.getLast? = some delayMs

/-- The delays after an action. -/
def Action.arm (r : Retry) (delays : List UInt32) : Action → List UInt32
  | .scheduleRetry => delays ++ [r.retryDelayMs]
  | _ => delays

theorem armings_note (a : Action) (r : Retry) (log : List LogItem) :
    armings (a.note r log) = a.arm r (armings log) := by
  cases a <;> rfl

/-- Carrying out the actions keeps what is known on the way, and ends between two events. -/
def Fine : List Action → Retry → List UInt32 → Prop
  | [], r, delays => Settled r delays
  | a :: todo, r, delays => Sound r delays ∧ Fine todo (r.carryOut a) (a.arm r delays)

variable {r : Retry} {delays : List UInt32} {todo : List Action}

theorem Fine.sound (h : Fine todo r delays) : Sound r delays := by
  cases todo with
  | nil => exact h.toSound
  | cons a todo => exact h.1

theorem Sound.expire (h : Sound r delays) : Sound r.expire delays :=
  ⟨fun harmed => absurd rfl harmed, h.closed, h.le⟩

/-- An action does the same after the timer has expired, or leaves it expired. -/
theorem carryOut_expire (r : Retry) (a : Action) :
    r.expire.carryOut a = r.carryOut a ∨ r.expire.carryOut a = (r.carryOut a).expire := by
  cases a with
  | scheduleRetry | stopRetryTimer => exact .inl rfl
  | _ => exact .inr rfl

/-- The timer may expire at any moment. The induction is on the actions. -/
theorem Fine.expire (h : Fine todo r delays) : Fine todo r.expire delays := by
  induction todo generalizing r delays with
  | nil => exact ⟨⟨h.toSound.expire, h.next⟩, nofun⟩
  | cons a todo ih =>
    have harm : a.arm r.expire delays = a.arm r delays := by cases a <;> rfl
    refine ⟨h.1.expire, ?_⟩
    rw [harm]
    rcases carryOut_expire r a with heq | heq <;> rw [heq]
    · exact h.2
    · exact ih h.2

/-- The next delay goes behind the others. -/
theorem Ready.closed_concat (h : Ready r delays) (k : Nat) (delayMs : UInt32)
    (hk : (delays ++ [r.retryDelayMs])[k]? = some delayMs) : delayMs.toNat = backoffMs k := by
  rcases Nat.lt_trichotomy k delays.length with hlt | rfl | hgt
  · rw [List.getElem?_append_left hlt] at hk
    exact h.closed k delayMs hk
  · rw [List.getElem?_concat_length] at hk
    exact Option.some.inj hk ▸ h.next
  · rw [List.getElem?_eq_none] at hk
    · cases hk
    · rw [List.length_append, List.length_singleton]
      exact hgt

/-- Arming the timer, in `SOFT_ERROR`. -/
theorem Ready.schedule (h : Ready r delays) (hstate : r.state = .softError) :
    Settled (r.carryOut .scheduleRetry) (delays ++ [r.retryDelayMs]) := by
  have hnext := toNat_nextRetryDelayMs h.next
  have hlength : (delays ++ [r.retryDelayMs]).length = delays.length + 1 := List.length_append
  refine ⟨⟨⟨fun _ => hstate, h.closed_concat, ?_⟩, ?_⟩, fun delayMs hd => ?_⟩
  · exact hnext ▸ backoffMs_le _
  · rw [hlength]
    exact hnext
  · cases hd
    exact List.getLast?_concat

/-- Entering a state, with the timer stopped. -/
theorem Ready.enter (h : Ready r delays) (hstopped : r.retryTimer = none) (new : StateId) :
    Fine (.setState new :: entry new) r delays := by
  have hsound (r' : Retry) (htimer : r'.retryTimer = none)
      (hdelay : r'.retryDelayMs = r.retryDelayMs) : Sound r' delays :=
    ⟨fun harmed => absurd htimer harmed, h.closed, hdelay ▸ h.le⟩
  have hentered : Sound { r with state := new } delays := hsound _ hstopped rfl
  have hsettled : Settled { r with state := new } delays :=
    ⟨⟨hentered, h.next⟩, fun delayMs heq => nomatch hstopped.symm.trans heq⟩
  refine ⟨h.toSound, ?_⟩
  cases new with
  | startup => exact ⟨hentered, hentered, hsettled⟩
  | listening => exact ⟨hentered, hsettled⟩
  | dispatching => exact hsettled
  | softError =>
    have hready : Ready { r with state := .softError } delays := ⟨hentered, h.next⟩
    exact ⟨hentered, hentered, hready.schedule rfl⟩
  | hardError => exact ⟨hentered, hentered, hentered, hsettled⟩

/-- A transition: the timer is stopped on the way out of `SOFT_ERROR`, and elsewhere it does not
run. -/
theorem Ready.transition (h : Ready r delays) (new : StateId) :
    Fine (transitionTo r.state new) r delays := by
  have hexit (hstate : r.state ≠ .softError) : r.retryTimer = none :=
    by_contra fun harmed => hstate (h.scope harmed)
  cases hstate : r.state with
  | softError =>
    have hstopped : Ready { r with retryTimer := none } delays :=
      ⟨⟨fun harmed => absurd rfl harmed, h.closed, h.le⟩, h.next⟩
    exact ⟨h.toSound, hstopped.toSound, hstopped.enter rfl new⟩
  | _ => exact h.enter (hexit (by rw [hstate]; exact StateId.noConfusion)) new

/-- What a state does with an event, but for a join in `SOFT_ERROR`. -/
theorem Settled.dispatchEvent (h : Settled r delays) {e : Event}
    (hjoined : ¬ (r.state = .softError ∧ e = .networkJoined)) :
    Fine (App.dispatchEvent r.state e) r delays := by
  have hmove := h.transition
  cases hstate : r.state with
  | startup =>
    rw [hstate] at hmove
    cases e with
    | networkJoined => exact hmove .listening
    | networkJoinFailed => exact hmove .softError
    | servicesFailed => exact hmove .hardError
    | _ => exact h
  | listening =>
    rw [hstate] at hmove
    cases e with
    | dispatchStarted => exact hmove .dispatching
    | softError => exact hmove .softError
    | hardError => exact hmove .hardError
    | _ => exact h
  | dispatching =>
    rw [hstate] at hmove
    cases e with
    | dispatchFinished => exact hmove .listening
    | softError => exact hmove .softError
    | hardError => exact hmove .hardError
    | _ => exact h
  | softError =>
    rw [hstate] at hmove
    cases e with
    | networkJoined => exact (hjoined ⟨hstate, rfl⟩).elim
    | networkJoinFailed => exact ⟨h.toSound, h.schedule hstate⟩
    | retryTimeout => exact ⟨h.toSound, h⟩
    | hardError => exact hmove .hardError
    | _ => exact h
  | hardError => exact h

/-- A join in `SOFT_ERROR` puts the delay back before the timer is stopped. -/
theorem Sound.join (h : Sound r delays) (hstate : r.state = .softError) :
    Fine (App.dispatchEvent r.state .networkJoined) r [] := by
  have hle : SOFT_ERROR_RETRY_MS.toNat ≤ 900000 := by decide
  have hreset : Ready { r with retryDelayMs := SOFT_ERROR_RETRY_MS } [] :=
    ⟨⟨h.scope, nofun, hle⟩, rfl⟩
  have hactions : App.dispatchEvent r.state .networkJoined =
      .resetRetryDelay :: transitionTo r.state .listening := by
    rw [hstate]
    rfl
  rw [hactions]
  exact ⟨⟨h.scope, nofun, h.le⟩, hreset.transition .listening⟩

/-- An event of any id. -/
theorem Settled.handle {log : List LogItem} (h : Settled r (armings log)) (id : UInt32) :
    Fine (dispatchId r.state id) r (armings (.handled r.state id :: log)) := by
  unfold dispatchId armings
  split
  · next hnone =>
    rw [hnone, if_neg (fun hjoined => nomatch hjoined.2)]
    exact h
  · next e he =>
    rw [he]
    split
    · next hjoined =>
      rw [Option.some.inj hjoined.2]
      exact h.toSound.join hjoined.1
    · next hjoined => exact h.dispatchEvent fun heq => hjoined ⟨heq.1, congrArg some heq.2⟩

/-- The invariant of every run. -/
theorem fine_reachable {m : Machine} (h : retries.Reachable m) :
    Fine m.todo m.retry (armings m.log) := by
  refine h.invariant (I := fun m : Machine => Fine m.todo m.retry (armings m.log))
    (fun m hm => ?_) fun l m m' hfine hstep => ?_
  · have hboot : Settled Machine.initial.retry [] :=
      ⟨⟨⟨fun harmed => absurd rfl harmed, nofun, by decide⟩, rfl⟩, nofun⟩
    rw [show m = .initial from hm]
    exact ⟨hboot.toSound, hboot.toSound, hboot⟩
  · obtain ⟨r, todo, log⟩ := m
    cases l with
    | handle id =>
      cases todo with
      | nil =>
        cases hstep
        exact hfine.handle id
      | cons a todo => cases hstep
    | act =>
      cases todo with
      | nil => cases hstep
      | cons a todo =>
        cases hstep
        rw [armings_note]
        exact hfine.2
    | expire =>
      obtain ⟨-, hstep⟩ := Option.ite_none_right_eq_some.1 hstep
      cases hstep
      exact hfine.expire

/-- **The backoff has its closed form, and its timer its scope.** Whatever events of whatever ids
the state machine handles, and whenever the timer expires: it is armed in `SOFT_ERROR` only, the
`k`-th arming since boot or since a join was handled there takes the `k`-th delay of the closed
form, and between two events the next delay depends on the number of these armings alone. -/
theorem backoff_closed {m : Machine} (h : retries.Reachable m) :
    (m.retry.retryTimer ≠ none → m.retry.state = .softError) ∧
      (∀ k delayMs, (armings m.log)[k]? = some delayMs →
        delayMs.toNat = min (30000 * 2 ^ k) 900000) ∧
      (m.todo = [] →
        m.retry.retryDelayMs.toNat = min (30000 * 2 ^ (armings m.log).length) 900000 ∧
        ∀ delayMs, m.retry.retryTimer = some delayMs → (armings m.log).getLast? = some delayMs) ∧
      m.retry.retryDelayMs.toNat * 2 < 2 ^ 32 := by
  have hfine := fine_reachable h
  have hsound := hfine.sound
  refine ⟨hsound.scope, hsound.closed, fun htodo => ?_, ?_⟩
  · rw [htodo] at hfine
    exact ⟨hfine.next, hfine.last⟩
  · have hle := hsound.le
    omega

/-- A first join has failed, its retry came, and that join failed too. -/
def twiceFailed : Machine where
  retry := ⟨.softError, 120000, some 60000⟩
  todo := []
  log := [.armed 60000, .handled .softError 4, .handled .softError 9, .armed 30000,
    .handled .startup 4]

/-- The second arming takes the second delay, and the third will take the third. -/
theorem backoff_closed_two :
    retries.Reachable twiceFailed ∧ armings twiceFailed.log = [30000, 60000] ∧
      (twiceFailed.retry.retryTimer ≠ none → twiceFailed.retry.state = .softError) ∧
      (∀ k delayMs, (armings twiceFailed.log)[k]? = some delayMs →
        delayMs.toNat = min (30000 * 2 ^ k) 900000) ∧
      twiceFailed.retry.retryDelayMs.toNat = min (30000 * 2 ^ 2) 900000 := by
  let steps : List Step := [.act, .act, .handle 4, .act, .act, .act, .expire, .handle 9, .act,
    .handle 4, .act]
  have hrun : retries.run steps .initial = some twiceFailed := by rfl
  have hreach : retries.Reachable twiceFailed := .run (.init rfl) hrun
  obtain ⟨hscope, hclosed, hnext, -⟩ := backoff_closed hreach
  exact ⟨hreach, rfl, hscope, hclosed, (hnext rfl).1⟩

end Concentrator.App
