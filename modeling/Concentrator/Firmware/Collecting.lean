import Concentrator.Comms.Relay
import Concentrator.DeviceTable.Unreported
import Concentrator.Firmware.Discipline
import Concentrator.Lib.Observer

/-!
# Collecting does not depend on reporting

`Collector` is what the firmware is without comms: the pool, the acquisition thread, the clock and
the table without what was reported. Its inputs are the advertising reports, the passing of time and
the steps of the acquisition thread. The firmware refines it as long as nothing leads to
`HARD_ERROR` (`collector`), so in two runs with the same inputs, over any two transports, the same
commands are executed and the tables agree (`collecting_independent`).
-/

namespace Concentrator.Firmware

open Acquisition (Phase)
open Threaded

/-! ## The collector -/

/-- What comes from outside to those who collect. -/
inductive Input where
  | tick (seconds : UInt32)
  | onAdvReport (r : AdvReport)
  | postAdvReport
  | executeCommand
  | drainReportPool

/-- What collecting works on: the table without what was reported, with the number of `upsert()`
calls so far, and the commands executed, the latest first. -/
structure Collector (ρ : Type) (cfg : Config) where
  pool : Fifo AdvReport cfg.advReportPoolSize
  posting : Bool
  phase : Phase
  events : Eda.EventQueue Acquisition.Event
  commands : List Acquisition.Event
  table : Table ρ
  uptime : UInt32
  upserts : Nat

namespace Collector

variable {ρ : Type} [AsReading ρ] {cfg : Config}

/-- A report in the pool is a reading of its advertiser, or is ignored. -/
def record (report : AdvReport) (c : Collector ρ cfg) : Collector ρ cfg :=
  match Acquisition.parseCustomFrame cfg report with
  | none => c
  | some frame =>
    let reading := AsReading.stamp c.upserts (Acquisition.toReading frame)
    { c with
      table := c.table.upsert report.address report.rssi reading c.uptime
      upserts := c.upserts + 1 }

/-- What one input does. -/
def next (c : Collector ρ cfg) : Input → Collector ρ cfg
  | .tick seconds => { c with uptime := c.uptime + seconds }
  | .onAdvReport r =>
    if c.posting then c
    else
      match c.pool.put r with
      | none => c
      | some pool => { c with pool := pool, posting := true }
  | .postAdvReport =>
    if c.posting then
      { c with posting := false, events := (c.events.put .advReportAvailable).getD c.events }
    else c
  | .executeCommand =>
    match c.phase with
    | .draining => c
    | .waiting =>
      match c.events.tryGet with
      | none => c
      | some (e, events) =>
        { c with
          events := events
          phase := if e = .advReportAvailable then .draining else .waiting
          commands := e :: c.commands }
  | .drainReportPool =>
    match c.phase with
    | .waiting => c
    | .draining =>
      match c.pool.tryGet with
      | none => { c with phase := .waiting }
      | some (report, pool) => record report { c with pool := pool }

end Collector

variable {T : Transport} {ρ : Type} {cfg : Config}

/-- The collector in the firmware. -/
def State.collector (s : State T ρ cfg) : Collector ρ cfg where
  pool := s.pool
  posting := s.posting
  phase := s.phase
  events := s.core.acquisitionQueue
  commands := s.commands
  table := s.core.world.table.toTable.unreported
  uptime := s.core.world.uptime
  upserts := s.core.world.upserts

/-- The input that an act of the others is. What the stack answers to a scan command is none. -/
def Act.input : Act → Option Input
  | .tick seconds => some (.tick seconds)
  | .onAdvReport r => some (.onAdvReport r)
  | .postAdvReport => some .postAdvReport
  | .executeCommand _ => some .executeCommand
  | .drainReportPool => some .drainReportPool
  | _ => none

/-! ## Nothing leads to `HARD_ERROR` -/

/-- No event that leads to `HARD_ERROR` is queued or about to be posted. -/
structure Calm (s : System.State T ρ cfg) : Prop where
  acquisitionPort : s.registered .acquisitionPort = true
  appEvents : ∀ e ∈ s.appQueue.items, e.Harmless
  bringUp : ∀ e, s.bringUp = some e → e.Harmless

namespace Calm

variable {s : System.State T ρ cfg}

theorem sendToApp (h : Calm s) {e : App.Event} (he : e.Harmless) : Calm (s.sendToApp e) where
  acquisitionPort := h.acquisitionPort
  appEvents e' he' := by
    rcases Eda.mem_sendEvent _ _ he' with hmem | rfl
    · exact h.appEvents e' hmem
    · exact he
  bringUp := h.bringUp

theorem postBringUp (h : Calm s) : Calm s.postBringUp := by
  rcases System.postBringUp_cases s with hs | ⟨e, he, hs⟩ <;> rw [hs]
  · exact h
  · have hsent := h.sendToApp (h.bringUp e he)
    exact ⟨hsent.acquisitionPort, hsent.appEvents, fun _ hnone => nomatch hnone⟩

theorem expireRetryTimer (h : Calm s) : Calm s.expireRetryTimer := by
  rcases System.expireRetryTimer_cases s with hs | hs <;> rw [hs]
  · exact h
  · refine ⟨h.acquisitionPort, fun e he => ?_, h.bringUp⟩
    rcases Eda.mem_sendEventFromIsr _ _ he with hmem | rfl
    · exact h.appEvents e hmem
    · exact ⟨nofun, nofun⟩

theorem expireDispatchTimer (h : Calm s) : Calm s.expireDispatchTimer := by
  rcases System.expireDispatchTimer_cases s with hs | ⟨-, hs⟩ <;> rw [hs]
  · exact h
  · exact ⟨h.acquisitionPort, h.appEvents, h.bringUp⟩

theorem handleEvent (h : Calm s) : Calm s.handleEvent := by
  have hkept : (s.handleEvent.registered, s.handleEvent.bringUp) = (s.registered, s.bringUp) := by
    rcases System.handleEvent_cases s with ⟨-, hs⟩ | ⟨e, q, -, hs⟩ <;> rw [hs]
    exact System.foldl_carryOut (fun s : System.State T ρ cfg => (s.registered, s.bringUp))
      (fun s a => by cases a <;> rfl) _ _
  obtain ⟨hregistered, hbringUp⟩ := Prod.mk.inj hkept
  refine ⟨?_, fun e he => h.appEvents e (System.mem_handleEvent he), ?_⟩
  · rw [hregistered]
    exact h.acquisitionPort
  · rw [hbringUp]
    exact h.bringUp

end Calm

/-- A handler that does not enter `HARD_ERROR` posts nothing to acquisition. The induction is on its
actions. -/
theorem foldl_carryOut_acquisitionQueue {actions : List App.Action}
    (hposts : ∀ e, .sendToAcquisition e ∉ actions) (s : System.State T ρ cfg) :
    (actions.foldl System.State.carryOut s).acquisitionQueue = s.acquisitionQueue := by
  induction actions generalizing s with
  | nil => rfl
  | cons a actions ih =>
    refine (ih (fun e he => hposts e (.tail _ he)) _).trans ?_
    cases a with
    | sendToAcquisition e => exact absurd (.head _) (hposts e)
    | _ => rfl

theorem Calm.acquisitionQueue {s : System.State T ρ cfg} (h : Calm s) :
    s.handleEvent.acquisitionQueue = s.acquisitionQueue := by
  rcases System.handleEvent_cases s with ⟨-, hs⟩ | ⟨e, q, hpop, hs⟩ <;> rw [hs]
  have hharmless := h.appEvents e (by rw [hpop]; exact .head _)
  exact foldl_carryOut_acquisitionQueue (hharmless.posts s.state) _

section
variable [AsReading ρ]

variable (T ρ cfg) in
/-- Runs in which no one posts an event that leads to `HARD_ERROR` to the application. -/
def calmGuard : (firmware T ρ cfg).Guard where
  call _ _ _ := True
  other x _ := ∀ e, x = .postToApp e → e.Harmless

theorem Calm.run {x : Act} {s : State T ρ cfg} (h : Calm s.core)
    (hx : ∀ e, x = .postToApp e → e.Harmless) : Calm (x.run s).core := by
  rcases run_core x s with ⟨y, hs⟩ | ⟨q, isScanning, ledger, led, hs⟩ | ⟨e, rfl, hs⟩ | ⟨e, -, hs⟩
  · rw [hs]
    cases y with
    | postBringUp => exact h.postBringUp
    | handleEvent => exact h.handleEvent
    | expireRetryTimer => exact h.expireRetryTimer
    | expireDispatchTimer => exact h.expireDispatchTimer
    | executeCommand result =>
      simp only [System.Act.run]
      rcases System.executeCommand_cases result s.core with hs | ⟨q, isScanning, hs⟩ <;> rw [hs]
      · exact h
      · exact ⟨h.acquisitionPort, h.appEvents, h.bringUp⟩
    | world y => exact ⟨h.acquisitionPort, h.appEvents, h.bringUp⟩
  · rw [hs]
    exact ⟨h.acquisitionPort, h.appEvents, h.bringUp⟩
  · rw [hs]
    exact h.sendToApp (hx e rfl)
  · rw [hs]
    exact ⟨h.acquisitionPort, h.appEvents, h.bringUp⟩

/-- The duties of comms: the outcome of a join is harmless. -/
theorem calm_duties :
    Comms.Duties (host T ρ cfg) (calmGuard T ρ cfg) (fun s => Calm s.core) fun _ _ => True where
  other _ _ hx h := h.run hx
  known _ _ _ _ _ _ := trivial
  start s p s' h _ hstart := by
    obtain ⟨e, q, -, -, rfl⟩ := start_eq_some hstart
    exact ⟨h.acquisitionPort, h.appEvents, h.bringUp⟩
  connect _ _ _ h _ := ⟨⟨h.acquisitionPort, h.appEvents, h.bringUp⟩, trivial⟩
  outcome result _ s h _ _ := by
    have houtcome : (Comms.joinOutcome result).Harmless := by
      rcases Comms.joinOutcome_cases result with ⟨-, ho⟩ | ⟨-, ho⟩ <;> rw [ho] <;>
        exact ⟨nofun, nofun⟩
    have hsent := h.sendToApp houtcome
    exact ⟨hsent.acquisitionPort, hsent.appEvents, hsent.bringUp⟩
  cycle _ _ _ _ h _ := ⟨h.acquisitionPort, h.appEvents, h.bringUp⟩
  enable _ _ h _ := ⟨h.acquisitionPort, h.appEvents, h.bringUp⟩
  startTimer _ _ h _ := ⟨h.acquisitionPort, h.appEvents, h.bringUp⟩
  disable _ _ h _ := ⟨h.acquisitionPort, h.appEvents, h.bringUp⟩
  stopTimer _ _ h _ := ⟨h.acquisitionPort, h.appEvents, h.bringUp⟩
  finish _ h _ _ := ⟨h.acquisitionPort, h.appEvents, h.bringUp⟩

theorem calm_broughtUp : Calm (.broughtUp true true : System.State T ρ cfg) where
  acquisitionPort := rfl
  appEvents _ he := nomatch he
  bringUp e he := by
    cases he
    exact ⟨nofun, nofun⟩

/-- After a bring-up in which every service came up, nothing leads to `HARD_ERROR`. -/
theorem calm_reach {c : (firmware T ρ cfg).Conf}
    (h : Reach (calmGuard T ρ cfg) (booted T ρ cfg true true) c) : Calm c.state.core :=
  calm_duties.reach rfl calm_broughtUp rfl h

/-! ## The firmware refines the collector -/

theorem collector_onAdvReport (r : AdvReport) (s : State T ρ cfg) :
    (s.onAdvReport r).collector = s.collector.next (.onAdvReport r) := by
  unfold State.onAdvReport Collector.next
  show State.collector (if s.posting then _ else _) = if s.posting then _ else _
  split
  · rfl
  · show State.collector (match s.pool.put r with | none => _ | some pool => _) =
      match s.pool.put r with | none => _ | some pool => _
    split <;> rfl

theorem collector_postAdvReport {s : State T ρ cfg}
    (hport : s.core.registered .acquisitionPort = true) :
    s.postAdvReport.collector = s.collector.next .postAdvReport := by
  unfold State.postAdvReport Collector.next
  show State.collector (if s.posting then _ else _) = if s.posting then _ else _
  split
  · rw [hport]
    have hqueue := Eda.sendEventFromIsr_queue (q := s.core.acquisitionQueue)
      Acquisition.Event.advReportAvailable s.core.ledger
    show Collector.mk _ _ _ _ _ _ _ _ = Collector.mk _ _ _ _ _ _ _ _
    congr 1
  · rfl

theorem collector_executeCommand (result : Int) (s : State T ρ cfg) :
    (s.executeCommand result).collector = s.collector.next .executeCommand := by
  have hphase : s.collector.phase = s.phase := rfl
  have hevents : s.collector.events = s.core.acquisitionQueue := rfl
  simp only [State.executeCommand, Collector.next, hphase, hevents]
  cases s.phase with
  | draining => rfl
  | waiting =>
    cases hget : s.core.acquisitionQueue.tryGet with
    | none => rfl
    | some p =>
      obtain ⟨isScanning, htaken⟩ := System.executeCommand_taken hget result
      simp only [htaken]
      rfl

theorem collector_processReport (report : AdvReport) (s : State T ρ cfg) :
    (s.processReport report).collector = s.collector.record report := by
  unfold State.processReport Collector.record
  cases Acquisition.parseCustomFrame cfg report with
  | none => rfl
  | some frame =>
    have hupsert := Table.unreported_upsert s.core.world.table.toTable report.address report.rssi
      (AsReading.stamp s.core.world.upserts (Acquisition.toReading frame)) s.core.world.uptime
    exact congrArg
      (fun table =>
        { s.collector with table := table, upserts := s.core.world.upserts + 1 }) hupsert

theorem collector_drainReportPool (s : State T ρ cfg) :
    s.drainReportPool.collector = s.collector.next .drainReportPool := by
  have hphase : s.collector.phase = s.phase := rfl
  have hpool : s.collector.pool = s.pool := rfl
  simp only [State.drainReportPool, Collector.next, hphase, hpool]
  cases s.phase with
  | waiting => rfl
  | draining =>
    cases s.pool.tryGet with
    | none => rfl
    | some p => exact collector_processReport _ _

omit [AsReading ρ] in
/-- The application posts nothing to those who collect. -/
theorem collector_handleEvent {s : State T ρ cfg} (h : Calm s.core) :
    State.collector { s with core := s.core.handleEvent } = s.collector := by
  unfold State.collector
  rw [h.acquisitionQueue, System.handleEvent_world]

/-- A call of comms changes what was reported at most. -/
theorem collector_perform (o : Comms.ServiceOp ρ) (ans : T.Answer) (s : State T ρ cfg) :
    (perform o ans s).2.collector = s.collector := by
  cases o with
  | cycle o =>
    cases o with
    | markReported copy =>
      have hmarked := Table.unreported_markReported s.core.world.table.toTable copy.address
        copy.updateSeq
      exact congrArg (fun table => { s.collector with table := table }) hmarked
    | _ => rfl
  | sendToApp e =>
    obtain ⟨items, hnoted⟩ := noteHandled_eq s
    show State.collector { s.noteHandled with core := _ } = _
    rw [hnoted]
    rfl
  | _ => rfl

variable (T ρ cfg) in
/-- The firmware refines the collector: its inputs move it, and nothing else does. -/
def collector :
    Observer (firmware T ρ cfg) (fun s => Calm s.core) fun (c : Collector ρ cfg) => c.next where
  view := State.collector
  input := Act.input
  other x s h := by
    cases x with
    | postBringUp =>
      simp only [Act.run, Act.act]
      rcases System.postBringUp_cases s.core with hs | ⟨e, -, hs⟩ <;> rw [hs] <;> rfl
    | handleEvent => exact collector_handleEvent h
    | expireRetryTimer =>
      simp only [Act.run, Act.act]
      rcases System.expireRetryTimer_cases s.core with hs | hs <;> rw [hs] <;> rfl
    | expireDispatchTimer =>
      simp only [Act.run, Act.act]
      rcases System.expireDispatchTimer_cases s.core with hs | ⟨-, hs⟩ <;> rw [hs] <;> rfl
    | tick seconds => rfl
    | onAdvReport r => exact collector_onAdvReport r s
    | postAdvReport => exact collector_postAdvReport h.acquisitionPort
    | executeCommand result => exact collector_executeCommand result s
    | drainReportPool => exact collector_drainReportPool s
    | expireHeartbeatTimer =>
      simp only [Act.run, Act.act, State.expireHeartbeatTimer]
      split <;> rfl
    | executeHeartbeat =>
      simp only [Act.run, Act.act, State.executeHeartbeat]
      split <;> rfl
    | postToApp e => rfl
    | postDispatch e => rfl
  start s p s' hstart := by
    obtain ⟨e, q, -, -, rfl⟩ := start_eq_some hstart
    rfl
  perform := collector_perform
  finish s := by
    obtain ⟨items, hnoted⟩ := noteHandled_eq s
    show State.collector { s.noteHandled with core := _ } = _
    rw [hnoted]
    rfl

/-! ## Two runs -/

/-- **Collecting does not depend on reporting.** Two runs after a bring-up in which every service
came up, over any two links and with whatever connects, answers and dispatch times: when they bring
the same reports, at the same times and in the same order relative to the acquisition thread's
steps, the acquisition port executes the same commands, and the two tables agree slot by slot on
everything but `reported_seq`, and on the evicted count; so they do after every prefix, which is a
run. No one posts an event that leads to `HARD_ERROR` to the application; the firmware posts none
after such a bring-up. -/
theorem collecting_independent {T₁ T₂ : Transport}
    {ls₁ : List (firmware T₁ ρ cfg).Label} {ls₂ : List (firmware T₂ ρ cfg).Label}
    {c₁ : (firmware T₁ ρ cfg).Conf} {c₂ : (firmware T₂ ρ cfg).Conf}
    (h₁ : run ls₁ (booted T₁ ρ cfg true true) = some c₁)
    (h₂ : run ls₂ (booted T₂ ρ cfg true true) = some c₂)
    (hcalm₁ : ∀ e, .other (.postToApp e) ∈ ls₁ → e.Harmless)
    (hcalm₂ : ∀ e, .other (.postToApp e) ∈ ls₂ → e.Harmless)
    (hinputs : (collector T₁ ρ cfg).inputs ls₁ = (collector T₂ ρ cfg).inputs ls₂) :
    c₁.state.commands = c₂.state.commands ∧
      c₁.state.core.world.table.AgreesWith c₂.state.core.world.table.toTable := by
  have hallows {T : Transport} {ls : List (firmware T ρ cfg).Label}
      (hcalm : ∀ e, .other (.postToApp e) ∈ ls → e.Harmless) :
      ∀ l ∈ ls, ∀ d, (calmGuard T ρ cfg).Allows l d := by
    intro l hl d
    unfold Guard.Allows calmGuard
    split
    · trivial
    · trivial
    · next x _ _ _ =>
      rintro e rfl
      exact hcalm e hl
    · trivial
  have hviews := (collector T₁ ρ cfg).agree (collector T₂ ρ cfg) (fun _ => calm_reach)
    (fun _ => calm_reach) (hallows hcalm₁) (hallows hcalm₂) h₁ h₂ rfl hinputs
  exact ⟨congrArg Collector.commands hviews,
    Table.agreesWith_of_unreported (congrArg Collector.table hviews)⟩

end

/-- An advertisement is heard and recorded. -/
def collects : List (firmware (socketLink 242) Reading (.ofDevices 1)).Label :=
  [.other (Act.executeCommand 0), .other (Act.tick 5), .other (Act.onAdvReport Comms.sampleReport),
    .other Act.postAdvReport, .other (Act.executeCommand 0), .other Act.drainReportPool]

/-- The network refuses the device, which collects all the same. -/
def refusedRun : List (firmware (socketLink 242) Reading (.ofDevices 1)).Label :=
  let refuse : SocketAnswer := ⟨0, 3, -1, fun _ => 1⟩
  [.start, .call refuse, .call refuse, .other Act.handleEvent] ++ collects

/-- The network takes the device, and then its report. -/
def joinedRun : List (firmware (socketLink 242) Reading (.ofDevices 1)).Label :=
  let accept : SocketAnswer := ⟨0, 3, 0, fun _ => 100⟩
  [.start, .call accept, .call accept, .other Act.handleEvent, .start, .call accept,
    .call accept] ++ collects ++
    .other Act.expireDispatchTimer :: .start :: List.replicate 15 (.call accept)

/-- Two runs that differ in what was reported. -/
theorem collecting_independent_joined :
    ∃ c₁ c₂ : (firmware (socketLink 242) Reading (.ofDevices 1)).Conf,
      c₁.state.core.world.table.entries.map (·.reportedSeq) = [0] ∧
      c₂.state.core.world.table.entries.map (·.reportedSeq) = [1] ∧
      c₁.state.commands = c₂.state.commands ∧
      c₁.state.core.world.table.AgreesWith c₂.state.core.world.table.toTable := by
  let c₀ := booted (socketLink 242) Reading (.ofDevices 1) true true
  let reported (n : UInt16) (c : (firmware (socketLink 242) Reading (.ofDevices 1)).Conf) : Bool :=
    c.state.core.world.table.entries.map (·.reportedSeq) = [n]
  obtain ⟨c₁, h₁, hreported₁⟩ :=
    (Option.any_eq_true (reported 0) (run refusedRun c₀)).1 (by decide +kernel)
  obtain ⟨c₂, h₂, hreported₂⟩ :=
    (Option.any_eq_true (reported 1) (run joinedRun c₀)).1 (by decide +kernel)
  exact ⟨c₁, c₂, of_decide_eq_true hreported₁, of_decide_eq_true hreported₂,
    collecting_independent h₁ h₂ (by simp [refusedRun, collects]) (by simp [joinedRun, collects])
      rfl⟩

end Concentrator.Firmware
