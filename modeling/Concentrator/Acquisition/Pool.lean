import Concentrator.Lib.Lts
import Concentrator.Eda.Events
import Concentrator.DeviceTable.Steps
import Concentrator.Acquisition.Frame
import Mathlib.Data.List.Nodup

/-!
# The report pool and the thread that drains it

Two contexts share two queues. The Bluetooth callback puts a report into the pool and then posts one
event; the acquisition thread takes an event and then takes reports until the pool is empty. One
event may stand for several reports, and the post may find the event queue full, so what wakes the
thread is a property of all of them together (`WakeUp.wake`): a report in the pool is covered by a
queued event, by a drain that has not yet seen the pool empty, or by a post still to come.
-/

namespace Concentrator.Acquisition

/-- Where the acquisition thread is: it waits for an event, or it is in the drain loop, before its
next `try_get()`. -/
inductive Phase where
  | waiting
  | draining
  deriving DecidableEq

/-- What the two contexts share, with the reports `accepted` by the pool and those `handed` to the
parser so far, the latest first. Reference: `svc/acquisition/subsystem.cpp:45-59`. -/
structure State (cfg : Config) where
  pool : Fifo AdvReport cfg.advReportPoolSize
  droppedReportCount : UInt16
  events : Eda.EventQueue Event
  droppedEventCount : UInt32
  phase : Phase
  /-- The callback has put its report and not yet posted the event. -/
  posting : Bool
  /-- The scan events the application has posted. -/
  scansPosted : List Event
  table : DeviceTable Reading cfg
  accepted : List AdvReport
  handed : List AdvReport

/-- One step of the callback, of the application, or of the acquisition thread. -/
inductive Label where
  | report (r : AdvReport)
  | post
  | scan (e : Event)
  | wake
  | drain (nowS : UInt32)

section
variable {cfg : Config}

/-- The first step of the callback: the report goes into the pool, or is dropped and counted.
Reference: `svc/acquisition/subsystem.cpp:65-79 on_adv_report`. -/
def onAdvReport (r : AdvReport) (s : State cfg) : State cfg :=
  match s.pool.put r with
  | none => { s with droppedReportCount := Table.saturatingSucc s.droppedReportCount }
  | some pool => { s with pool := pool, posting := true, accepted := r :: s.accepted }

/-- Post an event to the acquisition thread. What `send_event()` latches when the post fails is
outside this state. Reference: `eda/port/port.cpp:75 send_event`, `:108 send_event_from_isr`. -/
def sendEvent (e : Event) (s : State cfg) : State cfg :=
  let (_, events, dropped) := Eda.postEvent s.events s.droppedEventCount e
  { s with events := events, droppedEventCount := dropped }

/-- What becomes of one report: a frame of ours is a reading of its advertiser. Reference:
`svc/acquisition/subsystem.cpp:157-176`. -/
def processReport (report : AdvReport) (nowS : UInt32) (table : DeviceTable Reading cfg) :
    DeviceTable Reading cfg :=
  match parseCustomFrame cfg report with
  | none => table
  | some frame => table.upsert report.address report.rssi (toReading frame) nowS

/-- One round of the drain loop: the loop ends at an empty pool, else the report it took is handed
to the parser. Reference: `svc/acquisition/subsystem.cpp:147 drain_report_pool`. -/
def drainReportPool (nowS : UInt32) (s : State cfg) : State cfg :=
  match s.pool.tryGet with
  | none => { s with phase := .waiting }
  | some (report, pool) =>
    { s with
      pool := pool
      handed := report :: s.handed
      table := processReport report nowS s.table }

/-- The thread takes an event. Starting and stopping the scan touches neither queue. Reference:
`eda/active_object/active_object.cpp:70 process_events`, `svc/acquisition/subsystem.cpp:232
execute_event`. -/
def processEvent (s : State cfg) : Option (State cfg) :=
  match s.events.tryGet with
  | none => none
  | some (.advReportAvailable, events) => some { s with events := events, phase := .draining }
  | some (_, events) => some { s with events := events }

/-- One step, `none` where it does not apply: the callback runs to its end before the next report,
the application posts each of the two scan events at most once, and the thread either waits or
drains. -/
def step : Label → State cfg → Option (State cfg)
  | .report r, s => if s.posting then none else some (onAdvReport r s)
  | .post, s =>
    if s.posting then some (sendEvent .advReportAvailable { s with posting := false }) else none
  | .scan e, s =>
    if e = .advReportAvailable ∨ e ∈ s.scansPosted then none
    else some (sendEvent e { s with scansPosted := e :: s.scansPosted })
  | .wake, s => if s.phase = .waiting then processEvent s else none
  | .drain nowS, s => if s.phase = .draining then some (drainReportPool nowS s) else none

/-- The state after `initialize()`, before the first report. Reference:
`svc/acquisition/subsystem.cpp:201 initialize`. -/
def State.initial : State cfg where
  pool := .empty
  droppedReportCount := 0
  events := .empty
  droppedEventCount := 0
  phase := .waiting
  posting := false
  scansPosted := []
  table := .initial
  accepted := []
  handed := []

/-- The callback, the application and the acquisition thread. -/
def system (cfg : Config) : Lts where
  State := State cfg
  Label := Label
  init s := s = .initial
  step := step

/-! ## The wake-up invariant -/

/-- Something will make the thread look at the pool again. -/
def Awake (s : State cfg) : Prop :=
  .advReportAvailable ∈ s.events.items ∨ s.phase = .draining ∨ s.posting = true

/-- What every step keeps. -/
structure WakeUp (s : State cfg) : Prop where
  /-- A report in the pool is not forgotten. -/
  wake : s.pool.items ≠ [] → Awake s
  /-- The scan events in the queue are among those posted. -/
  scans : ∀ e, e ≠ .advReportAvailable → s.events.items.count e ≤ s.scansPosted.count e
  once : s.scansPosted.Nodup
  /-- The reports handed on, then those in the pool, are those accepted. -/
  order : s.handed.reverse ++ s.pool.items = s.accepted.reverse

/-- The events of a queue, counted by kind. -/
theorem length_eq_counts (es : List Event) :
    es.length = es.count .startScan + es.count .stopScan + es.count .advReportAvailable := by
  induction es with
  | nil => rfl
  | cons e es ih => cases e <;> simp [ih] <;> omega

/-- A full event queue holds a wake-up: at most two of its events are scan events. -/
theorem WakeUp.full {s : State cfg} (h : WakeUp s)
    (hfull : s.events.items.length = Eda.QUEUE_LENGTH) :
    .advReportAvailable ∈ s.events.items := by
  have hcap : Eda.QUEUE_LENGTH = 20 := rfl
  have hcount := length_eq_counts s.events.items
  have hstart := h.scans .startScan Event.noConfusion
  have hstop := h.scans .stopScan Event.noConfusion
  have hone := List.nodup_iff_count_le_one.1 h.once
  have hone₁ := hone .startScan
  have hone₂ := hone .stopScan
  refine List.count_pos_iff.1 ?_
  omega

theorem wakeUp_initial : WakeUp (.initial : State cfg) where
  wake h := absurd rfl h
  scans _ _ := Nat.le_refl _
  once := .nil
  order := rfl

/-- The callback's put: the post it still owes is what covers the report. -/
theorem WakeUp.onAdvReport {s : State cfg} (h : WakeUp s) (r : AdvReport) :
    WakeUp (onAdvReport r s) := by
  unfold Acquisition.onAdvReport
  split
  · exact ⟨h.wake, h.scans, h.once, h.order⟩
  · next pool hput =>
    refine ⟨fun _ => .inr (.inr rfl), h.scans, h.once, ?_⟩
    show s.handed.reverse ++ pool.items = (r :: s.accepted).reverse
    rw [Fifo.put_eq_some hput, ← List.append_assoc, h.order, List.reverse_cons]

/-- The callback's post: the event is queued, or the queue is full of events that wake as well. -/
theorem WakeUp.post {s : State cfg} (h : WakeUp s) :
    WakeUp (sendEvent .advReportAvailable { s with posting := false }) := by
  unfold sendEvent
  rcases Eda.postEvent_cases s.events s.droppedEventCount .advReportAvailable with
    ⟨q', hp, hq⟩ | ⟨hp, hfull⟩
  · simp only [hp]
    refine ⟨fun _ => .inl ?_, fun e he => ?_, h.once, h.order⟩
    · show Event.advReportAvailable ∈ q'.items
      rw [hq]
      exact List.mem_append_right _ (.head _)
    · show q'.items.count e ≤ s.scansPosted.count e
      rw [hq, List.count_append, List.count_singleton, if_neg (by simpa using he.symm)]
      exact h.scans e he
  · simp only [hp]
    exact ⟨fun _ => .inl (h.full hfull), h.scans, h.once, h.order⟩

/-- A scan event of the application goes behind the others, so it takes no wake-up away. -/
theorem WakeUp.scan {s : State cfg} (h : WakeUp s) {e : Event} (hnew : e ∉ s.scansPosted) :
    WakeUp (sendEvent e { s with scansPosted := e :: s.scansPosted }) := by
  have honce : (e :: s.scansPosted).Nodup := List.nodup_cons.2 ⟨hnew, h.once⟩
  unfold sendEvent
  rcases Eda.postEvent_cases s.events s.droppedEventCount e with ⟨q', hp, hq⟩ | ⟨hp, -⟩
  · simp only [hp]
    refine ⟨fun hne => ?_, fun e' he' => ?_, honce, h.order⟩
    · rcases h.wake hne with hw | hw | hw
      · refine .inl ?_
        show Event.advReportAvailable ∈ q'.items
        rw [hq]
        exact List.mem_append_left _ hw
      · exact .inr (.inl hw)
      · exact .inr (.inr hw)
    · show q'.items.count e' ≤ (e :: s.scansPosted).count e'
      rw [hq, List.count_append, List.count_singleton, List.count_cons]
      exact Nat.add_le_add_right (h.scans e' he') _
  · simp only [hp]
    exact ⟨h.wake, fun e' he' => Nat.le_trans (h.scans e' he') List.count_le_count_cons, honce,
      h.order⟩

/-- The thread takes an event: a wake-up it takes is a drain it begins. -/
theorem WakeUp.processEvent {s s' : State cfg} (h : WakeUp s) (hs : processEvent s = some s') :
    WakeUp s' := by
  unfold Acquisition.processEvent at hs
  have hscans {e : Event} {q : Eda.EventQueue Event} (hget : s.events.tryGet = some (e, q)) :
      ∀ e', e' ≠ .advReportAvailable → q.items.count e' ≤ s.scansPosted.count e' := by
    intro e' he'
    refine Nat.le_trans ?_ (h.scans e' he')
    rw [Fifo.tryGet_eq_some hget]
    exact List.count_le_count_cons
  split at hs
  · cases hs
  · next events hget =>
    cases hs
    exact ⟨fun _ => .inr (.inl rfl), hscans hget, h.once, h.order⟩
  · next e events hne hget =>
    cases hs
    refine ⟨fun hpool => ?_, hscans hget, h.once, h.order⟩
    rcases h.wake hpool with hw | hw | hw
    · rw [Fifo.tryGet_eq_some hget] at hw
      rcases List.mem_cons.1 hw with rfl | hw
      · exact (hne rfl).elim
      · exact .inl hw
    · exact .inr (.inl hw)
    · exact .inr (.inr hw)

/-- A round of the drain loop: it goes on, or the pool was empty. -/
theorem WakeUp.drainReportPool {s : State cfg} (h : WakeUp s) (hphase : s.phase = .draining)
    (nowS : UInt32) : WakeUp (drainReportPool nowS s) := by
  unfold Acquisition.drainReportPool
  split
  · next hget =>
    exact ⟨fun hne => absurd (Fifo.tryGet_eq_none hget) hne, h.scans, h.once, h.order⟩
  · next report pool hget =>
    refine ⟨fun _ => .inr (.inl hphase), h.scans, h.once, ?_⟩
    show (report :: s.handed).reverse ++ pool.items = s.accepted.reverse
    rw [← h.order, Fifo.tryGet_eq_some hget, List.reverse_cons, List.append_assoc]
    rfl

/-- Every step keeps the wake-up invariant. -/
theorem WakeUp.step {l : Label} {s s' : State cfg} (h : WakeUp s) (hs : step l s = some s') :
    WakeUp s' := by
  cases l with
  | report r =>
    simp only [Acquisition.step] at hs
    split at hs
    · cases hs
    · cases hs
      exact h.onAdvReport r
  | post =>
    simp only [Acquisition.step] at hs
    split at hs
    · cases hs
      exact h.post
    · cases hs
  | scan e =>
    simp only [Acquisition.step] at hs
    split at hs
    · cases hs
    · next hnew =>
      cases hs
      exact h.scan fun hmem => hnew (.inr hmem)
  | wake =>
    simp only [Acquisition.step] at hs
    split at hs
    · exact h.processEvent hs
    · cases hs
  | drain nowS =>
    simp only [Acquisition.step] at hs
    split at hs
    · next hphase =>
      cases hs
      exact h.drainReportPool hphase nowS
    · cases hs

/-- **No accepted report is stranded, lost or handed on twice.** In every reachable state a report
in the pool is covered by a queued event, a drain that goes on or a post still owed, and the reports
handed to the parser, then those in the pool, are those the pool accepted, in order. -/
theorem reports_covered (cfg : Config) {s : State cfg} (h : (system cfg).Reachable s) :
    (s.pool.items ≠ [] → .advReportAvailable ∈ s.events.items ∨ s.phase = .draining ∨
      s.posting = true) ∧
    s.handed.reverse ++ s.pool.items = s.accepted.reverse := by
  have hinv : WakeUp s :=
    h.invariant (I := WakeUp) (fun _ hs => hs ▸ wakeUp_initial) fun _ _ _ hs hstep => hs.step hstep
  exact ⟨hinv.wake, hinv.order⟩

end

/-- Two reports wake the thread once, which drains both; its second wake finds the pool empty, and a
third report comes in while it drains. -/
theorem reports_covered_drained :
    ∃ s : State (.ofDevices 1), (system (.ofDevices 1)).Reachable s ∧
      s.handed.length = 2 ∧ s.pool.items.length = 1 ∧ s.phase = .draining ∧
      (s.pool.items ≠ [] → .advReportAvailable ∈ s.events.items ∨ s.phase = .draining ∨
        s.posting = true) ∧
      s.handed.reverse ++ s.pool.items = s.accepted.reverse := by
  let r (n : UInt8) : AdvReport := ⟨.ofByte n, 0, -50, [], Nat.zero_le _⟩
  obtain ⟨s, hs, htest⟩ := Lts.Reachable.exists_of_run (L := system (.ofDevices 1))
    [.report (r 1), .post, .report (r 2), .wake, .drain 5, .drain 5, .post, .drain 6, .wake,
      .report (r 3)] (s := .initial)
    (fun s => decide (s.handed.length = 2 ∧ s.pool.items.length = 1 ∧ s.phase = .draining))
    (.init rfl) (by decide)
  obtain ⟨hhanded, hpool, hphase⟩ := of_decide_eq_true htest
  exact ⟨s, hs, hhanded, hpool, hphase, reports_covered _ hs⟩

end Concentrator.Acquisition
