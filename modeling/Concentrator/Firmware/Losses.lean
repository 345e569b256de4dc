import Concentrator.Comms.Header
import Concentrator.Firmware.Discipline

/-!
# What the loss counters of a header say

A header carries two of the three loss counters: the reports the pool refused and the devices
evicted, each saturated twice. They count what was lost (`Counted`), and the header carries what
they were when they were read for it (`Comms.headerWatch`). The third counter, of the events
dropped at full queues, is in no header. So two zeros mean that nothing was lost exactly as long as
no event has been dropped and nothing was lost since the counters were read (`nothingLost_iff`).
-/

namespace Concentrator.Firmware

open Threaded

/-! ## The counters -/

/-- A counter of sixteen bits that has counted `n`. -/
def counter (n : Nat) : UInt16 := UInt16.ofNat (min 65535 n)

theorem counter_toNat (n : Nat) : (counter n).toNat = min 65535 n := by
  have hle : min 65535 n < 2 ^ 16 := by omega
  exact UInt16.toNat_ofNat_of_lt' hle

theorem saturatingSucc_counter (n : Nat) : Table.saturatingSucc (counter n) = counter (n + 1) := by
  refine UInt16.toNat_inj.1 ?_
  rw [Table.saturatingSucc_toNat, counter_toNat, counter_toNat]
  omega

/-- A counter that reads zero in a header has counted nothing. -/
theorem saturateToU8_counter {n : Nat} (h : Comms.saturateToU8 (counter n) = 0) : n = 0 := by
  have hcount := counter_toNat n
  unfold Comms.saturateToU8 at h
  split at h
  · cases h
  · next hle =>
    have hle := UInt16.le_iff_toNat_le.1 (UInt16.not_lt.1 hle)
    have hzero : (counter n).toNat % 256 = 0 := congrArg UInt8.toNat h
    have h255 : (0xFF : UInt16).toNat = 255 := rfl
    omega

variable {T : Transport} {ρ : Type} {cfg : Config}

/-- The two counters have counted what was lost. -/
structure Counted (s : State T ρ cfg) : Prop where
  refused : s.core.world.droppedReportCount = counter s.losses.refused
  evicted : s.core.world.table.evictedCount = counter s.losses.evicted

/-- The count of dropped events is what its width leaves of the events dropped. -/
def DropsCounted (s : State T ρ cfg) : Prop :=
  s.core.ledger.dropped = UInt32.ofNat s.losses.dropped

/-- What the two counters were when they were last read for a header. -/
def State.reads (s : State T ρ cfg) : UInt16 × UInt16 :=
  (counter s.losses.refusedRead, counter s.losses.evictedRead)

section
variable [AsReading ρ]

namespace Counted

variable {s : State T ρ cfg}

omit [AsReading ρ] in
/-- Both counters are part of the world. -/
theorem of_world (h : Counted s) {core : System.State T ρ cfg}
    (hworld : core.world = s.core.world) : Counted { s with core := core } where
  refused := (congrArg _ hworld).trans h.refused
  evicted := (congrArg (fun w : Comms.World ρ cfg => w.table.evictedCount) hworld).trans h.evicted

omit [AsReading ρ] in
/-- Noting an event changes neither. -/
theorem noteHandled (h : Counted s) : Counted s.noteHandled := by
  constructor
  · rw [noteHandled_core, noteHandled_losses]
    exact h.refused
  · rw [noteHandled_core, noteHandled_losses]
    exact h.evicted

/-- Every act of the others keeps the counters right: a report that the pool refuses is counted, and
a device that an upsert evicts. -/
theorem run (h : Counted s) (x : Act) : Counted (x.run s) := by
  suffices hact : Counted (x.act s) from ⟨hact.refused, hact.evicted⟩
  have hdoes := act_does x s
  generalize x.act s = s' at hdoes ⊢
  cases hdoes with
  | postBringUp => exact h.of_world (System.run_world .postBringUp s.core nofun)
  | handleEvent => exact h.of_world (System.run_world .handleEvent s.core nofun)
  | expireRetryTimer => exact h.of_world (System.run_world .expireRetryTimer s.core nofun)
  | expireDispatchTimer => exact h.of_world (System.run_world .expireDispatchTimer s.core nofun)
  | refuse _ _ =>
    refine ⟨?_, h.evicted⟩
    simp only [System.Act.run, Comms.Act.run, h.refused]
    exact saturatingSucc_counter _
  | @upsert report frame pool _ _ _ =>
    have hcount := Table.upsert_evictedCount s.core.world.table.toTable s.core.world.table.wf.ne_nil
      report.address report.rssi
      (AsReading.stamp s.core.world.upserts (Acquisition.toReading frame)) s.core.world.uptime
    refine ⟨h.refused, hcount.trans ?_⟩
    simp only [h.evicted]
    split
    · exact saturatingSucc_counter _
    · rfl
  | executeCommand result _ hget =>
    obtain ⟨isScanning, htaken⟩ := System.executeCommand_taken hget result
    rw [htaken]
    exact ⟨h.refused, h.evicted⟩
  | nothing | tick | accept | postAdvReport | drain | expireHeartbeatTimer | executeHeartbeat
  | postToApp | postDispatch => exact ⟨h.refused, h.evicted⟩

/-- So does every call of comms. -/
theorem perform (h : Counted s) (o : Comms.ServiceOp ρ) (ans : T.Answer) :
    Counted (perform o ans s).2 := by
  cases o with
  | cycle o =>
    cases o with
    | markReported copy =>
      have hcount := Table.markReported_evictedCount s.core.world.table.toTable copy.address
        copy.updateSeq
      exact ⟨h.refused, hcount.trans h.evicted⟩
    | _ => exact ⟨h.refused, h.evicted⟩
  | sendToApp e =>
    have hworld : s.core.world = s.noteHandled.core.world := by rw [noteHandled_core]
    have hsent := h.noteHandled.of_world hworld
    exact ⟨hsent.refused, hsent.evicted⟩
  | _ => exact ⟨h.refused, h.evicted⟩

theorem finish (h : Counted s) : Counted ((firmware T ρ cfg).finish s) := by
  have hworld : s.core.world = s.noteHandled.core.world := by rw [noteHandled_core]
  exact h.noteHandled.of_world hworld

end Counted

theorem counted_broughtUp (acquisitionReady linkReady : Bool) :
    Counted (.broughtUp acquisitionReady linkReady : State T ρ cfg) := by
  have hworld : (State.broughtUp acquisitionReady linkReady : State T ρ cfg).core.world = .boot :=
    System.foldl_carryOut System.State.world System.carryOut_world _ _
  constructor
  · rw [hworld]
    rfl
  · rw [hworld]
    rfl

/-- **The counters count what was lost**, up to what they can hold, in every run. -/
theorem counted_reach {acquisitionReady linkReady : Bool} {c : (firmware T ρ cfg).Conf}
    (hc : Reach .all (booted T ρ cfg acquisitionReady linkReady) c) : Counted c.state := by
  refine hc.kept (fun x _ _ h => h.run x) (fun o ans _ _ h => h.perform o ans)
    (fun s p s' h hstart => ?_) (fun _ h => h.finish) rfl (counted_broughtUp _ _)
  obtain ⟨e, q, -, -, rfl⟩ := start_eq_some hstart
  exact ⟨h.refused, h.evicted⟩

omit [AsReading ρ] in
/-- Adding up what a step dropped keeps in step with the counter of dropped events. -/
theorem DropsCounted.noteDropped {s s' : State T ρ cfg} (h : DropsCounted s)
    (hlosses : s'.losses.dropped = s.losses.dropped) :
    DropsCounted (s'.noteDropped s.core.ledger) := by
  show s'.core.ledger.dropped =
    UInt32.ofNat (s'.losses.dropped + (s'.core.ledger.dropped - s.core.ledger.dropped).toNat)
  rw [UInt32.ofNat_add, UInt32.ofNat_toNat, hlosses, ← h, UInt32.add_comm, UInt32.sub_add_cancel]

/-- The events dropped are counted as well, in a counter that no header carries. -/
theorem dropsCounted_reach {acquisitionReady linkReady : Bool} {c : (firmware T ρ cfg).Conf}
    (hc : Reach .all (booted T ρ cfg acquisitionReady linkReady) c) : DropsCounted c.state := by
  refine hc.kept (fun x s _ h => ?_) (fun o ans s _ h => ?_) (fun s p s' h hstart => ?_)
    (fun s h => ?_) rfl ?_
  · exact h.noteDropped (congrArg (fun noted => noted.2.2.2) (act_noted x s))
  · exact h.noteDropped (noteCall_dropped s o)
  · obtain ⟨e, q, -, -, rfl⟩ := start_eq_some hstart
    exact h
  · show s.core.ledger.dropped = UInt32.ofNat s.noteHandled.losses.dropped
    rw [noteHandled_losses]
    exact h
  · cases acquisitionReady <;> rfl

/-! ## The header -/

/-- A call of comms reads the counters as they are. -/
theorem perform_reads {s : State T ρ cfg} (h : Counted s) (o : Comms.ServiceOp ρ)
    (ans : T.Answer) : (perform o ans s).2.reads =
      (Comms.serviceWatch ρ).next o (perform o ans s).1 s.reads := by
  cases o with
  | cycle o =>
    cases o with
    | getDroppedReportCount => exact congrArg (·, s.reads.2) h.refused.symm
    | getEvictedCount => exact congrArg (s.reads.1, ·) h.evicted.symm
    | _ => rfl
  | sendToApp e =>
    show (counter s.noteHandled.losses.refusedRead, counter s.noteHandled.losses.evictedRead) =
      s.reads
    rw [noteHandled_losses]
    rfl
  | _ => rfl

/-- What a fragment about to be handed to the link says of the losses. -/
theorem header_reads {acquisitionReady linkReady : Bool} {c : (firmware T ρ cfg).Conf}
    (hc : Reach .all (booted T ρ cfg acquisitionReady linkReady) c) {f : Comms.Fragment ρ}
    {k : LinkError → Comms.ServiceProg ρ Unit}
    (hsend : c.running = some (.call (.cycle (.send (.fragment f))) k)) :
    f.header.droppedAdvReports = Comms.saturateToU8 (counter c.state.losses.refusedRead) ∧
      f.header.evictedDevices = Comms.saturateToU8 (counter c.state.losses.evictedRead) := by
  have hobeys := obeys_reach (Comms.serviceWatch ρ) State.reads (fun _ => counted_reach)
    (fun x s => ?_) (fun o ans s h => perform_reads h o ans)
    (fun s p s' hstart => ?_) rfl hc hsend
  · exact hobeys.1
  · have hnoted := act_noted x s
    exact congrArg (fun noted => (counter noted.2.1, counter noted.2.2.1)) hnoted
  · obtain ⟨e, q, -, rfl, -⟩ := start_eq_some hstart
    exact Comms.obeys_executeEvent e

/-- **When two zeros mean that nothing was lost.** In every run after any bring-up, take a fragment
about to be handed to the link whose header says that no report was refused and no device evicted.
Nothing was lost since boot, no report, no device and no event, exactly when no event was dropped at
a full queue and neither counter has counted anything since it was read for this header. -/
theorem nothingLost_iff {acquisitionReady linkReady : Bool} {c : (firmware T ρ cfg).Conf}
    (hc : Reach .all (booted T ρ cfg acquisitionReady linkReady) c) {f : Comms.Fragment ρ}
    {k : LinkError → Comms.ServiceProg ρ Unit}
    (hsend : c.running = some (.call (.cycle (.send (.fragment f))) k))
    (hreports : f.header.droppedAdvReports = 0) (hdevices : f.header.evictedDevices = 0) :
    (c.state.losses.refused = 0 ∧ c.state.losses.evicted = 0 ∧ c.state.losses.dropped = 0) ↔
      c.state.losses.dropped = 0 ∧ c.state.losses.refused = c.state.losses.refusedRead ∧
        c.state.losses.evicted = c.state.losses.evictedRead := by
  obtain ⟨hrefused, hevicted⟩ := header_reads hc hsend
  have hrefused : c.state.losses.refusedRead = 0 := saturateToU8_counter (hrefused ▸ hreports)
  have hevicted : c.state.losses.evictedRead = 0 := saturateToU8_counter (hevicted ▸ hdevices)
  rw [hrefused, hevicted]
  constructor
  · rintro ⟨hr, he, hd⟩
    exact ⟨hd, hr, he⟩
  · rintro ⟨hd, hr, he⟩
    exact ⟨hr, he, hd⟩

end

/-- The fragment about to be handed to the link has two zeros in its header, and `dropped` events
have been dropped. -/
def sendsZeros (dropped : Nat) (c : (firmware (socketLink 242) Reading (.ofDevices 1)).Conf) :
    Bool :=
  match c.running with
  | some (.call (.cycle (.send (.fragment f))) _) =>
    f.header.droppedAdvReports = 0 ∧ f.header.evictedDevices = 0 ∧
      c.state.losses.dropped = dropped ∧ c.state.losses.refused = c.state.losses.refusedRead ∧
      c.state.losses.evicted = c.state.losses.evictedRead
  | _ => false

theorem sendsZeros_cases {dropped : Nat}
    {c : (firmware (socketLink 242) Reading (.ofDevices 1)).Conf} (h : sendsZeros dropped c) :
    ∃ f k, c.running = some (.call (.cycle (.send (.fragment f))) k) ∧
      f.header.droppedAdvReports = 0 ∧ f.header.evictedDevices = 0 ∧
      c.state.losses.dropped = dropped ∧ c.state.losses.refused = c.state.losses.refusedRead ∧
      c.state.losses.evicted = c.state.losses.evictedRead := by
  unfold sendsZeros at h
  split at h
  · next f k hrunning => exact ⟨f, k, hrunning, of_decide_eq_true h⟩
  · cases h

/-- The network is joined, and a silent device sends its heartbeat; while comms is busy, the
dispatch timer expires `n` times. -/
def heartbeatRun (n : Nat) : List (firmware (socketLink 242) Reading (.ofDevices 1)).Label :=
  let accept : SocketAnswer := ⟨0, 3, 0, fun _ => 100⟩
  [.start, .call accept, .call accept, .other Act.handleEvent, .start, .call accept, .call accept,
    .other (Act.tick 3600), .other Act.expireDispatchTimer, .start] ++
    List.replicate n (.other Act.expireDispatchTimer) ++ List.replicate 12 (.call accept)

/-- A heartbeat of a device that has lost nothing. -/
theorem nothingLost_iff_heartbeat :
    ∃ (c : (firmware (socketLink 242) Reading (.ofDevices 1)).Conf) (f : Comms.Fragment Reading)
      (k : LinkError → Comms.ServiceProg Reading Unit),
      c.running = some (.call (.cycle (.send (.fragment f))) k) ∧
      c.state.losses.refused = 0 ∧ c.state.losses.evicted = 0 ∧ c.state.losses.dropped = 0 := by
  obtain ⟨c, hc, hzeros⟩ := Reach.exists_of_run (heartbeatRun 20)
    (c := booted (socketLink 242) Reading (.ofDevices 1) true true) (sendsZeros 0)
    (by decide +kernel)
  obtain ⟨f, k, hsend, hreports, hdevices, hkept⟩ := sendsZeros_cases hzeros
  exact ⟨c, f, k, hsend, (nothingLost_iff hc hsend hreports hdevices).2 hkept⟩

/-- A dispatch that finds the queue of comms full is in no header. -/
theorem nothingLost_fails :
    ∃ (c : (firmware (socketLink 242) Reading (.ofDevices 1)).Conf) (f : Comms.Fragment Reading)
      (k : LinkError → Comms.ServiceProg Reading Unit),
      Reach .all (booted (socketLink 242) Reading (.ofDevices 1) true true) c ∧
      c.running = some (.call (.cycle (.send (.fragment f))) k) ∧
      f.header.droppedAdvReports = 0 ∧ f.header.evictedDevices = 0 ∧
      c.state.losses.dropped = 1 ∧ c.state.core.ledger.dropped = 1 := by
  obtain ⟨c, hc, hzeros⟩ := Reach.exists_of_run (heartbeatRun 21)
    (c := booted (socketLink 242) Reading (.ofDevices 1) true true) (sendsZeros 1)
    (by decide +kernel)
  obtain ⟨f, k, hsend, hreports, hdevices, hdropped, -⟩ := sendsZeros_cases hzeros
  have hcount : c.state.core.ledger.dropped = UInt32.ofNat 1 :=
    (dropsCounted_reach hc).trans (congrArg UInt32.ofNat hdropped)
  exact ⟨c, f, k, hc, hsend, hreports, hdevices, hdropped, hcount⟩

end Concentrator.Firmware
