import Concentrator.Comms.OneCycle
import Concentrator.Comms.Numbering

/-!
# How long the device is silent

The silence clock is a variable of the service that holds the time of the last fragment the network
took. A cycle with nothing to report reads it, and sends a heartbeat once the silence has lasted for
`HEARTBEAT_MAX_SILENCE_S`; so after a cycle that could send, and whose sends were accepted, the
silence is shorter than that (`silence_honoured`).

The variable is written from a clock that is read after the fragment was accepted and its entries
were acknowledged. A second may pass in between, and the silence is counted from then.
-/

namespace Concentrator.Comms

open Threaded

variable {ρ : Type} [AsReading ρ] {cfg : Config}

/-! ## What the history says -/

/-- What a cycle has done so far, the latest first. -/
def thisCycle : List (Noted (cycles ρ cfg)) → List (Noted (cycles ρ cfg))
  | [] => []
  | .start _ :: _ => []
  | item :: history => item :: thisCycle history

/-- The times that were read. -/
def clockReads (history : List (Noted (cycles ρ cfg))) : List UInt32 :=
  history.filterMap fun
    | .call .getUptimeSeconds nowS _ => some nowS
    | _ => none

/-- An answer that lets the cycle send: the link is connected, a header fits, and what was handed to
the link was accepted. -/
def GoodAnswer : Noted (cycles ρ cfg) → Prop
  | .call .isConnected connected _ => connected = true
  | .call .getMaxPayloadSize size _ => 12 < UInt8.toNat size
  | .call .getAvailablePayloadSize size _ => 12 < UInt8.toNat size
  | .call (.send _) result _ => result = LinkError.noError
  | _ => True

instance (item : Noted (cycles ρ cfg)) : Decidable (GoodAnswer item) :=
  match item with
  | .call .isConnected connected _ => inferInstanceAs (Decidable (connected = true))
  | .call .getMaxPayloadSize size _ => inferInstanceAs (Decidable (12 < UInt8.toNat size))
  | .call .getAvailablePayloadSize size _ => inferInstanceAs (Decidable (12 < UInt8.toNat size))
  | .call (.send _) result _ => inferInstanceAs (Decidable (result = LinkError.noError))
  | .start _ | .call .getMaxUplinksPerDispatch _ _ | .call .getUptimeSeconds _ _
  | .call (.scan _) _ _ | .call (.markReported _) _ _ | .call .getDroppedReportCount _ _
  | .call .getEvictedCount _ _ | .call .statics _ _ | .call (.modify _) _ _ => isTrue trivial

/-- The time when the last fragment was accepted, by the clock of the world; boot, if none was. -/
def lastAccepted : List (Noted (cycles ρ cfg)) → UInt32
  | [] => 0
  | .call (.send (.fragment _)) LinkError.noError w :: _ => w.uptime
  | _ :: history => lastAccepted history

/-- A fragment was accepted, and the clock has not been read since. -/
def awaiting : List (Noted (cycles ρ cfg)) → Bool
  | [] => false
  | .call (.send (.fragment _)) LinkError.noError _ :: _ => true
  | .call .getUptimeSeconds _ _ :: _ => false
  | _ :: history => awaiting history

/-- The first time that was read after the last fragment was accepted; boot, if none was. -/
def lastNoted : List (Noted (cycles ρ cfg)) → UInt32
  | [] => 0
  | .call .getUptimeSeconds nowS _ :: history =>
    if awaiting history then nowS else lastNoted history
  | _ :: history => lastNoted history

/-- The silence is honoured if it is counted from `lastUplink`: after a cycle that could send, and
whose sends were accepted, it was short whenever the cycle looked at the clock, and the silence
clock is that time. -/
structure Honoured (lastUplink : UInt32) (s : (recorded ρ cfg).State) : Prop where
  bound : (∀ item ∈ thisCycle s.2, GoodAnswer item) → ∀ nowS ∈ clockReads (thisCycle s.2),
    nowS.toNat - lastUplink.toNat < cfg.heartbeatMaxSilenceS.toNat
  noted : s.1.statics.lastUplinkUptimeS = lastUplink

variable (ρ cfg) in
/-- Runs in which the clock does not wrap around, over a link that keeps the promise of its
interface. -/
def steadyAllowing : (cycles ρ cfg).Guard where
  call := (allowing ρ cfg).call
  other := (steadyClock ρ cfg).other

/-! ## The silence clock in the course of a cycle -/

/-- No fragment waits to be noted, and the last one was noted as of `sentAt`. -/
structure Settled (sentAt : UInt32) (history : List (Noted (cycles ρ cfg))) : Prop where
  noted : awaiting history = false
  eq : sentAt = lastNoted history
  after : lastAccepted history ≤ sentAt

/-- The silence clock in each phase of a cycle. -/
def NotedPhase : Phase ρ → (recorded ρ cfg).State → Prop
  | .noting .., s => awaiting s.2 = true ∧ lastAccepted s.2 ≤ s.1.uptime
  | .noted _ _ _ sentAt, s => Settled sentAt s.2 ∧ sentAt ≤ s.1.uptime
  | _, s => Settled s.1.statics.lastUplinkUptimeS s.2

/-- How long the silence has lasted in each phase of a cycle. -/
def BoundedPhase : Phase ρ → (recorded ρ cfg).State → Prop
  | .idle, s | .ended _, s => (∀ item ∈ thisCycle s.2, GoodAnswer item) →
      ∀ nowS ∈ clockReads (thisCycle s.2),
        nowS.toNat - s.1.statics.lastUplinkUptimeS.toNat < cfg.heartbeatMaxSilenceS.toNat
  | .probing, s => ¬ ∀ item ∈ thisCycle s.2, GoodAnswer item
  | .asked nowS, s => s.1.statics.lastUplinkUptimeS ≤ nowS ∧
      ∀ readS ∈ clockReads (thisCycle s.2), readS ≤ nowS
  | .sending p index _, s => p.fragmentCount ≤ index →
      ∀ readS ∈ clockReads (thisCycle s.2), readS ≤ s.1.statics.lastUplinkUptimeS
  | .noted _ _ _ sentAt, s => ∀ readS ∈ clockReads (thisCycle s.2), readS ≤ sentAt
  | _, _ => True

/-- What is kept about the silence in each phase. -/
structure SilencePhase (ph : Phase ρ) (s : (recorded ρ cfg).State) : Prop where
  steady : s.1.statics.lastUplinkUptimeS ≤ s.1.uptime
  reads : ∀ readS ∈ clockReads (thisCycle s.2), readS ≤ s.1.uptime
  noted : NotedPhase ph s
  bounded : BoundedPhase ph s

theorem silencePhase_stable {ph : Phase ρ} :
    Stable (steadyAllowing ρ cfg).withHistory (SilencePhase ph) := by
  intro x s hg h
  have hnoted := h.noted
  have hbounded := h.bounded
  cases x with
  | upsert | dropReport =>
    refine ⟨h.steady, h.reads, ?_, ?_⟩
    · cases ph <;> exact hnoted
    · cases ph <;> exact hbounded
  | tick seconds =>
    refine ⟨UInt32.le_trans h.steady hg, fun readS hr => UInt32.le_trans (h.reads readS hr) hg,
      ?_, ?_⟩
    · cases ph with
      | noting => exact ⟨hnoted.1, UInt32.le_trans hnoted.2 hg⟩
      | noted => exact ⟨hnoted.1, UInt32.le_trans hnoted.2 hg⟩
      | _ => exact hnoted
    · cases ph <;> exact hbounded

/-- An item that leaves the silence clock alone: no look at the clock and no accepted fragment. -/
def LeavesClock : Noted (cycles ρ cfg) → Prop
  | .call .getUptimeSeconds _ _ | .call (.send (.fragment _)) LinkError.noError _ => False
  | _ => True

theorem leavesClock_refused {uplink : Uplink ρ} {result : LinkError} {w : World ρ cfg}
    (hresult : result ≠ .noError) :
    LeavesClock (.call (.send uplink) result w : Noted (cycles ρ cfg)) := by
  unfold LeavesClock
  split
  · next heq => cases heq
  · next heq =>
    cases heq
    exact hresult rfl
  · trivial

/-- An item that leaves the silence clock alone changes nothing. -/
theorem Settled.leave {sentAt : UInt32} {item : Noted (cycles ρ cfg)}
    {history : List (Noted (cycles ρ cfg))} (h : Settled sentAt history)
    (hitem : LeavesClock item) : Settled sentAt (item :: history) := by
  cases item with
  | start => exact ⟨h.noted, h.eq, h.after⟩
  | call o ans w =>
    cases o with
    | getUptimeSeconds => exact hitem.elim
    | send uplink =>
      cases uplink with
      | probe => exact ⟨h.noted, h.eq, h.after⟩
      | fragment f =>
        cases ans with
        | noError => exact hitem.elim
        | _ => exact ⟨h.noted, h.eq, h.after⟩
    | _ => exact ⟨h.noted, h.eq, h.after⟩

/-- A clock that is read while no fragment waits changes nothing. -/
theorem Settled.read {sentAt nowS : UInt32} {history : List (Noted (cycles ρ cfg))}
    {w : World ρ cfg} (h : Settled sentAt history) :
    Settled sentAt (.call .getUptimeSeconds nowS w :: history) := by
  refine ⟨rfl, ?_, h.after⟩
  show sentAt = if awaiting history then nowS else lastNoted history
  rw [h.noted]
  exact h.eq

/-- The clock that is read when a fragment waits is when it is noted. -/
theorem settled_read {history : List (Noted (cycles ρ cfg))} {w : World ρ cfg}
    (hawaiting : awaiting history = true) (hafter : lastAccepted history ≤ w.uptime) :
    Settled w.uptime (.call .getUptimeSeconds w.uptime w :: history) := by
  refine ⟨rfl, ?_, hafter⟩
  show w.uptime = if awaiting history then w.uptime else lastNoted history
  rw [hawaiting]
  rfl

omit [AsReading ρ] in
/-- The clock that was read last was the latest. -/
theorem reads_le {reads : List UInt32} {nowS : UInt32} (h : ∀ readS ∈ reads, readS ≤ nowS) :
    ∀ readS ∈ nowS :: reads, readS ≤ nowS :=
  List.forall_mem_cons.2 ⟨UInt32.le_refl _, h⟩

/-- The silence follows the course of a cycle. -/
theorem silencePhase_course (hmax : 0 < cfg.heartbeatMaxSilenceS) :
    Course (steadyAllowing ρ cfg).withHistory SilencePhase where
  stable := silencePhase_stable
  quiet {ph s} o view ho _ h := by
    have hnoted := h.noted
    have hbounded := h.bounded
    cases o with
    | statics | getDroppedReportCount | getEvictedCount =>
      refine ⟨h.steady, h.reads, ?_, ?_⟩
      · cases ph with
        | noting => exact hnoted
        | noted => exact ⟨hnoted.1.leave trivial, hnoted.2⟩
        | _ => exact hnoted.leave trivial
      · cases ph with
        | idle | ended | probing =>
          exact fun hgood => hbounded fun item hitem => hgood item (.tail _ hitem)
        | _ => exact hbounded
    | _ => exact ho.elim
  began _ h := ⟨h.steady, nofun, h.noted.leave trivial, trivial⟩
  link {s} view _ h := by
    have hnoted : Settled _ (.call .isConnected view.isConnected s.1 :: s.2) :=
      h.noted.leave trivial
    split
    · exact ⟨h.steady, h.reads, hnoted, trivial⟩
    · next hdown =>
      exact ⟨h.steady, h.reads, hnoted, fun hgood => (hdown (hgood _ (.head _))).elim⟩
  rate {s} view _ h := by
    have hnoted : Settled _ (.call .getMaxPayloadSize view.maxPayloadSize s.1 :: s.2) :=
      h.noted.leave trivial
    split
    · next hle =>
      exact ⟨h.steady, h.reads, hnoted, fun hgood => Nat.not_lt.2 hle (hgood _ (.head _))⟩
    · exact ⟨h.steady, h.reads, hnoted, trivial⟩
  packet {s} view _ h := by
    have hnoted : Settled _
        (.call .getAvailablePayloadSize view.availablePayloadSize s.1 :: s.2) :=
      h.noted.leave trivial
    split
    · next hle =>
      exact ⟨h.steady, h.reads, hnoted, fun hgood => (Nat.not_lt.2 hle (hgood _ (.head _))).elim⟩
    · split <;> exact ⟨h.steady, h.reads, hnoted, trivial⟩
  probe _ h :=
    ⟨h.steady, h.reads, h.noted.leave trivial,
      fun hgood => (h.bounded fun item hitem => hgood item (.tail _ hitem)).elim⟩
  stamp _ h := ⟨h.steady, reads_le h.reads, h.noted.read, trivial⟩
  scan _ h := ⟨h.steady, h.reads, h.noted.leave trivial, trivial⟩
  disabled hzero _ := (UInt32.ne_of_lt hmax hzero.symm).elim
  ask _ h := ⟨h.steady, reads_le h.reads, h.noted.read, h.steady, reads_le h.reads⟩
  silent {s nowS} hsilent h := by
    refine ⟨h.steady, h.reads, h.noted, fun _ readS hread => ?_⟩
    obtain ⟨hlast, hreads⟩ := h.bounded
    have hle := UInt32.le_iff_toNat_le.1 (hreads readS hread)
    have hlt := UInt32.lt_iff_toNat_lt.1 hsilent
    rw [UInt32.toNat_sub_of_le _ _ hlast] at hlt
    omega
  due _ h := ⟨h.steady, h.reads, h.noted, trivial⟩
  number _ h := ⟨h.steady, h.reads, h.noted.leave trivial, trivial⟩
  clock _ h := ⟨h.steady, reads_le h.reads, h.noted.read, trivial⟩
  header _ h := ⟨h.steady, h.reads, h.noted, fun hle : (1 : UInt8) ≤ 0 => absurd hle (by decide)⟩
  headerAt h := ⟨h.steady, h.reads, h.noted, fun hle : (1 : UInt8) ≤ 0 => absurd hle (by decide)⟩
  plan _ _ hmax _ hpos h :=
    ⟨h.steady, h.reads, h.noted.leave trivial,
      fun hle => (UInt8.not_le.2 (hpos hmax) hle).elim⟩
  accept {s p index rest count} dropped evicted view _ _ hresult h := by
    refine ⟨h.steady, h.reads, ?_, trivial⟩
    show awaiting (.call (.send (.fragment _)) view.sendResult s.1 :: s.2) = true ∧
      lastAccepted (.call (.send (.fragment _)) view.sendResult s.1 :: s.2) ≤ s.1.uptime
    rw [hresult]
    exact ⟨rfl, UInt32.le_refl _⟩
  refuse _ _ _ _ _ hresult h :=
    ⟨h.steady, h.reads, h.noted.leave (leavesClock_refused hresult),
      fun hgood => (hresult (hgood _ (.head _))).elim⟩
  mark _ _ h := ⟨h.steady, h.reads, h.noted, trivial⟩
  read _ h :=
    ⟨h.steady, reads_le h.reads, ⟨settled_read h.noted.1 h.noted.2, UInt32.le_refl _⟩,
      reads_le h.reads⟩
  note _ _ h := ⟨h.noted.2, h.reads, h.noted.1.leave trivial, fun _ => h.bounded⟩
  finish {s p index rest} hindex h := by
    refine ⟨h.steady, h.reads, h.noted, fun _ readS hread => ?_⟩
    have hle := UInt32.le_iff_toNat_le.1 (h.bounded hindex readS hread)
    rw [Nat.sub_eq_zero_of_le hle]
    exact UInt32.lt_iff_toNat_lt.1 hmax
  boot _ h :=
    ⟨h.steady, h.reads, h.noted.leave trivial,
      fun hgood => h.bounded fun item hitem => hgood item (.tail _ hitem)⟩
  leave h := ⟨h.steady, h.reads, h.noted, h.bounded⟩

/-- **The silence clock is honoured**, counted from when a fragment is noted, which is not before it
was accepted: in every run in which the clock does not wrap around, over a link that allows a
transmission a cycle at least, whatever else it answers. -/
theorem silence_honoured (hmax : 0 < cfg.heartbeatMaxSilenceS) {c : (recorded ρ cfg).Conf}
    (h : Reach (steadyAllowing ρ cfg).withHistory (booted.withHistory []) c)
    (hidle : c.running = none) :
    Honoured (lastNoted c.state.2) c.state ∧ lastAccepted c.state.2 ≤ lastNoted c.state.2 := by
  have h₀ : SilencePhase .idle (booted.withHistory [] : (recorded ρ cfg).Conf).state :=
    ⟨UInt32.le_refl _, fun _ hread => (List.not_mem_nil hread).elim,
      ⟨rfl, rfl, UInt32.le_refl _⟩, fun _ _ hread => (List.not_mem_nil hread).elim⟩
  have hend := ((silencePhase_course hmax).reach rfl h₀ h).2 hidle
  have hlast : c.state.1.statics.lastUplinkUptimeS = lastNoted c.state.2 := hend.noted.eq
  have hbound := hend.bounded
  have hafter := hend.noted.after
  rw [hlast] at hafter
  refine ⟨⟨fun hgood nowS hread => ?_, hlast⟩, hafter⟩
  rw [← hlast]
  exact hbound hgood nowS hread

/-! ## Runs of one device -/

/-- A step in which the clock does not wrap around. -/
def steadyStep : (recorded Reading (.ofDevices 1)).Label →
    (recorded Reading (.ofDevices 1)).Conf → Bool
  | .other (.tick seconds), c => decide (c.state.1.uptime ≤ c.state.1.uptime + seconds)
  | _, _ => true

/-- Moreover, a transmission is allowed. -/
def promisedStep : (recorded Reading (.ofDevices 1)).Label →
    (recorded Reading (.ofDevices 1)).Conf → Bool
  | .call view, _ => decide (view.maxUplinksPerDispatch ≠ 0)
  | l, c => steadyStep l c

theorem steadyStep_allows (l : (recorded Reading (.ofDevices 1)).Label)
    (c : (recorded Reading (.ofDevices 1)).Conf) (h : steadyStep l c = true) :
    (steadyClock Reading (.ofDevices 1)).withHistory.Allows l c := by
  obtain ⟨s, r⟩ := c
  match l, r with
  | .start, none | .start, some _ => trivial
  | .call _, none | .call _, some (.pure _) | .call _, some (.call ..) => trivial
  | .other (.tick seconds), _ =>
    have hsteady : s.1.uptime ≤ s.1.uptime + seconds := of_decide_eq_true h
    exact hsteady
  | .other (.upsert ..), _ | .other .dropReport, _ => trivial

theorem promisedStep_allows (l : (recorded Reading (.ofDevices 1)).Label)
    (c : (recorded Reading (.ofDevices 1)).Conf) (h : promisedStep l c = true) :
    (steadyAllowing Reading (.ofDevices 1)).withHistory.Allows l c := by
  obtain ⟨s, r⟩ := c
  match l, r with
  | .start, none | .start, some _ => trivial
  | .call _, none | .call _, some (.pure _) => trivial
  | .call view, some (.call o _) =>
    cases o with
    | getMaxUplinksPerDispatch =>
      have hpromised : view.maxUplinksPerDispatch ≠ 0 := of_decide_eq_true h
      exact hpromised
    | _ => trivial
  | .other x, r => exact steadyStep_allows (.other x) ⟨s, r⟩ h

/-- A device is heard, time passes, and a cycle is run over a link, of which the first calls are
made before some more time passes. -/
def heardCycle (view : LinkView) (before during : UInt32) (first rest : Nat) :
    List (recorded Reading (.ofDevices 1)).Label :=
  .other (.upsert (.ofByte 1) (-50) default) :: .other (.tick before) :: .start ::
    List.replicate first (.call view) ++ .other (.tick during) :: List.replicate rest (.call view)

/-- A fragment is sent, accepted and noted in one second. -/
theorem silence_honoured_one :
    ∃ c : (recorded Reading (.ofDevices 1)).Conf, clockReads (thisCycle c.state.2) ≠ [] ∧
      Honoured (lastNoted c.state.2) c.state := by
  obtain ⟨c, hreach, htest⟩ := Reach.exists_of_runWithin promisedStep_allows
    (heardCycle openLink 7 0 12 4) (c := booted.withHistory [])
    (fun c => c.running.isNone && decide (clockReads (thisCycle c.state.2) ≠ [])) (by decide)
  obtain ⟨hidle, hreads⟩ := Bool.and_eq_true_iff.1 htest
  exact ⟨c, of_decide_eq_true hreads,
    (silence_honoured (by decide) hreach (Option.isNone_iff_eq_none.1 hidle)).1⟩

/-- A link that allows no transmission. -/
def closedLink : LinkView := ⟨true, 51, 51, 0, .noError⟩

/-- A second passes between the acceptance of a fragment and the reading of the clock, so that the
silence clock is not the time of the acceptance; and over a link that allows no transmission, the
silence lasts for as long as the device was not heard. -/
theorem silence_fails :
    (¬ ∀ c : (recorded Reading (.ofDevices 1)).Conf,
      Reach (steadyAllowing Reading (.ofDevices 1)).withHistory (booted.withHistory []) c →
        c.running = none → Honoured (lastAccepted c.state.2) c.state) ∧
    ¬ ∀ c : (recorded Reading (.ofDevices 1)).Conf,
      Reach (steadyClock Reading (.ofDevices 1)).withHistory (booted.withHistory []) c →
        c.running = none → Honoured (lastNoted c.state.2) c.state := by
  constructor
  · intro hall
    obtain ⟨c, hreach, htest⟩ := Reach.exists_of_runWithin promisedStep_allows
      (heardCycle openLink 0 1 12 4) (c := booted.withHistory [])
      (fun c => c.running.isNone &&
        decide (c.state.1.statics.lastUplinkUptimeS ≠ lastAccepted c.state.2)) (by decide)
    obtain ⟨hidle, hlate⟩ := Bool.and_eq_true_iff.1 htest
    exact of_decide_eq_true hlate (hall c hreach (Option.isNone_iff_eq_none.1 hidle)).noted
  · intro hall
    obtain ⟨c, hreach, htest⟩ := Reach.exists_of_runWithin steadyStep_allows
      (heardCycle closedLink 3600 0 8 0) (c := booted.withHistory [])
      (fun c => c.running.isNone && (decide (∀ item ∈ thisCycle c.state.2, GoodAnswer item) &&
        (clockReads (thisCycle c.state.2)).any fun nowS =>
          decide (3600 ≤ nowS.toNat - (lastNoted c.state.2).toNat))) (by decide)
    obtain ⟨hidle, htest⟩ := Bool.and_eq_true_iff.1 htest
    obtain ⟨hgood, hlong⟩ := Bool.and_eq_true_iff.1 htest
    obtain ⟨nowS, hread, hlong⟩ := List.any_eq_true.1 hlong
    have hbound := (hall c hreach (Option.isNone_iff_eq_none.1 hidle)).bound
      (of_decide_eq_true hgood) nowS hread
    exact absurd (of_decide_eq_true hlong) (Nat.not_le.2 hbound)

end Concentrator.Comms
