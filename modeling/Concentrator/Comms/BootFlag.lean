import Concentrator.Comms.Course
import Mathlib.Data.List.Infix

/-!
# The BOOT flag marks the first cycle that reaches the network

A fragment carries the flag as long as no cycle before its own brought a fragment to the network.
The service keeps that in one variable, which it reads in every fragment and sets only when the
cycle is over, and only if the cycle brought something: so refused fragments, probes and cycles
without a fragment leave the mark to the next cycle, and a cycle that is cut short after its first
accepted fragment uses it up.
-/

namespace Concentrator.Comms

open Threaded

variable {ρ : Type}

/-- Some fragment was accepted. -/
def Delivered (log : List (LogItem ρ)) : Prop := ∃ f, .sent (.fragment f) .noError ∈ log

/-- What was logged before the cycle that began last. -/
def earlierCycles : List (LogItem ρ) → List (LogItem ρ)
  | [] => []
  | .began :: log => log
  | _ :: log => earlierCycles log

/-- An item that is no accepted fragment. -/
def LogItem.Undelivered (item : LogItem ρ) : Prop := ∀ f, item ≠ .sent (.fragment f) .noError

theorem delivered_cons {item : LogItem ρ} (h : item.Undelivered) (log : List (LogItem ρ)) :
    Delivered (item :: log) ↔ Delivered log := by
  constructor
  · rintro ⟨f, hf⟩
    rcases List.mem_cons.1 hf with heq | hf
    · exact (h f heq.symm).elim
    · exact ⟨f, hf⟩
  · rintro ⟨f, hf⟩
    exact ⟨f, .tail _ hf⟩

theorem earlierCycles_cons {item : LogItem ρ} (h : item ≠ .began) (log : List (LogItem ρ)) :
    earlierCycles (item :: log) = earlierCycles log := by
  cases item with
  | began => exact (h rfl).elim
  | _ => rfl

/-- Every accepted fragment in the log carries the flag exactly if no cycle before its own had one
accepted. -/
def Marked (log : List (LogItem ρ)) : Prop :=
  ∀ f before, .sent (.fragment f) .noError :: before <:+ log →
    (f.header.flags &&& UplinkFlags.BOOT ≠ 0 ↔ ¬ Delivered (earlierCycles before))

theorem Marked.cons {item : LogItem ρ} {log : List (LogItem ρ)} (h : Marked log)
    (hitem : item.Undelivered) : Marked (item :: log) := by
  intro f before hsuffix
  rcases List.suffix_cons_iff.1 hsuffix with heq | hsuffix
  · exact (hitem f (List.cons.inj heq).1.symm).elim
  · exact h f before hsuffix

variable [AsReading ρ] {cfg : Config}

/-- The flag is the variable of the service, read backwards. -/
theorem uplinkFlags_boot (hreport : cfg.reportBootInFirstUplink = true) (statics : Statics)
    (isHeartbeat : Bool) :
    uplinkFlags cfg statics isHeartbeat &&& UplinkFlags.BOOT ≠ 0 ↔
      ¬ statics.bootUplinkSent = true := by
  unfold uplinkFlags
  rw [hreport]
  cases statics.bootUplinkSent <;> cases isHeartbeat <;> decide

/-- During a cycle: the variable says whether a fragment was accepted before the cycle, and
`brought` whether one was in it. -/
structure InCycle (brought : Prop) (bootUplinkSent : Bool) (log : List (LogItem ρ)) : Prop where
  marked : Marked log
  sent : bootUplinkSent = true ↔ Delivered (earlierCycles log)
  delivered : Delivered log ↔ Delivered (earlierCycles log) ∨ brought

namespace InCycle

variable {brought brought' : Prop} {bootUplinkSent : Bool} {log : List (LogItem ρ)}

omit [AsReading ρ]

theorem congr (h : InCycle brought bootUplinkSent log) (hiff : brought ↔ brought') :
    InCycle brought' bootUplinkSent log :=
  ⟨h.marked, h.sent, h.delivered.trans (or_congr_right hiff)⟩

/-- A cycle begins. -/
theorem began (hmarked : Marked log) (hsent : bootUplinkSent = true ↔ Delivered log) :
    InCycle False bootUplinkSent (.began :: log) := by
  have hbegan : (LogItem.began : LogItem ρ).Undelivered := fun f h => nomatch h
  refine ⟨hmarked.cons hbegan, hsent, ?_⟩
  rw [delivered_cons hbegan, or_false]
  rfl

theorem cons {item : LogItem ρ} (h : InCycle brought bootUplinkSent log) (hne : item ≠ .began)
    (hitem : item.Undelivered) : InCycle brought bootUplinkSent (item :: log) := by
  refine ⟨h.marked.cons hitem, ?_, ?_⟩
  · rw [earlierCycles_cons hne]
    exact h.sent
  · rw [earlierCycles_cons hne, delivered_cons hitem]
    exact h.delivered

/-- A fragment is accepted that carries the flag as the variable says. -/
theorem accept {f : Fragment ρ} (h : InCycle brought bootUplinkSent log)
    (hflag : f.header.flags &&& UplinkFlags.BOOT ≠ 0 ↔ ¬ bootUplinkSent = true) :
    InCycle True bootUplinkSent (.sent (.fragment f) .noError :: log) := by
  have hne : (LogItem.sent (.fragment f) .noError : LogItem ρ) ≠ .began := nofun
  refine ⟨fun f' before hsuffix => ?_, ?_, ?_⟩
  · rcases List.suffix_cons_iff.1 hsuffix with heq | hsuffix
    · cases heq
      rw [hflag, h.sent]
    · exact h.marked f' before hsuffix
  · rw [earlierCycles_cons hne]
    exact h.sent
  · rw [or_true, iff_true]
    exact ⟨f, .head _⟩

/-- A probe or a fragment that is refused, and a probe that is accepted, bring nothing. -/
theorem unsent {uplink : Uplink ρ} {result : LinkError} (h : InCycle brought bootUplinkSent log)
    (hnone : uplink = .probe ∨ result ≠ .noError) :
    InCycle brought bootUplinkSent (.sent uplink result :: log) := by
  refine h.cons nofun fun f heq => ?_
  cases heq
  rcases hnone with heq | hne
  · cases heq
  · exact hne rfl

/-- Once the cycle has brought nothing, or the variable is set because it has, the variable says
whether a fragment was accepted. -/
theorem leave (h : InCycle brought bootUplinkSent log) :
    (¬ brought → (bootUplinkSent = true ↔ Delivered log)) ∧ (brought → Delivered log) := by
  refine ⟨fun hnone => ?_, fun hb => h.delivered.2 (.inr hb)⟩
  rw [h.delivered, h.sent]
  exact ⟨.inl, fun hor => hor.elim id fun hb => (hnone hb).elim⟩

end InCycle

/-- What the variable says in each phase of a cycle. -/
def BootVariable : Phase ρ → (recorded ρ cfg).State → Prop
  | .idle, s => Marked s.1.log ∧ (s.1.statics.bootUplinkSent = true ↔ Delivered s.1.log)
  | .sending _ index _, s => InCycle (0 < index) s.1.statics.bootUplinkSent s.1.log
  | .noting .., s | .noted .., s => InCycle True s.1.statics.bootUplinkSent s.1.log
  | .ended sent, s => InCycle (sent = true) s.1.statics.bootUplinkSent s.1.log
  | _, s => InCycle False s.1.statics.bootUplinkSent s.1.log

/-- The others log upserts, and nothing else. -/
theorem bootVariable_stable {ph : Phase ρ} :
    Stable (Guard.all : (recorded ρ cfg).Guard) (BootVariable ph) := by
  intro x s _ h
  cases x with
  | upsert address rssi reading =>
    have hitem : (LogItem.upserted address rssi
        (AsReading.stamp s.1.upserts reading : ρ)).Undelivered := fun f heq => nomatch heq
    cases ph with
    | idle =>
      refine ⟨h.1.cons hitem, ?_⟩
      show _ ↔ Delivered (_ :: s.1.log)
      rw [delivered_cons hitem]
      exact h.2
    | _ => exact InCycle.cons h nofun hitem
  | tick | dropReport => cases ph <;> exact h

/-- The variable follows the course of a cycle. -/
theorem bootVariable_course (hreport : cfg.reportBootInFirstUplink = true) :
    Course (Guard.all : (recorded ρ cfg).Guard) BootVariable where
  stable := bootVariable_stable
  quiet {ph s} o view ho _ h := by
    cases o with
    | statics | getDroppedReportCount | getEvictedCount => cases ph <;> exact h
    | _ => exact ho.elim
  began _ h := InCycle.began h.1 h.2
  link _ _ h := by
    split
    · exact h
    · exact InCycle.congr h (iff_of_false id Bool.false_ne_true)
  rate _ _ h := by
    split <;> exact h
  packet _ _ h := by
    split
    · exact InCycle.congr h (iff_of_false id Bool.false_ne_true)
    · split <;> exact h
  probe view h := InCycle.congr (InCycle.unsent h (.inl rfl)) (iff_of_false id Bool.false_ne_true)
  stamp _ h := h
  scan _ h := InCycle.cons h nofun fun f heq => nomatch heq
  disabled _ h := InCycle.congr h (iff_of_false id Bool.false_ne_true)
  ask _ h := h
  silent _ h := InCycle.congr h (iff_of_false id Bool.false_ne_true)
  due _ h := h
  number _ h := h
  clock _ h := h
  header _ h := InCycle.congr h (iff_of_false id (UInt8.lt_irrefl 0))
  headerAt h := InCycle.congr h (iff_of_false id (UInt8.lt_irrefl 0))
  plan _ _ _ _ _ h := InCycle.congr h (iff_of_false id (UInt8.lt_irrefl 0))
  accept {s p index rest count} dropped evicted view _ _ hresult h := by
    show InCycle True s.1.statics.bootUplinkSent (.sent _ view.sendResult :: s.1.log)
    rw [hresult]
    exact InCycle.accept h (uplinkFlags_boot hreport s.1.statics p.isHeartbeat)
  refuse _ _ _ _ _ hresult h := by
    exact InCycle.congr (InCycle.unsent h (.inr hresult)) decide_eq_true_iff.symm
  mark _ _ h := h
  read _ h := h
  note {s p index rest sentAt} _ hindex h := by
    refine InCycle.congr h (iff_of_true trivial ?_)
    rw [UInt8.lt_iff_toNat_lt, toNat_nextIndex hindex]
    exact Nat.succ_pos _
  finish _ h := InCycle.congr h decide_eq_true_iff.symm
  boot _ h := ⟨h.marked, iff_of_true rfl ((InCycle.leave h).2 rfl)⟩
  leave h := ⟨h.marked, (InCycle.leave h).1 Bool.false_ne_true⟩

/-- **The flag marks the first cycle that reaches the network.** Whatever the link answers, whatever
is in the table and whatever the others do: an accepted fragment carries the flag exactly if no
fragment of an earlier cycle was accepted. -/
theorem boot_iff_first (hreport : cfg.reportBootInFirstUplink = true) {c₀ c : (cycles ρ cfg).Conf}
    (hidle : c₀.running = none) (hunsent : c₀.state.statics.bootUplinkSent = false)
    (hnothing : c₀.state.log = []) (h : Reach Guard.all c₀ c) {f : Fragment ρ}
    {before : List (LogItem ρ)}
    (haccepted : .sent (.fragment f) .noError :: before <:+ c.state.log) :
    f.header.flags &&& UplinkFlags.BOOT ≠ 0 ↔ ¬ Delivered (earlierCycles before) := by
  obtain ⟨history, hreach⟩ := h.withHistory []
  have h₀ : BootVariable .idle (c₀.withHistory []).state := by
    show Marked c₀.state.log ∧ (c₀.state.statics.bootUplinkSent = true ↔ Delivered c₀.state.log)
    rw [hnothing, hunsent]
    refine ⟨fun f before hsuffix => ?_, iff_of_false Bool.false_ne_true fun ⟨f, hf⟩ => ?_⟩
    · cases List.suffix_nil.1 hsuffix
    · cases hf
  obtain ⟨ph, hph⟩ := ((bootVariable_course hreport).reach hidle h₀ hreach).1
  have hmarked : Marked c.state.log := by
    cases ph with
    | idle => exact hph.1
    | _ => exact InCycle.marked hph
  exact hmarked f before haccepted

/-- A device is heard, and a cycle brings its reading to the network. -/
def firstDelivery : List (cycles Reading (.ofDevices 1)).Label :=
  .other (.upsert (.ofByte 1) (-50) default) :: .start :: List.replicate 12 (.call openLink)

/-- The last thing that happened is that a fragment with the flag was accepted. -/
def bootAccepted (c : (cycles Reading (.ofDevices 1)).Conf) : Bool :=
  match c.state.log with
  | .sent (.fragment f) .noError :: _ => decide (f.header.flags &&& UplinkFlags.BOOT ≠ 0)
  | _ => false

theorem boot_iff_first_one :
    ∃ (c : (cycles Reading (.ofDevices 1)).Conf) (f : Fragment Reading)
      (before : List (LogItem Reading)), Reach Guard.all booted c ∧
      .sent (.fragment f) .noError :: before <:+ c.state.log ∧
      ¬ Delivered (earlierCycles before) := by
  obtain ⟨c, hc, hhead⟩ := Reach.exists_of_run firstDelivery (c := booted) bootAccepted (by decide)
  unfold bootAccepted at hhead
  split at hhead
  · next f before hlog =>
    have hsuffix : .sent (.fragment f) .noError :: before <:+ c.state.log := by
      rw [hlog]
    exact ⟨c, f, before, hc, hsuffix,
      (boot_iff_first rfl rfl rfl rfl hc hsuffix).1 (of_decide_eq_true hhead)⟩
  · cases hhead

end Concentrator.Comms
