import Concentrator.Comms.Course
import Concentrator.Hal.Backend
import Mathlib.Data.List.Basic

/-!
# How fragments are numbered

The far end tells fragments apart by the sequence number and the index in their headers. A cycle
that hands a fragment to the link has begun one number for it, whether its fragments carry records
or not, and a cycle that hands none over has begun none: so the numbers count the cycles that hand
something over, modulo 2^16. That rests on what the interface of the link promises, an allowance of
one transmission a cycle at least, which every backend keeps (`allowing_of_backend`).
-/

namespace Concentrator.Comms

open Threaded

variable {ρ : Type}

variable (ρ) in
/-- The fragments that a cycle handed to the link, in order, with the answers. -/
abbrev Cycle : Type := List (Fragment ρ × LinkError)

/-- The fragments of a cycle that were accepted. -/
def Cycle.accepted (cycle : Cycle ρ) : List (Fragment ρ) :=
  (cycle.filter fun f => f.2 = .noError).map (·.1)

/-- The cycles in a log, the latest first. -/
def cyclesOf : List (LogItem ρ) → List (Cycle ρ)
  | [] => [[]]
  | .began :: log => [] :: cyclesOf log
  | .sent (.fragment f) result :: log => (cyclesOf log).modifyHead (· ++ [(f, result)])
  | _ :: log => cyclesOf log

/-- The cycles that handed a fragment to the link, in order. -/
def attempting (cycles : List (Cycle ρ)) : List (Cycle ρ) :=
  cycles.reverse.filter fun cycle => !cycle.isEmpty

/-- The sequence number and the index tell the accepted fragments of some cycles apart. -/
structure Identified (cycles : List (Cycle ρ)) : Prop where
  /-- The fragments of a cycle have the sequence number and the count in common. -/
  common : ∀ cycle ∈ cycles, ∀ f ∈ cycle, ∀ f' ∈ cycle,
    f.1.header.sequence = f'.1.header.sequence ∧
      f.1.header.fragmentCount = f'.1.header.fragmentCount
  /-- Those that were accepted are numbered from zero, without a gap and below the count. -/
  indices : ∀ cycle ∈ cycles, ∃ n,
    cycle.accepted.map (·.header.fragmentIndex.toNat) = List.range n ∧
      ∀ f ∈ cycle, n ≤ f.1.header.fragmentCount.toNat
  /-- Two cycles that are not a whole turn of the number apart have different numbers. -/
  distinct : ∀ (i j : Nat) (hi : i < cycles.length) (hj : j < cycles.length), i < j →
    j - i < 65536 → ∀ f ∈ cycles[i].accepted, ∀ f' ∈ cycles[j].accepted,
      f.header.sequence ≠ f'.header.sequence

/-- The fragments of one cycle, of which `n` were accepted. -/
structure IsCycle (sequence : UInt16) (fragmentCount : UInt8) (n : Nat) (cycle : Cycle ρ) :
    Prop where
  sequence_eq : ∀ f ∈ cycle, f.1.header.sequence = sequence
  fragmentCount_eq : ∀ f ∈ cycle, f.1.header.fragmentCount = fragmentCount
  indices : cycle.accepted.map (·.header.fragmentIndex.toNat) = List.range n
  le : n ≤ fragmentCount.toNat

theorem IsCycle.nil (sequence : UInt16) (fragmentCount : UInt8) :
    IsCycle (ρ := ρ) sequence fragmentCount 0 [] :=
  ⟨nofun, nofun, rfl, Nat.zero_le _⟩

/-- Another fragment of a cycle bears the number and the count of the others. -/
theorem IsCycle.header_snoc {sequence : UInt16} {fragmentCount : UInt8} {n : Nat}
    {cycle : Cycle ρ} {f : Fragment ρ} (h : IsCycle sequence fragmentCount n cycle)
    (result : LinkError) (hsequence : f.header.sequence = sequence)
    (hcount : f.header.fragmentCount = fragmentCount) :
    (∀ f' ∈ cycle ++ [(f, result)], f'.1.header.sequence = sequence) ∧
      ∀ f' ∈ cycle ++ [(f, result)], f'.1.header.fragmentCount = fragmentCount := by
  constructor
  · exact List.forall_mem_append.2 ⟨h.sequence_eq, List.forall_mem_singleton.2 hsequence⟩
  · exact List.forall_mem_append.2 ⟨h.fragmentCount_eq, List.forall_mem_singleton.2 hcount⟩

/-- The next fragment of a cycle was accepted. -/
theorem IsCycle.accept {sequence : UInt16} {fragmentCount : UInt8} {n : Nat} {cycle : Cycle ρ}
    {f : Fragment ρ} (h : IsCycle sequence fragmentCount n cycle) (hn : n < fragmentCount.toNat)
    (hsequence : f.header.sequence = sequence) (hcount : f.header.fragmentCount = fragmentCount)
    (hindex : f.header.fragmentIndex.toNat = n) :
    IsCycle sequence fragmentCount (n + 1) (cycle ++ [(f, .noError)]) := by
  obtain ⟨hsequences, hcounts⟩ := h.header_snoc .noError hsequence hcount
  refine ⟨hsequences, hcounts, ?_, hn⟩
  have haccepted : Cycle.accepted (cycle ++ [(f, .noError)]) = cycle.accepted ++ [f] := by
    simp [Cycle.accepted]
  rw [haccepted, List.map_append, h.indices, List.range_succ, List.map_singleton, hindex]

/-- The next fragment of a cycle was refused. -/
theorem IsCycle.refuse {sequence : UInt16} {fragmentCount : UInt8} {n : Nat} {cycle : Cycle ρ}
    {f : Fragment ρ} {result : LinkError} (h : IsCycle sequence fragmentCount n cycle)
    (hresult : result ≠ .noError) (hsequence : f.header.sequence = sequence)
    (hcount : f.header.fragmentCount = fragmentCount) :
    IsCycle sequence fragmentCount n (cycle ++ [(f, result)]) := by
  obtain ⟨hsequences, hcounts⟩ := h.header_snoc result hsequence hcount
  refine ⟨hsequences, hcounts, ?_, h.le⟩
  have haccepted : Cycle.accepted (cycle ++ [(f, result)]) = cycle.accepted := by
    simp [Cycle.accepted, hresult]
  rw [haccepted, h.indices]

/-- Cycles, the latest first, that have been numbered from `first` on, up to `last`. -/
inductive Numbered (first : UInt16) : (last : UInt16) → List (Cycle ρ) → Prop
  | none : Numbered first first []
  | quiet {last : UInt16} {cycles : List (Cycle ρ)} : Numbered first last cycles →
      Numbered first last ([] :: cycles)
  | attempted {last : UInt16} {cycles : List (Cycle ρ)} {cycle : Cycle ρ} {fragmentCount : UInt8}
      {n : Nat} : cycle ≠ [] → IsCycle (last + 1) fragmentCount n cycle →
      Numbered first last cycles → Numbered first (last + 1) (cycle :: cycles)

namespace Numbered

variable {first last : UInt16} {cycles : List (Cycle ρ)}

/-- The numbers count the attempting cycles: the induction is on the cycles. -/
theorem attempting_isCycle (h : Numbered first last cycles) :
    last = first + UInt16.ofNat (attempting cycles).length ∧
      ∀ i (hi : i < (attempting cycles).length), ∃ fragmentCount n,
        IsCycle (first + UInt16.ofNat (i + 1)) fragmentCount n (attempting cycles)[i] := by
  induction h with
  | none => exact ⟨(UInt16.add_zero first).symm, nofun⟩
  | quiet _ ih => simpa [attempting] using ih
  | @attempted last cycles cycle fragmentCount n hne hcycle _ ih =>
    obtain ⟨hlast, ih⟩ := ih
    have happend : attempting (cycle :: cycles) = attempting cycles ++ [cycle] := by
      simp [attempting, hne]
    have hnext : last + 1 = first + UInt16.ofNat ((attempting cycles).length + 1) := by
      rw [hlast, UInt16.ofNat_add]
      exact UInt16.add_assoc _ _ _
    rw [happend]
    refine ⟨by rw [List.length_append, List.length_singleton, hnext], fun i hi => ?_⟩
    by_cases hold : i < (attempting cycles).length
    · rw [List.getElem_append_left hold]
      exact ih i hold
    · have hi' : i = (attempting cycles).length := by
        rw [List.length_append, List.length_singleton] at hi
        omega
      subst hi'
      rw [List.getElem_concat_length rfl, ← hnext]
      exact ⟨_, _, hcycle⟩

/-- Numbers that are less than a whole turn apart are different. -/
theorem number_ne {i j : Nat} (hij : i < j) (hturn : j - i < 65536) :
    first + UInt16.ofNat (i + 1) ≠ first + UInt16.ofNat (j + 1) := by
  intro heq
  have hmod : (i + 1) % 65536 = (j + 1) % 65536 :=
    congrArg UInt16.toNat ((UInt16.add_right_inj first).1 heq)
  omega

theorem identified (h : Numbered first last cycles) : Identified (attempting cycles) := by
  obtain ⟨-, hcycles⟩ := h.attempting_isCycle
  have hmem : ∀ cycle ∈ attempting cycles, ∃ sequence fragmentCount n,
      IsCycle sequence fragmentCount n cycle := by
    intro cycle hcycle
    obtain ⟨i, hi, rfl⟩ := List.getElem_of_mem hcycle
    exact ⟨_, hcycles i hi⟩
  have haccepted (cycle : Cycle ρ) (f : Fragment ρ) (hf : f ∈ cycle.accepted) :
      ∃ result, (f, result) ∈ cycle := by
    obtain ⟨⟨f, result⟩, hin, rfl⟩ := List.mem_map.1 hf
    exact ⟨result, (List.mem_filter.1 hin).1⟩
  refine ⟨fun cycle hcycle f hf f' hf' => ?_, fun cycle hcycle => ?_,
    fun i j hi hj hij hturn f hf f' hf' => ?_⟩
  · obtain ⟨sequence, fragmentCount, n, h⟩ := hmem cycle hcycle
    exact ⟨(h.sequence_eq f hf).trans (h.sequence_eq f' hf').symm,
      (h.fragmentCount_eq f hf).trans (h.fragmentCount_eq f' hf').symm⟩
  · obtain ⟨sequence, fragmentCount, n, h⟩ := hmem cycle hcycle
    exact ⟨n, h.indices, fun f hf => h.fragmentCount_eq f hf ▸ h.le⟩
  · obtain ⟨_, _, h⟩ := hcycles i hi
    obtain ⟨_, _, h'⟩ := hcycles j hj
    obtain ⟨result, hf⟩ := haccepted _ f hf
    obtain ⟨result', hf'⟩ := haccepted _ f' hf'
    have hsequence : f.header.sequence = first + UInt16.ofNat (i + 1) := h.sequence_eq _ hf
    have hsequence' : f'.header.sequence = first + UInt16.ofNat (j + 1) := h'.sequence_eq _ hf'
    rw [hsequence, hsequence']
    exact number_ne hij hturn

end Numbered

/-! ## The numbers in the course of a cycle -/

section
variable [AsReading ρ] {cfg : Config} {first : UInt16}

variable (ρ cfg) in
/-- A link keeps the promise of its interface to allow a transmission a cycle: "never less than 1".
Reference: `hal/link/link.hpp:185`. -/
def allowing : (cycles ρ cfg).Guard where
  call
    | .getMaxUplinksPerDispatch, view, _ => view.maxUplinksPerDispatch ≠ 0
    | _, _, _ => True
  other _ _ := True

variable (ρ cfg) in
/-- Every call to the link is answered by the transport of a backend, in any of its states. -/
def answeredBy (b : Backend) : (cycles ρ cfg).Guard where
  call _ view _ := ∃ ans link result, view = b.transport.view ans link result
  other _ _ := True

/-- Every backend keeps the promise: a run over its transport is one that `allowing` allows. -/
theorem allowing_of_backend {b : Backend} (hb : b.Configured) {c₀ c : (cycles ρ cfg).Conf}
    (h : Reach (answeredBy ρ cfg b) c₀ c) : Reach (allowing ρ cfg) c₀ c := by
  refine h.mono fun l c hl => ?_
  obtain ⟨w, r⟩ := c
  match l, r, hl with
  | .start, none, _ | .start, some _, _ | .call _, none, _ | .call _, some (.pure _), _
  | .other _, _, _ => trivial
  | .call view, some (.call o _), hl =>
    obtain ⟨ans, link, result, rfl⟩ := hl
    cases o with
    | getMaxUplinksPerDispatch => exact hb.allowance
    | _ => trivial

/-- A cycle that has begun the number after `last`, and has had `n` fragments accepted. -/
structure InSequence (first last : UInt16) (fragmentCount : UInt8) (n : Nat) (cycle : Cycle ρ)
    (cycles : List (Cycle ρ)) : Prop where
  past : Numbered first last cycles
  isCycle : IsCycle (last + 1) fragmentCount n cycle
  /-- A cycle that has handed over nothing yet is about to. -/
  pending : cycle = [] → n = 0 ∧ 0 < fragmentCount.toNat

/-- A cycle that has not begun a number, and has handed over nothing. -/
def Unnumbered (first sequence : UInt16) (cycles : List (Cycle ρ)) : Prop :=
  ∃ past, cycles = [] :: past ∧ Numbered first sequence past

omit [AsReading ρ] in
/-- It may end there. -/
theorem Unnumbered.quiet {sequence : UInt16} {cycles : List (Cycle ρ)}
    (h : Unnumbered first sequence cycles) : Numbered first sequence cycles := by
  obtain ⟨past, rfl, hpast⟩ := h
  exact .quiet hpast

/-- A cycle that has begun a number, and has handed over nothing. -/
def Begun (first sequence : UInt16) (cycles : List (Cycle ρ)) : Prop :=
  ∃ past last, cycles = [] :: past ∧ sequence = last + 1 ∧ Numbered first last past

/-- A cycle that has begun a number, and has had `n` fragments accepted. -/
def Sending (first sequence : UInt16) (fragmentCount : UInt8) (n : Nat)
    (cycles : List (Cycle ρ)) : Prop :=
  ∃ cycle past last, cycles = cycle :: past ∧ sequence = last + 1 ∧
    InSequence first last fragmentCount n cycle past

omit [AsReading ρ] in
theorem Begun.sending {sequence : UInt16} {fragmentCount : UInt8} {cycles : List (Cycle ρ)}
    (h : Begun first sequence cycles) (hpos : 0 < fragmentCount.toNat) :
    Sending first sequence fragmentCount 0 cycles := by
  obtain ⟨past, last, hlog, hsequence, hpast⟩ := h
  exact ⟨[], past, last, hlog, hsequence, hpast, .nil _ _, fun _ => ⟨rfl, hpos⟩⟩

omit [AsReading ρ] in
theorem Sending.numbered {sequence : UInt16} {fragmentCount : UInt8} {n : Nat}
    {cycles : List (Cycle ρ)} (h : Sending first sequence fragmentCount n cycles) :
    ∃ last, Numbered first last cycles := by
  obtain ⟨cycle, past, last, rfl, -, h⟩ := h
  by_cases hnil : cycle = []
  · subst hnil
    exact ⟨last, .quiet h.past⟩
  · exact ⟨last + 1, .attempted hnil h.isCycle h.past⟩

/-- The numbers in each phase of a cycle. -/
def NumberedPhase (first : UInt16) : Phase ρ → (recorded ρ cfg).State → Prop
  | .idle, s | .ended _, s => Numbered first s.1.statics.sequence (cyclesOf s.1.log)
  | .begun, s | .connected, s | .probing, s | .usable, s | .roomy, s | .stamped _, s | .taken _, s
  | .asked _, s => Unnumbered first s.1.statics.sequence (cyclesOf s.1.log)
  | .numbered _, s | .clocked _ _, s => Begun first s.1.statics.sequence (cyclesOf s.1.log)
  | .sending p index _, s =>
    Sending first s.1.statics.sequence p.fragmentCount index.toNat (cyclesOf s.1.log)
  | .noting p index _ _, s | .noted p index _ _, s =>
    Sending first s.1.statics.sequence p.fragmentCount (index.toNat + 1) (cyclesOf s.1.log)

/-- The numbers follow the course of a cycle. -/
theorem numberedPhase_course : Course (allowing ρ cfg).withHistory (NumberedPhase first) where
  stable := by
    intro ph x s _ h
    cases x <;> cases ph <;> exact h
  quiet {ph s} o view ho _ h := by
    cases o with
    | statics | getDroppedReportCount | getEvictedCount => cases ph <;> exact h
    | _ => exact ho.elim
  began _ h := ⟨_, rfl, h⟩
  link _ _ h := by
    split
    · exact h
    · exact Unnumbered.quiet h
  rate _ _ h := by
    split <;> exact h
  packet _ _ h := by
    split
    · exact Unnumbered.quiet h
    · split <;> exact h
  probe _ h := Unnumbered.quiet h
  stamp _ h := h
  scan _ h := h
  disabled _ h := Unnumbered.quiet h
  ask _ h := h
  silent _ h := Unnumbered.quiet h
  due _ h := h
  number _ h := by
    obtain ⟨cycles, hlog, hcycles⟩ := h
    exact ⟨cycles, _, hlog, rfl, hcycles⟩
  clock _ h := h
  header _ h := Begun.sending h Nat.one_pos
  headerAt h := Begun.sending h Nat.one_pos
  plan _ _ hmax _ hpos h := Begun.sending h (UInt8.lt_iff_toNat_lt.1 (hpos hmax))
  accept {s p index rest count} dropped evicted view hindex _ hresult h := by
    obtain ⟨cycle, cycles, last, hlog, hsequence, h⟩ := h
    have hcycle := h.isCycle.accept
      (f := p.fragment cfg s.1.statics dropped evicted count index rest)
      (UInt8.lt_iff_toNat_lt.1 hindex) hsequence rfl rfl
    refine ⟨_, cycles, last, ?_, hsequence, h.past, hcycle, fun hnil => ?_⟩
    · show (cyclesOf s.1.log).modifyHead _ = _
      rw [hlog, hresult]
      rfl
    · exact (List.append_ne_nil_of_right_ne_nil _ (List.cons_ne_nil _ _) hnil).elim
  refuse {s p index rest count} dropped evicted view hindex _ hresult h := by
    obtain ⟨cycle, cycles, last, hlog, hsequence, h⟩ := h
    have hcycle := h.isCycle.refuse
      (f := p.fragment cfg s.1.statics dropped evicted count index rest)
      hresult hsequence rfl
    show Numbered first s.1.statics.sequence ((cyclesOf s.1.log).modifyHead _)
    rw [hlog, hsequence]
    exact .attempted (List.append_ne_nil_of_right_ne_nil _ (List.cons_ne_nil _ _)) hcycle h.past
  mark _ _ h := h
  read _ h := h
  note {s p index rest sentAt} _ hindex h := by
    obtain ⟨cycle, cycles, last, h⟩ := h
    rw [← toNat_nextIndex hindex] at h
    exact ⟨cycle, cycles, last, h⟩
  finish {s p index rest} hindex h := by
    obtain ⟨cycle, cycles, last, hlog, hsequence, h⟩ := h
    have hle := UInt8.le_iff_toNat_le.1 hindex
    have hne : cycle ≠ [] := by
      intro hnil
      have hpending := h.pending hnil
      omega
    show Numbered first s.1.statics.sequence (cyclesOf s.1.log)
    rw [hlog, hsequence]
    exact .attempted hne h.isCycle h.past
  boot _ h := h
  leave h := h

/-- In every phase the cycles so far are numbered. -/
theorem NumberedPhase.numbered {ph : Phase ρ} {s : (recorded ρ cfg).State}
    (h : NumberedPhase first ph s) : ∃ last, Numbered first last (cyclesOf s.1.log) := by
  cases ph with
  | idle | ended => exact ⟨_, h⟩
  | begun | connected | probing | usable | roomy | stamped | taken | asked =>
    exact ⟨_, Unnumbered.quiet h⟩
  | numbered | clocked =>
    obtain ⟨cycles, last, hlog, -, hcycles⟩ := h
    rw [hlog]
    exact ⟨_, .quiet hcycles⟩
  | sending | noting | noted => exact Sending.numbered h

/-- **The sequence number and the index identify a fragment**, over any link that allows a
transmission a cycle at least, whatever else it answers. -/
theorem fragments_identified {c₀ c : (cycles ρ cfg).Conf} (hidle : c₀.running = none)
    (hnothing : c₀.state.log = []) (h : Reach (allowing ρ cfg) c₀ c) :
    Identified (attempting (cyclesOf c.state.log)) := by
  obtain ⟨history, hreach⟩ := h.withHistory []
  have h₀ : NumberedPhase c₀.state.statics.sequence .idle (c₀.withHistory []).state := by
    show Numbered _ _ (cyclesOf c₀.state.log)
    rw [hnothing]
    exact .quiet .none
  obtain ⟨ph, hph⟩ := (numberedPhase_course.reach hidle h₀ hreach).1
  obtain ⟨last, hnumbered⟩ := hph.numbered
  exact hnumbered.identified

end

/-- Between two cycles, a device having been heard once, with some numbers and some log. -/
def heardConf (statics : Statics) (log : List (LogItem Reading)) :
    (cycles Reading (.ofDevices 1)).Conf :=
  ⟨{ heardOnce with statics, log }, none⟩

/-- The fragment without records that is sent there. -/
def heardHeader (statics : Statics) : Fragment Reading where
  header := uplinkHeader (.ofDevices 1) statics 0 0 0 0 1 true
  entries := []
  nowS := 0

/-- A link with room for a header and for no record. -/
def narrowLink : LinkView := ⟨true, 51, 20, 1, .noError⟩

/-- A cycle over it. -/
def narrowCycle : List (cycles Reading (.ofDevices 1)).Label :=
  .start :: List.replicate 12 (.call narrowLink)

/-- Over a narrow link a cycle sends one fragment. -/
theorem run_narrowLink (statics : Statics) (log : List (LogItem Reading)) :
    run narrowCycle (heardConf statics log) =
      some (heardConf ⟨statics.sequence + 1, true, 0⟩
        (.sent (.fragment (heardHeader { statics with sequence := statics.sequence + 1 }))
          .noError :: .began :: log)) := by
  with_unfolding_all rfl

/-- A device was heard, and nothing else has happened. -/
theorem reach_heardConf {G : (cycles Reading (.ofDevices 1)).Guard}
    (hG : ∀ x s, G.other x s) :
    Reach G booted (heardConf ⟨0, false, 0⟩ heardOnce.log) :=
  Reach.refl.step (l := .other (.upsert (.ofByte 1) (-50) default)) (hG _ _) rfl

/-- The narrow link keeps the promise. -/
theorem narrowCycle_allowed :
    ∀ l ∈ narrowCycle, ∀ c, (allowing Reading (.ofDevices 1)).Allows l c := by
  intro l hl ⟨w, r⟩
  rcases List.mem_cons.1 hl with rfl | hl
  · cases r <;> trivial
  · rw [List.eq_of_mem_replicate hl]
    match r with
    | none => trivial
    | some (.pure _) => trivial
    | some (.call o _) =>
      cases o with
      | getMaxUplinksPerDispatch => exact Nat.noConfusion ∘ congrArg UInt8.toNat
      | _ => trivial

/-- Two cycles that each send a header are told apart. -/
theorem fragments_identified_two :
    ∃ c : (cycles Reading (.ofDevices 1)).Conf, (attempting (cyclesOf c.state.log)).length = 2 ∧
      Identified (attempting (cyclesOf c.state.log)) := by
  have hfirst := (reach_heardConf (G := allowing Reading (.ofDevices 1)) fun _ _ => trivial).trans
    (Reach.of_run_allowed narrowCycle_allowed (run_narrowLink ⟨0, false, 0⟩ heardOnce.log))
  have hsecond := hfirst.trans (Reach.of_run_allowed narrowCycle_allowed (run_narrowLink _ _))
  exact ⟨_, rfl, fragments_identified rfl rfl hsecond⟩

end Concentrator.Comms
