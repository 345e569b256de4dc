import Concentrator.Comms.Course

/-!
# The discipline of a dispatch cycle

What a dispatch cycle does with the entries it copies out is the same whatever is to be proved about
it: a snapshot gives copies to send; each accepted fragment takes some of them, which are then
acknowledged one after the other; a refused fragment ends the cycle. An assertion on the copies
still to be sent and those still to be acknowledged that follows these moves (`Discipline`) holds in
every run.
-/

namespace Concentrator.Comms

variable {ρ : Type} [AsReading ρ] {cfg : Config}

/-- An assertion on the copies to send and the copies to acknowledge that follows a dispatch cycle
among steps that the guard allows. -/
structure Discipline (G : (cycles ρ cfg).Guard)
    (K : (unsent unmarked : List (Entry ρ)) → World ρ cfg → Prop) : Prop where
  stable : ∀ {unsent unmarked}, Threaded.Stable G (K unsent unmarked)
  neutral : ∀ {unsent unmarked w} (o : CommsOp ρ) (view : LinkView), o.Neutral →
    K unsent unmarked w → K unsent unmarked (perform o view w).2
  began : ∀ {w}, K [] [] w → K [] [] { w with log := .began :: w.log }
  scan : ∀ {w} (nowS : UInt32) (view : LinkView), K [] [] w →
    K (perform (.scan nowS) view w).1 [] (perform (.scan nowS) view w).2
  accept : ∀ {w rest} (uplink : Uplink ρ), K (uplink.entries ++ rest) [] w →
    K rest uplink.entries { w with log := .sent uplink .noError :: w.log }
  refuse : ∀ {w rest} (uplink : Uplink ρ) (result : LinkError), result ≠ .noError →
    K (uplink.entries ++ rest) [] w → K [] [] { w with log := .sent uplink result :: w.log }
  mark : ∀ {w copy unsent unmarked} (view : LinkView), G.call (.markReported copy) view w →
    K unsent (copy :: unmarked) w →
    K unsent unmarked (perform (.markReported copy) view w).2
  leave : ∀ {w unsent}, K unsent [] w → K [] [] w

namespace Discipline

open Threaded

variable {G : (cycles ρ cfg).Guard} {K : List (Entry ρ) → List (Entry ρ) → World ρ cfg → Prop}

/-- Some copies are to be sent and some to be acknowledged. -/
def Some (K : List (Entry ρ) → List (Entry ρ) → World ρ cfg → Prop) (w : World ρ cfg) : Prop :=
  ∃ unsent unmarked, K unsent unmarked w

/-- The copies to send and to acknowledge in each phase of a cycle. -/
def InPhase (K : List (Entry ρ) → List (Entry ρ) → World ρ cfg → Prop) :
    Phase ρ → (recorded ρ cfg).State → Prop
  | .taken snapshot, s | .numbered snapshot, s | .clocked snapshot _, s => K snapshot [] s.1
  | .sending _ _ rest, s | .noted _ _ rest _, s => K rest [] s.1
  | .noting _ _ rest unmarked, s => K rest unmarked s.1
  | _, s => K [] [] s.1

/-- Handing an uplink to the link: the copies it carries are to be acknowledged, or the cycle is
over. -/
theorem sent (D : Discipline G K) (uplink : Uplink ρ) (rest : List (Entry ρ)) (view : LinkView)
    {w : World ρ cfg} (h : K (uplink.entries ++ rest) [] w) :
    (view.sendResult = .noError → K rest uplink.entries (perform (.send uplink) view w).2) ∧
      (view.sendResult ≠ .noError → K [] [] (perform (.send uplink) view w).2) := by
  refine ⟨fun hresult => ?_, fun hresult => D.refuse uplink _ hresult h⟩
  show K rest uplink.entries { w with log := .sent uplink view.sendResult :: w.log }
  rw [hresult]
  exact D.accept uplink h

/-- A fragment takes the first of the copies left. -/
theorem sentFragment (D : Discipline G K) {f : Fragment ρ} {rest : List (Entry ρ)} {count : UInt8}
    (hentries : f.entries = rest.take count.toNat) (view : LinkView) {w : World ρ cfg}
    (h : K rest [] w) :
    (view.sendResult = .noError → K (rest.drop count.toNat) (rest.take count.toNat)
        (perform (.send (.fragment f)) view w).2) ∧
      (view.sendResult ≠ .noError → K [] [] (perform (.send (.fragment f)) view w).2) := by
  have hsplit : K ((Uplink.fragment f).entries ++ rest.drop count.toNat) [] w := by
    show K (f.entries ++ rest.drop count.toNat) [] w
    rwa [hentries, List.take_append_drop]
  have hsent := D.sent (.fragment f) (rest.drop count.toNat) view hsplit
  rw [← hentries]
  exact hsent

/-- A discipline follows the course. -/
theorem course (D : Discipline G K) : Course G.withHistory (InPhase K) where
  stable := by
    intro ph x s hg h
    cases ph <;> exact D.stable x s.1 hg h
  quiet := by
    intro ph s o view ho _ h
    have hneutral : o.Neutral := by
      cases o with
      | statics | getDroppedReportCount | getEvictedCount => trivial
      | _ => exact ho.elim
    cases ph <;> exact D.neutral o view hneutral h
  began _ h := D.began h
  link view _ h := by
    split <;> exact D.neutral .isConnected view trivial h
  rate view _ h := by
    split <;> exact D.neutral .getMaxPayloadSize view trivial h
  packet view _ h := by
    split
    · exact D.neutral .getAvailablePayloadSize view trivial h
    · split <;> exact D.neutral .getAvailablePayloadSize view trivial h
  probe view h := by
    have hsent := D.sent .probe [] view h
    by_cases hresult : view.sendResult = .noError
    · exact hsent.1 hresult
    · exact hsent.2 hresult
  stamp view h := D.neutral _ view trivial h
  scan view h := D.scan _ view h
  disabled _ h := h
  ask view h := D.neutral _ view trivial h
  silent _ h := h
  due _ h := h
  number view h := D.neutral _ view trivial h
  clock view h := D.neutral _ view trivial h
  header _ h := h
  headerAt h := h
  plan _ view _ _ _ h := D.neutral _ view trivial h
  accept _ _ view _ _ hresult h := (D.sentFragment rfl view h).1 hresult
  refuse _ _ view _ _ hresult h := (D.sentFragment rfl view h).2 hresult
  mark view hg h := D.mark view hg h
  read view h := D.neutral _ view trivial h
  note view _ h := D.neutral _ view trivial h
  finish _ h := D.leave h
  boot view h := D.neutral _ view trivial h
  leave h := h

/-- **The rule.** A discipline that holds before the first cycle holds in every configuration runs
reach. -/
theorem reach (D : Discipline G K) {c₀ c : (cycles ρ cfg).Conf} (hidle : c₀.running = none)
    (h₀ : K [] [] c₀.state) (h : Reach G c₀ c) : Some K c.state := by
  obtain ⟨history, hreach⟩ := h.withHistory []
  have hidle₀ : InPhase K .idle (c₀.withHistory [] : (recorded ρ cfg).Conf).state := h₀
  obtain ⟨ph, hph⟩ := (D.course.reach hidle hidle₀ hreach).1
  cases ph <;> exact ⟨_, _, hph⟩

end Discipline

end Concentrator.Comms
