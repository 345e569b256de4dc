import Concentrator.Comms.Service
import Concentrator.Comms.Stages

/-!
# The budget of a cycle

What the link answered to the questions of a cycle bounds what the cycle hands to it: whether it is
connected, what the data rate allows, what the next packet carries, and how many uplinks a dispatch
may take. `budgetWatch` keeps the answers and counts the uplinks, and the programs of the service
obey it (`obeys_budget`), whatever else takes place between their calls.
-/

namespace Concentrator.Comms

variable {ρ : Type} {cfg : Config}

/-- What a cycle was answered so far, how many uplinks it handed to the link, and whether one of
them was refused or is the only one of its cycle. -/
structure Budget where
  connected : Bool
  ceiling : Option UInt8
  available : Option UInt8
  maxUplinks : Option UInt8
  handedOver : Nat
  refused : Bool
  closed : Bool

/-- The budget of a cycle that has made no call. -/
def Budget.fresh : Budget := ⟨false, none, none, none, 0, false, false⟩

/-- An uplink that is the only one of its cycle: an empty frame, or a fragment without records. -/
def Uplink.alone : Uplink ρ → Bool
  | .probe => true
  | .fragment f => f.entries.isEmpty

section
variable [AsReading ρ]

/-- An uplink that the budget has room for. An empty frame is for a rate that allows no header, and
goes first. A fragment fits in the next packet, and its index is its number; it goes first, without
records, or it is within the allowance. -/
def Budget.Admits (b : Budget) : Uplink ρ → Prop
  | .probe => (∃ ceiling, b.ceiling = some ceiling ∧ ceiling.toNat ≤ 12) ∧ b.handedOver = 0
  | .fragment f =>
    (∃ ceiling, b.ceiling = some ceiling ∧ 12 < ceiling.toNat) ∧
      (∃ available, b.available = some available ∧ f.bytes.length ≤ available.toNat) ∧
      f.header.fragmentIndex.toNat = b.handedOver ∧
      (f.entries = [] ∧ b.handedOver = 0 ∨
        ∃ maxUplinks, b.maxUplinks = some maxUplinks ∧ b.handedOver < maxUplinks.toNat)

variable (ρ) in
/-- The monitor of a cycle: the connection is asked for first; an uplink goes to a connected link,
behind none that was refused and none that goes alone, and the budget has room for it. -/
def budgetWatch : Monitor (CommsSig ρ) Budget where
  allows b
    | .isConnected => b = .fresh
    | .send uplink =>
      b.connected = true ∧ b.refused = false ∧ b.closed = false ∧ b.Admits uplink
    | _ => True
  next
    | .isConnected, connected, b => { b with connected := connected }
    | .getMaxPayloadSize, ceiling, b => { b with ceiling := some ceiling }
    | .getAvailablePayloadSize, available, b => { b with available := some available }
    | .getMaxUplinksPerDispatch, maxUplinks, b => { b with maxUplinks := some maxUplinks }
    | .send uplink, result, b =>
      { b with
        handedOver := b.handedOver + 1
        refused := b.refused || decide (result ≠ .noError)
        closed := b.closed || uplink.alone }
    | _, _, b => b

end

/-! ## The stages of a cycle keep to its budget -/

/-- The link is connected, and took what it was handed: `handedOver` uplinks, and more may
follow. -/
structure Budget.Open (b : Budget) (handedOver : Nat) : Prop where
  connected : b.connected = true
  refused : b.refused = false
  closed : b.closed = false
  handedOver : b.handedOver = handedOver

/-- A header and `records` records fit. -/
structure Budget.Fits (b : Budget) (records handedOver : Nat) : Prop
    extends b.Open handedOver where
  ceiling : ∃ ceiling, b.ceiling = some ceiling ∧ 12 < ceiling.toNat
  available : ∃ available, b.available = some available ∧ 12 + 26 * records ≤ available.toNat

/-- There is room for a fragment, and if it has records, there may be so many. -/
structure Round.Funded (round : Round ρ) (b : Budget) : Prop
    extends b.Fits round.share.toNat round.index.toNat where
  allowance : round.isHeartbeat = false →
    ∃ maxUplinks, b.maxUplinks = some maxUplinks ∧ round.fragmentCount ≤ maxUplinks

/-- What the budget of a cycle is like in each of its stages. -/
def Stage.Spent (b : Budget) : Stage ρ → Prop
  | .begun => b = .fresh
  | .connected => b.Open 0
  | .probing => b.Open 0 ∧ ∃ ceiling, b.ceiling = some ceiling ∧ ceiling.toNat ≤ 12
  | .usable => b.Open 0 ∧ ∃ ceiling, b.ceiling = some ceiling ∧ 12 < ceiling.toNat
  | .empty | .asked _ | .due _ | .bare | .bareNumbered => b.Fits 0 0
  | .roomy share | .stamped share _ | .taken share _ | .numbered share _ | .clocked share _ _ =>
    b.Fits share.toNat 0
  | .sending round | .identified round _ | .counted round _ _ | .built round _ _ _ =>
    round.Funded b
  | .marking round _ | .noting round _ =>
    round.next.index < round.next.fragmentCount → round.next.Funded b
  | .booting | .finished => True

variable {b : Budget} {round : Round ρ} {stage : Stage ρ}

theorem Budget.Fits.fewer {records fewer handedOver : Nat} (h : b.Fits records handedOver)
    (hle : fewer ≤ records) : b.Fits fewer handedOver := by
  obtain ⟨available, havailable, hfits⟩ := h.available
  exact ⟨h.toOpen, h.ceiling, available, havailable, by omega⟩

/-- A header fits. -/
theorem Round.funded_header {nowS : UInt32} (h : b.Fits 0 0) :
    (Round.header nowS : Round ρ).Funded b :=
  ⟨h, nofun⟩

theorem Round.spent_ended : round.ended.Spent b :=
  Round.ended_cases _ (fun _ => trivial) fun _ => trivial

theorem Round.spent_stage (h : round.index < round.fragmentCount → round.Funded b) :
    round.stage.Spent b :=
  Round.stage_cases _ h fun _ => spent_ended

section
variable [AsReading ρ]

/-- What a stage calls is within the budget. -/
theorem Stage.Makes.allowed {o : CommsOp ρ} (hmakes : stage.Makes cfg o) (hspent : stage.Spent b) :
    (budgetWatch ρ).allows b o := by
  cases hmakes with
  | link => exact hspent
  | probe =>
    obtain ⟨hopen, hceiling⟩ := hspent
    exact ⟨hopen.connected, hopen.refused, hopen.closed, hceiling, hopen.handedOver⟩
  | @send round statics droppedReports evicted hdue =>
    have hfunded : round.Funded b := hspent
    refine ⟨hfunded.connected, hfunded.refused, hfunded.closed, hfunded.ceiling, ?_,
      hfunded.handedOver.symm, ?_⟩
    · obtain ⟨available, havailable, hfits⟩ := hfunded.available
      have hle : round.carried.length ≤ round.share.toNat := by
        rw [round.carried_eq]
        exact List.length_take_le _ _
      refine ⟨available, havailable, ?_⟩
      rw [Fragment.length_bytes]
      show 12 + 26 * round.carried.length ≤ _
      omega
    · cases hdue with
      | header nowS => exact .inl ⟨rfl, hfunded.handedOver⟩
      | records hindex hrecords =>
        obtain ⟨maxUplinks, hmaxUplinks, hcount⟩ := hfunded.allowance hrecords
        have hlt := UInt8.lt_iff_toNat_lt.1 hindex
        have hle := UInt8.le_iff_toNat_le.1 hcount
        refine .inr ⟨maxUplinks, hmaxUplinks, ?_⟩
        rw [hfunded.handedOver]
        omega
  | _ => trivial

/-- Behind a fragment that was accepted, there is room for the one that follows. -/
theorem Round.Funded.next (h : round.Funded b) (hdue : round.Due) (f : Fragment ρ)
    (hf : f.entries = round.carried) (hfollows : round.next.index < round.next.fragmentCount) :
    round.next.Funded ((budgetWatch ρ).next (.send (.fragment f)) .noError b) := by
  have hcarried : round.isHeartbeat = false → round.carried ≠ [] := hdue.carried_ne_nil
  have hnext := hdue.next_index
  cases hdue with
  | header nowS =>
    -- A header goes alone.
    have hlast : ¬ (0 : UInt8) + 1 < 1 := by decide
    exact absurd hfollows hlast
  | records hindex hrecords =>
    refine ⟨⟨⟨h.connected, ?_, ?_, ?_⟩, h.ceiling, h.available⟩, h.allowance⟩
    · show (b.refused || _) = false
      rw [h.refused]
      rfl
    · show (b.closed || f.entries.isEmpty) = false
      rw [h.closed, hf, Bool.false_or, List.isEmpty_eq_false_iff]
      exact hcarried hrecords
    · show b.handedOver + 1 = _
      rw [h.handedOver, hnext]

/-- The answer to a call keeps the budget with the stage. -/
theorem Stage.Makes.spent {o : CommsOp ρ} (hmakes : stage.Makes cfg o) (hspent : stage.Spent b)
    (answer : o.Res) :
    (stage.next cfg o answer).Spent ((budgetWatch ρ).next o answer b) := by
  cases hmakes with
  | link =>
    cases (hspent : b = .fresh)
    cases (answer : Bool) with
    | true => exact ⟨rfl, rfl, rfl, rfl⟩
    | false => trivial
  | rate =>
    have hopen : b.Open 0 := hspent
    have hopen' : ((budgetWatch ρ).next .getMaxPayloadSize answer b).Open 0 :=
      ⟨hopen.connected, hopen.refused, hopen.closed, hopen.handedOver⟩
    show Stage.Spent _ (if _ then _ else _)
    split
    · next hle => exact ⟨hopen', answer, rfl, hle⟩
    · next hlt => exact ⟨hopen', answer, rfl, Nat.lt_of_not_le hlt⟩
  | probe => trivial
  | packet =>
    obtain ⟨hopen, hceiling⟩ := hspent
    show Stage.Spent _ (if _ then _ else if _ then _ else _)
    split
    · trivial
    next hlt =>
      have hlt : 12 < (answer : UInt8).toNat := Nat.lt_of_not_le hlt
      have hfits : ((budgetWatch ρ).next .getAvailablePayloadSize answer b).Fits
          (recordsIn answer).toNat 0 := by
        refine ⟨⟨hopen.connected, hopen.refused, hopen.closed, hopen.handedOver⟩, hceiling, answer,
          rfl, ?_⟩
        rw [toNat_recordsIn]
        omega
      split
      · exact hfits.fewer (Nat.zero_le _)
      · exact hfits
  | stamp => exact hspent
  | @scan share nowS =>
    have hfits : b.Fits share.toNat 0 := hspent
    show Stage.Spent _ (if _ then _ else if _ then _ else _)
    split
    · exact hfits
    split
    · trivial
    · exact hfits.fewer (Nat.zero_le _)
  | ask => exact hspent
  | silence =>
    show Stage.Spent _ (if _ then _ else _)
    split
    · trivial
    · exact hspent
  | numberDue => exact Round.funded_header hspent
  | numberBare => exact hspent
  | clockBare => exact Round.funded_header hspent
  | number => exact hspent
  | clock => exact hspent
  | @allowance share snapshot nowS hshare =>
    have hfits : b.Fits share.toNat 0 := hspent
    refine Round.spent_stage fun _ => ?_
    refine ⟨⟨⟨hfits.connected, hfits.refused, hfits.closed, hfits.handedOver⟩, hfits.ceiling,
      hfits.available⟩, fun _ => ⟨answer, rfl, ?_⟩⟩
    rw [UInt8.le_iff_toNat_le]
    show (UInt8.ofNat _).toNat ≤ _
    rw [toNat_fragmentsAllowed]
    exact Nat.min_le_right _ _
  | statics => exact hspent
  | dropped => exact hspent
  | evicted => exact hspent
  | @send round statics droppedReports evicted hdue =>
    have hfunded : round.Funded b := hspent
    show Stage.Spent _ (if _ then _ else _)
    split
    · next hresult =>
      subst hresult
      exact hfunded.next hdue _ rfl
    · exact Round.spent_ended
  | mark => exact hspent
  | read => exact hspent
  | note => exact Round.spent_stage hspent
  | boot => trivial

/-- A cycle keeps to its budget. -/
theorem dispatch_budget : (dispatch (ρ := ρ) cfg).Obeys (budgetWatch ρ) .fresh :=
  ((dispatch_stages ρ cfg).simulate (fun stage b => stage.Spent b) Stage.Makes.allowed
    Stage.Makes.spent rfl).obeys

variable (ρ) in
/-- The monitor of the service: it watches the calls of the cycles, and a link is connected outside
of them. -/
def serviceBudget : Monitor (ServiceSig ρ) Budget where
  allows b
    | .cycle o => (budgetWatch ρ).allows b o
    | .connect => b = .fresh
    | _ => True
  next
    | .cycle o, r, b => (budgetWatch ρ).next o r b
    | _, _, b => b

/-- **Every cycle keeps to its budget**, whatever the service handles. -/
theorem obeys_budget (e : Event) :
    (executeEvent (ρ := ρ) cfg e).Obeys (serviceBudget ρ) .fresh := by
  have hdispatch : Prog.Obeys (serviceBudget ρ) (do
      let enabled ← serviceCall .dispatchEnabled
      if !enabled then pure () else serviceCycle cfg) .fresh := by
    refine ⟨trivial, fun enabled => ?_⟩
    show Prog.Obeys _ (if _ then _ else _) _
    split
    · trivial
    · refine Prog.Obeys.hoist (fun _ _ h => ?_) (fun _ _ _ => ?_) dispatch_budget
      · exact h
      · rfl
  cases e with
  | joinNetwork => exact ⟨rfl, fun _ => ⟨trivial, fun _ => trivial⟩⟩
  | startDispatch => exact ⟨trivial, fun _ => ⟨trivial, fun _ => trivial⟩⟩
  | stopDispatch => exact ⟨trivial, fun _ => ⟨trivial, fun _ => trivial⟩⟩
  | dispatchDue => exact hdispatch
  | dispatchNow => exact hdispatch

end

end Concentrator.Comms
