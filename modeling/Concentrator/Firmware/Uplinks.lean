import Concentrator.Comms.Budget
import Concentrator.Firmware.Discipline
import Concentrator.Lib.History

/-!
# What the firmware hands to the link

In every run of the firmware, whatever takes place between two calls of the comms thread, what a
dispatch cycle hands to the link is within the cycle's budget (`send_within_budget`). On a socket
link this means that the link never turns an uplink down: a send that does not succeed is one that
the socket library refused (`socketLink_admits`).
-/

namespace Concentrator.Firmware

open Threaded
open Comms (Budget serviceBudget)

variable {T : Transport} {ρ : Type} [AsReading ρ] {cfg : Config}

/-- What comms was answered since it took the event at hand. -/
abbrev budget (history : List (Noted (firmware T ρ cfg))) : Budget :=
  since (serviceBudget ρ) .fresh history

/-- Every call that comms is about to make is within the budget. -/
theorem obeys_reached {acquisitionReady linkReady : Bool} {c : (firmware T ρ cfg).withHistory.Conf}
    (hc : Reach .all ((booted T ρ cfg acquisitionReady linkReady).withHistory []) c)
    {p : Comms.ServiceProg ρ Unit} (hp : c.running = some p) :
    p.Obeys (serviceBudget ρ) (budget c.state.2) := by
  refine obeys_since (serviceBudget ρ) .fresh (fun s p s' hstart => ?_) rfl hc hp
  obtain ⟨e, q, -, rfl, -⟩ := start_eq_some hstart
  exact Comms.obeys_budget e

/-- **What is handed to the link is within the budget of the cycle.** In every run after any
bring-up, with any other threads between the calls of comms, an uplink about to be handed over goes
to a link that answered the cycle that it is connected, behind none that was refused, and behind no
empty frame and no fragment without records: those go alone. An empty frame is for a link whose rate
holds no header. A fragment is no longer than what the link answered that the next packet carries,
and its index is the number of those before it; with records, the fragments stay within the link's
allowance. -/
theorem send_within_budget {acquisitionReady linkReady : Bool}
    {c : (firmware T ρ cfg).withHistory.Conf}
    (hc : Reach .all ((booted T ρ cfg acquisitionReady linkReady).withHistory []) c)
    {uplink : Comms.Uplink ρ} {k : LinkError → Comms.ServiceProg ρ Unit}
    (hsend : c.running = some (.call (.cycle (.send uplink)) k)) :
    (budget c.state.2).connected = true ∧ (budget c.state.2).refused = false ∧
      (budget c.state.2).closed = false ∧ (budget c.state.2).Admits uplink :=
  (obeys_reached hc hsend).1

/-- The program that comms has left begins with a send. -/
def Sending (p : Option (Comms.ServiceProg Reading Unit)) : Bool :=
  match p with
  | some (.call (.cycle (.send _)) _) => true
  | _ => false

theorem sending_cases {p : Option (Comms.ServiceProg Reading Unit)} (h : Sending p) :
    ∃ uplink k, p = some (.call (.cycle (.send uplink)) k) := by
  unfold Sending at h
  split at h
  · next uplink k => exact ⟨uplink, k, rfl⟩
  · cases h

/-- A heartbeat. -/
theorem send_within_budget_heartbeat :
    ∃ (c : (firmware (socketLink 242) Reading (.ofDevices 1)).withHistory.Conf)
      (uplink : Comms.Uplink Reading) (k : LinkError → Comms.ServiceProg Reading Unit),
      c.running = some (.call (.cycle (.send uplink)) k) ∧
      (budget c.state.2).connected = true ∧ (budget c.state.2).closed = false ∧
      (budget c.state.2).Admits uplink := by
  let accept : SocketAnswer := ⟨0, 3, 0, fun _ => 100⟩
  obtain ⟨c, hc, hsending⟩ := Reach.exists_of_run ([.start, .call accept, .call accept,
      .other Act.handleEvent, .start, .call accept, .call accept, .other (Act.tick 3600),
      .other Act.expireDispatchTimer, .start] ++ List.replicate 12 (.call accept))
    (c := (booted (socketLink 242) Reading (.ofDevices 1) true true).withHistory [])
    (fun c => Sending c.running) (by decide +kernel)
  obtain ⟨uplink, k, hsend⟩ := sending_cases hsending
  obtain ⟨hconnected, -, hclosed, hadmits⟩ := send_within_budget hc hsend
  exact ⟨c, uplink, k, hsend, hconnected, hclosed, hadmits⟩

/-! ## On a socket -/

/-- What a socket link answered is what it is: as long as it took what it was handed, it is
connected, and both sizes are the configured one. -/
structure Answered (maxFragment : UInt8) (b : Budget) (link : SocketState) : Prop where
  connected : b.connected = true → b.refused = false → link.isConnected = true
  ceiling : ∀ size, b.ceiling = some size → b.connected = true → b.refused = false →
    size = maxFragment
  available : ∀ size, b.available = some size → b.connected = true → b.refused = false →
    size = maxFragment

section
variable {maxFragment : UInt8} {b : Budget} {link : SocketState}

theorem answered_fresh : Answered maxFragment .fresh link :=
  ⟨fun h => (Bool.false_ne_true h).elim, nofun, nofun⟩

/-- A connected link answers with the configured size. -/
theorem Answered.size_eq (h : Answered maxFragment b link) (hconnected : b.connected = true)
    (hrefused : b.refused = false) : SocketLink.getMaxPayloadSize maxFragment link = maxFragment :=
  if_pos (h.connected hconnected hrefused)

/-- A call of comms that is within the budget. -/
theorem Answered.call {s : State (socketLink maxFragment) ρ cfg} {o : Comms.ServiceOp ρ}
    (h : Answered maxFragment b s.core.link) (ho : (serviceBudget ρ).allows b o)
    (ans : SocketAnswer) : Answered maxFragment
      ((serviceBudget ρ).next o (perform o ans s).1 b) (perform o ans s).2.core.link := by
  cases o with
  | connect =>
    cases (ho : b = .fresh)
    exact answered_fresh
  | cycle o =>
    cases o with
    | isConnected =>
      cases (ho : b = .fresh)
      exact ⟨fun hconnected _ => hconnected, nofun, nofun⟩
    | getMaxPayloadSize =>
      refine ⟨h.connected, fun size hsize hconnected hrefused => ?_, h.available⟩
      rw [← Option.some.inj hsize]
      exact h.size_eq hconnected hrefused
    | getAvailablePayloadSize =>
      refine ⟨h.connected, h.ceiling, fun size hsize hconnected hrefused => ?_⟩
      rw [← Option.some.inj hsize]
      exact h.size_eq hconnected hrefused
    | send uplink =>
      obtain ⟨hconnected, hrefused, -⟩ := ho
      refine ⟨fun _ haccepted => ?_, fun size hsize _ _ => h.ceiling size hsize hconnected hrefused,
        fun size hsize _ _ => h.available size hsize hconnected hrefused⟩
      have hresult := of_decide_eq_false (Bool.or_eq_false_iff.1 haccepted).2
      refine (SocketLink.send_isConnected maxFragment uplink.bytes ans s.core.link).2
        ⟨h.connected hconnected hrefused, fun herror => hresult ?_⟩
      show (SocketLink.send maxFragment uplink.bytes ans s.core.link).1 ≠ .noError
      rw [herror]
      exact LinkError.noConfusion
    | _ => exact ⟨h.connected, h.ceiling, h.available⟩
  | _ => exact ⟨h.connected, h.ceiling, h.available⟩

theorem answered_reach {acquisitionReady linkReady : Bool}
    {c : (firmware (socketLink maxFragment) ρ cfg).withHistory.Conf}
    (hc : Reach .all ((booted (socketLink maxFragment) ρ cfg acquisitionReady linkReady).withHistory
      []) c) : Answered maxFragment (budget c.state.2) c.state.1.core.link := by
  refine since_kept (M := firmware (socketLink maxFragment) ρ cfg)
    (J := fun s b => Answered maxFragment b s.core.link) (fun s p s' hstart => ?_)
    (fun _ _ _ _ _ _ => answered_fresh) (fun o ans s b h ho => h.call ho ans)
    (fun x s b h => ?_) (fun s b h => ?_) rfl answered_fresh hc
  · obtain ⟨e, q, -, rfl, -⟩ := start_eq_some hstart
    exact Comms.obeys_budget e
  · have hlink : (x.run s).core.link = s.core.link :=
      congrArg (fun own => own.2.2.2) (run_own x s)
    rwa [← hlink] at h
  · exact h

omit [AsReading ρ] in
/-- A connected link takes what is no longer than the configured size, or the library refuses. -/
theorem send_of_fits {data : List UInt8} (hup : link.isConnected = true)
    (hfits : data.length ≤ maxFragment.toNat) (ans : SocketAnswer) :
    (SocketLink.send maxFragment data ans link).1 = .noError ∨
      (SocketLink.send maxFragment data ans link).1 = .sendError ∧ ∃ i, ans.zsockSend i ≤ 0 := by
  have hsize : SocketLink.getMaxPayloadSize maxFragment link = maxFragment := if_pos hup
  have herror (h : (SocketLink.send maxFragment data ans link).1 = .sendError) :
      ∃ i, ans.zsockSend i ≤ 0 := by
    by_contra hall
    have htaken (i : Nat) : 0 < ans.zsockSend i := Int.not_le.1 fun hi => hall ⟨i, hi⟩
    exact SocketLink.send_ne_sendError maxFragment data link htaken h
  unfold SocketLink.send at herror ⊢
  rw [hup, hsize, Bool.not_true, if_neg Bool.false_ne_true, if_neg (Nat.not_lt.2 hfits)] at herror ⊢
  split at herror
  · exact .inl rfl
  · exact .inr ⟨rfl, herror rfl⟩

/-- **A socket link turns nothing down.** In every run of a firmware with a socket link, after any
bring-up and with any other threads between the calls of comms, an uplink about to be handed over
finds the link connected and is no longer than the configured size, so that it is accepted unless
the socket library refuses a part of it; and it is an empty frame only where no header fits that
size. -/
theorem socketLink_admits {acquisitionReady linkReady : Bool}
    {c : (firmware (socketLink maxFragment) ρ cfg).Conf}
    (hc : Reach .all (booted (socketLink maxFragment) ρ cfg acquisitionReady linkReady) c)
    {uplink : Comms.Uplink ρ} {k : LinkError → Comms.ServiceProg ρ Unit}
    (hsend : c.running = some (.call (.cycle (.send uplink)) k)) (ans : SocketAnswer) :
    c.state.core.link.isConnected = true ∧ uplink.bytes.length ≤ maxFragment.toNat ∧
      (uplink = .probe → maxFragment.toNat ≤ 12) ∧
      ((SocketLink.send maxFragment uplink.bytes ans c.state.core.link).1 = .noError ∨
        (SocketLink.send maxFragment uplink.bytes ans c.state.core.link).1 = .sendError ∧
          ∃ i, ans.zsockSend i ≤ 0) := by
  obtain ⟨history, hc⟩ := hc.withHistory []
  obtain ⟨hconnected, hrefused, -, hadmits⟩ := send_within_budget hc hsend
  have hanswered := answered_reach hc
  have hup := hanswered.connected hconnected hrefused
  have hfits : uplink.bytes.length ≤ maxFragment.toNat := by
    cases uplink with
    | probe => exact Nat.zero_le _
    | fragment f =>
      obtain ⟨-, ⟨available, havailable, hle⟩, -⟩ := hadmits
      rwa [← hanswered.available available havailable hconnected hrefused]
  refine ⟨hup, hfits, fun hprobe => ?_, send_of_fits hup hfits ans⟩
  subst hprobe
  obtain ⟨⟨ceiling, hceiling, hle⟩, -⟩ := hadmits
  rwa [← hanswered.ceiling ceiling hceiling hconnected hrefused]

end

/-- A heartbeat on a link that takes it. -/
theorem socketLink_admits_heartbeat :
    ∃ (c : (firmware (socketLink 242) Reading (.ofDevices 1)).Conf)
      (uplink : Comms.Uplink Reading) (k : LinkError → Comms.ServiceProg Reading Unit),
      c.running = some (.call (.cycle (.send uplink)) k) ∧
      (SocketLink.send 242 uplink.bytes ⟨0, 3, 0, fun _ => 100⟩ c.state.core.link).1 =
        .noError := by
  let accept : SocketAnswer := ⟨0, 3, 0, fun _ => 100⟩
  obtain ⟨c, hc, hsending⟩ := Reach.exists_of_run ([.start, .call accept, .call accept,
      .other Act.handleEvent, .start, .call accept, .call accept, .other (Act.tick 3600),
      .other Act.expireDispatchTimer, .start] ++ List.replicate 12 (.call accept))
    (c := booted (socketLink 242) Reading (.ofDevices 1) true true)
    (fun c => Sending c.running) (by decide +kernel)
  obtain ⟨uplink, k, hsend⟩ := sending_cases hsending
  obtain ⟨-, -, -, haccepted | ⟨-, i, hi⟩⟩ := socketLink_admits hc hsend accept
  · exact ⟨c, uplink, k, hsend, haccepted⟩
  · exact absurd hi (show ¬ (100 : Int) ≤ 0 by decide)

end Concentrator.Firmware
