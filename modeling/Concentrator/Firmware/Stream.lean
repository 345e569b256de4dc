import Concentrator.Firmware.Discipline
import Concentrator.Hal.SocketStream

/-!
# What the firmware puts on the wire

A firmware with a socket link, from the log of its uplinks down to the bytes of its connections. The
accepted uplinks are on the wire, complete and in order, and a connection ends with the uplink that
was refused on it (`stream_carries`).
-/

namespace Concentrator.Firmware

open Threaded
open Comms (LogItem)
open SocketLink (Aligned Connection Sessions)

variable {ρ : Type} [AsReading ρ] {cfg : Config}

/-- The bytes an item brought to the network. -/
def delivered : LogItem ρ → Option (List UInt8)
  | .sent uplink .noError => some uplink.bytes
  | _ => none

/-- The uplinks that the link accepted, in order. -/
def deliveries (log : List (LogItem ρ)) : List (List UInt8) := log.reverse.filterMap delivered

/-- An item that is no uplink, or one that was turned down. -/
theorem deliveries_cons_of_none {item : LogItem ρ} (h : delivered item = none)
    (log : List (LogItem ρ)) : deliveries (item :: log) = deliveries log := by
  unfold deliveries
  rw [List.reverse_cons, List.filterMap_append, List.filterMap_cons_none h]
  exact List.append_nil _

theorem deliveries_cons_accepted (uplink : Comms.Uplink ρ) (log : List (LogItem ρ)) :
    deliveries (.sent uplink .noError :: log) = deliveries log ++ [uplink.bytes] := by
  unfold deliveries
  rw [List.reverse_cons, List.filterMap_append]
  rfl

/-- The connections, the latest first, carry what the log says. -/
structure Carries (connections : List Connection) (log : List (LogItem ρ)) : Prop where
  accepted : connections.reverse.flatMap (·.accepted) = deliveries log
  failed : ∀ connection ∈ connections, ∀ data, connection.failed = some data →
    ∃ uplink, .sent uplink .sendError ∈ log ∧ uplink.bytes = data

namespace Carries

variable {connections : List Connection} {log : List (LogItem ρ)}

/-- One more item that brought nothing to the network. -/
theorem cons (h : Carries connections log) {item : LogItem ρ} (hitem : delivered item = none) :
    Carries connections (item :: log) where
  accepted := by rw [deliveries_cons_of_none hitem, h.accepted]
  failed connection hmem data hdata := by
    obtain ⟨uplink, hlog, hbytes⟩ := h.failed connection hmem data hdata
    exact ⟨uplink, .tail _ hlog, hbytes⟩

/-- A connect begins a connection that carries nothing, or none. -/
theorem connect {h : Sessions} (hc : Carries h.connections log) (ans : SocketAnswer)
    (result : LinkError) : Carries (h.observe (.connect ans) result).connections log := by
  cases result with
  | noError =>
    show Carries (if h.up then h else _).connections log
    split
    · exact hc
    · refine ⟨?_, fun connection hmem data hdata => ?_⟩
      · rw [← hc.accepted, List.reverse_cons, List.flatMap_append]
        exact List.append_nil _
      · rcases List.mem_cons.1 hmem with rfl | hmem
        · cases hdata
        · exact hc.failed connection hmem data hdata
  | _ => exact hc

/-- A send adds to the latest connection, or ends it. -/
theorem send {s : SocketState} {h : Sessions} (hc : Carries h.connections log) (ha : Aligned s h)
    (maxFragment : UInt8) (uplink : Comms.Uplink ρ) (ans : SocketAnswer) :
    Carries (h.observe (.send uplink.bytes ans)
        (SocketLink.send maxFragment uplink.bytes ans s).1).connections
      (.sent uplink (SocketLink.send maxFragment uplink.bytes ans s).1 :: log) := by
  have hup (hresult : (SocketLink.send maxFragment uplink.bytes ans s).1 ≠ .connectError)
      (hresult' : (SocketLink.send maxFragment uplink.bytes ans s).1 ≠ .payloadTooLarge) :
      ∃ c cs, h.connections = c :: cs ∧ c.failed = none := by
    rcases SocketLink.send_cases maxFragment uplink.bytes ans s with
      ⟨⟨h', -⟩ | ⟨h', -⟩, -⟩ | ⟨hup, -⟩
    · exact absurd h' hresult
    · exact absurd h' hresult'
    · exact ha.current (ha.up ▸ hup)
  cases hr : (SocketLink.send maxFragment uplink.bytes ans s).1 with
  | noError =>
    obtain ⟨c, cs, hcs, hunfailed⟩ := hup (hr ▸ LinkError.noConfusion) (hr ▸ LinkError.noConfusion)
    have hobserve : (h.observe (.send uplink.bytes ans) .noError).connections =
        { c with accepted := c.accepted ++ [uplink.bytes] } :: cs := by
      unfold Sessions.observe
      rw [hcs]
    rw [hobserve]
    rw [hcs] at hc
    refine ⟨?_, fun connection hmem data hdata => ?_⟩
    · rw [deliveries_cons_accepted, ← hc.accepted]
      simp
    · rcases List.mem_cons.1 hmem with rfl | hmem
      · cases hunfailed.symm.trans hdata
      · obtain ⟨uplink', hlog, hbytes⟩ := hc.failed connection (.tail _ hmem) data hdata
        exact ⟨uplink', .tail _ hlog, hbytes⟩
  | sendError =>
    obtain ⟨c, cs, hcs, hunfailed⟩ := hup (hr ▸ LinkError.noConfusion) (hr ▸ LinkError.noConfusion)
    have hobserve : (h.observe (.send uplink.bytes ans) .sendError).connections =
        { c with failed := some uplink.bytes } :: cs := by
      unfold Sessions.observe
      rw [hcs]
    rw [hobserve]
    rw [hcs] at hc
    refine ⟨?_, fun connection hmem data hdata => ?_⟩
    · rw [deliveries_cons_of_none rfl, ← hc.accepted]
      simp
    · rcases List.mem_cons.1 hmem with rfl | hmem
      · cases hdata
        exact ⟨uplink, .head _, rfl⟩
      · obtain ⟨uplink', hlog, hbytes⟩ := hc.failed connection (.tail _ hmem) data hdata
        exact ⟨uplink', .tail _ hlog, hbytes⟩
  | notReady => exact hc.cons rfl
  | configError => exact hc.cons rfl
  | connectError => exact hc.cons rfl
  | payloadTooLarge => exact hc.cons rfl

end Carries

/-- The connections carry the log, as far as the results of the calls tell them apart. -/
def Carried (link : SocketState) (log : List (LogItem ρ)) : Prop :=
  ∃ h, Aligned link h ∧ Carries h.connections log

section
variable {maxFragment : UInt8}

theorem Carried.call {s : State (socketLink maxFragment) ρ cfg} (o : Comms.ServiceOp ρ)
    (ans : SocketAnswer) (h : Carried s.core.link s.core.world.log) :
    Carried (perform o ans s).2.core.link (perform o ans s).2.core.world.log := by
  obtain ⟨sessions, ha, hc⟩ := h
  cases o with
  | connect => exact ⟨_, (ha.connect ans).1, hc.connect ans _⟩
  | cycle o =>
    cases o with
    | send uplink =>
      exact ⟨_, (ha.send maxFragment uplink.bytes ans).1, hc.send ha maxFragment uplink ans⟩
    | scan nowS => exact ⟨sessions, ha, hc.cons rfl⟩
    | _ => exact ⟨sessions, ha, hc⟩
  | _ => exact ⟨sessions, ha, hc⟩

/-- The others leave the link alone, and bring nothing to the network. -/
theorem Carried.other (x : Act) {s : State (socketLink maxFragment) ρ cfg}
    (h : Carried s.core.link s.core.world.log) :
    Carried (x.run s).core.link (x.run s).core.world.log := by
  have hlink : (x.run s).core.link = s.core.link := congrArg (fun own => own.2.2.2) (run_own x s)
  obtain ⟨sessions, ha, hc⟩ := h
  refine ⟨sessions, hlink ▸ ha, ?_⟩
  rcases run_core x s with ⟨y, hs⟩ | ⟨q, isScanning, ledger, led, hs⟩ | ⟨e, -, hs⟩ | ⟨e, -, hs⟩ <;>
    rw [hs]
  · by_cases hworld : ∃ z, y = .world z
    · obtain ⟨z, rfl⟩ := hworld
      cases z with
      | upsert address rssi reading => exact hc.cons rfl
      | _ => exact hc
    · rw [System.run_world y s.core fun z hz => hworld ⟨z, hz⟩]
      exact hc
  all_goals exact hc

theorem carried_reach {acquisitionReady linkReady : Bool}
    {c : (firmware (socketLink maxFragment) ρ cfg).Conf}
    (hc : Reach .all (booted (socketLink maxFragment) ρ cfg acquisitionReady linkReady) c) :
    Carried c.state.core.link c.state.core.world.log := by
  refine Reach.kept (I := fun s : State (socketLink maxFragment) ρ cfg =>
    Carried s.core.link s.core.world.log) (fun x s _ h => h.other x)
    (fun o ans s _ h => h.call o ans) (fun s p s' h hstart => ?_) (fun s h => h) rfl ?_ hc
  · obtain ⟨e, q, -, -, rfl⟩ := start_eq_some hstart
    exact h
  · refine ⟨⟨false, []⟩, ⟨rfl, fun hup => (nomatch hup), .nil, fun hup => (nomatch hup)⟩, ?_⟩
    cases acquisitionReady <;> cases linkReady <;> exact ⟨rfl, nofun⟩

/-- **Everything delivered is on the wire.** In every run of a firmware with a socket link, after
any bring-up: the uplinks that the link accepted, in order, are cut into the connections, one after
the other; a connection carries its own of them byte for byte, and behind them at most a proper part
of one uplink that was refused, with which it ended. -/
theorem stream_carries {acquisitionReady linkReady : Bool}
    {c : (firmware (socketLink maxFragment) ρ cfg).Conf}
    (hc : Reach .all (booted (socketLink maxFragment) ρ cfg acquisitionReady linkReady) c) :
    ∃ connections : List Connection,
      List.Forall₂ Connection.Wrote connections c.state.core.link.streams ∧
      connections.reverse.flatMap (·.accepted) = deliveries c.state.core.world.log ∧
      (∀ connection ∈ connections, ∀ data, connection.failed = some data →
        ∃ uplink, .sent uplink .sendError ∈ c.state.core.world.log ∧ uplink.bytes = data) ∧
      (c.state.core.link.isConnected = true →
        ∃ connection rest, connections = connection :: rest ∧ connection.failed = none) := by
  obtain ⟨sessions, ha, hcarries⟩ := carried_reach hc
  exact ⟨sessions.connections, ha.streams, hcarries.accepted, hcarries.failed,
    fun hup => ha.current (ha.up ▸ hup)⟩

end

/-- Comms joins the network and is told to dispatch. -/
def joining (ans : SocketAnswer) : List (firmware (socketLink 242) Reading (.ofDevices 1)).Label :=
  [.start, .call ans, .call ans, .other Act.handleEvent, .start, .call ans, .call ans]

/-- After an hour of silence, comms makes `n` calls of a cycle. -/
def beating (n : Nat) (ans : SocketAnswer) :
    List (firmware (socketLink 242) Reading (.ofDevices 1)).Label :=
  [.other (Act.tick 3600), .other Act.expireDispatchTimer, .start] ++ List.replicate n (.call ans)

/-- How much was written on each connection, the latest first. -/
def written (c : (firmware (socketLink 242) Reading (.ofDevices 1)).Conf) : List Nat :=
  c.state.core.link.streams.map List.length

/-- A heartbeat on a second connection, the first having ended with a part of another. -/
theorem stream_carries_reconnected :
    ∃ (c : (firmware (socketLink 242) Reading (.ofDevices 1)).Conf) (connections : List Connection),
      written c = [12, 5] ∧
      List.Forall₂ Connection.Wrote connections c.state.core.link.streams ∧
      connections.reverse.flatMap (·.accepted) = deliveries c.state.core.world.log := by
  let accept : SocketAnswer := ⟨0, 3, 0, fun _ => 100⟩
  let cut : SocketAnswer := ⟨0, 3, 0, fun i => if i = 0 then 5 else -1⟩
  obtain ⟨c, hc, hlengths⟩ := Reach.exists_of_run (joining accept ++ beating 13 cut ++
      [.other (Act.postToApp .softError), .other Act.handleEvent, .other Act.expireRetryTimer,
        .other Act.handleEvent] ++ joining accept ++ beating 16 accept)
    (c := booted _ _ _ true true) (fun c => written c = [12, 5]) (by decide +kernel)
  obtain ⟨connections, hwrote, haccepted, -⟩ := stream_carries hc
  exact ⟨c, connections, of_decide_eq_true hlengths, hwrote, haccepted⟩

end Concentrator.Firmware
