import Concentrator.Hal.SocketLink
import Mathlib.Data.List.Forall2

/-!
# The byte stream of a socket link

The stream has no framing, so the receiver stays aligned only as long as what is written on a
connection is whole payloads. `Sessions` is what an observer of the calls and their results knows
of each connection: the payloads that were accepted, in order, and the one that failed, after which
the connection is over. `stream_aligned` says that the bytes on the wire are exactly that, over any
calls with any answers of the socket library.

The argument follows the send loop (`LoopRun`): what it has taken is a prefix of the payload, and
all of it when it ends without a failure.
-/

namespace Concentrator.SocketLink

/-! ## The loop -/

/-- How the send loop runs, from its `calls`-th call on: it ends when nothing is left, ends at a
call that fails, or goes on with what the library left. There is no bound on the rounds here.
Reference: `hal/link/socket/socket_link.cpp:126-144`. -/
inductive LoopRun (zsockSend : Nat → Int) :
    (calls : Nat) → (rest : List UInt8) → SocketState → Bool × SocketState → Prop
  | done {calls : Nat} {s : SocketState} : LoopRun zsockSend calls [] s (true, s)
  | failed {calls : Nat} {rest : List UInt8} {s : SocketState} : rest ≠ [] →
      zsockSend calls ≤ 0 → LoopRun zsockSend calls rest s (false, s)
  | round {calls : Nat} {rest : List UInt8} {s : SocketState} {r : Bool × SocketState} :
      rest ≠ [] → 0 < zsockSend calls →
      LoopRun zsockSend (calls + 1) (rest.drop (zsockSend calls).toNat)
        (write (rest.take (zsockSend calls).toNat) s) r →
      LoopRun zsockSend calls rest s r

variable {zsockSend : Nat → Int} {calls : Nat} {rest : List UInt8} {s : SocketState}

/-- Each round takes a byte, so the loop ends within as many rounds as there are bytes: the
induction is on the fuel. -/
theorem sendLoop_run {fuel : Nat} (hfuel : rest.length ≤ fuel) :
    LoopRun zsockSend calls rest s (sendLoop zsockSend fuel calls rest s) := by
  induction fuel generalizing calls rest s with
  | zero =>
    obtain rfl : rest = [] := List.length_eq_zero_iff.1 (Nat.le_zero.1 hfuel)
    exact .done
  | succ fuel ih =>
    unfold sendLoop
    split
    · next hnil =>
      rw [hnil]
      exact .done
    · next hne =>
      dsimp only
      split
      · next hfailed => exact .failed hne hfailed
      · next htaken =>
        refine .round hne (Int.not_le.1 htaken) (ih ?_)
        rw [List.length_drop]
        omega

/-- The loop runs in one way only. -/
theorem LoopRun.det {r r' : Bool × SocketState} (h : LoopRun zsockSend calls rest s r)
    (h' : LoopRun zsockSend calls rest s r') : r = r' := by
  induction h with
  | done =>
    cases h' with
    | done => rfl
    | failed hne _ => exact absurd rfl hne
    | round hne _ _ => exact absurd rfl hne
  | failed hne hle =>
    cases h' with
    | done => exact absurd rfl hne
    | failed _ _ => rfl
    | round _ hlt _ => exact absurd hlt (Int.not_lt.2 hle)
  | round hne hlt _ ih =>
    cases h' with
    | done => exact absurd rfl hne
    | failed _ hle => exact absurd hlt (Int.not_lt.2 hle)
    | round _ _ hrun => exact ih hrun

/-- What the loop puts on the current connection: all that is left, or a proper prefix of it when a
call fails. Nothing else changes. The induction is on the run. -/
theorem LoopRun.taken {r : Bool × SocketState} (h : LoopRun zsockSend calls rest s r)
    {stream : List UInt8} {earlier : List (List UInt8)} (hs : s.streams = stream :: earlier) :
    ∃ taken, r.2 = { s with streams := (stream ++ taken) :: earlier } ∧
      (r.1 = true → taken = rest) ∧
      (r.1 = false → taken <+: rest ∧ taken.length < rest.length) := by
  induction h generalizing stream with
  | done => exact ⟨[], by rw [List.append_nil, ← hs], fun _ => rfl, Bool.noConfusion⟩
  | failed hne _ =>
    refine ⟨[], by rw [List.append_nil, ← hs], Bool.noConfusion, fun _ => ⟨?_, ?_⟩⟩
    · exact List.nil_prefix
    · exact List.length_pos_iff.2 hne
  | @round calls rest s r hne hlt _ ih =>
    have hwrite : write (rest.take (zsockSend calls).toNat) s =
        { s with streams := (stream ++ rest.take (zsockSend calls).toNat) :: earlier } := by
      unfold write
      rw [hs]
    obtain ⟨taken, hr, hall, hcut⟩ := ih (by rw [hwrite])
    refine ⟨rest.take (zsockSend calls).toNat ++ taken, ?_, fun h => ?_, fun h => ?_⟩
    · rw [hr, hwrite, List.append_assoc]
    · rw [hall h, List.take_append_drop]
    · obtain ⟨hpre, hlen⟩ := hcut h
      have hsplit := List.take_append_drop (zsockSend calls).toNat rest
      have hlength := congrArg List.length hsplit
      rw [List.length_append] at hlength
      refine ⟨?_, by rw [List.length_append]; omega⟩
      rw [← List.prefix_append_right_inj (rest.take (zsockSend calls).toNat), hsplit] at hpre
      exact hpre

/-! ## One call -/

/-- Everything a send can do: it is turned down and changes nothing, it puts the whole payload on
the connection, or it puts a proper prefix of it there and takes the connection down. -/
theorem send_cases (maxFragment : UInt8) (data : List UInt8) (ans : SocketAnswer)
    (s : SocketState) :
    (((send maxFragment data ans s).1 = .connectError ∧ s.isConnected = false ∨
        (send maxFragment data ans s).1 = .payloadTooLarge ∧ s.isConnected = true) ∧
      (send maxFragment data ans s).2 = s) ∨
    (s.isConnected = true ∧
      (∀ stream earlier, s.streams = stream :: earlier →
        send maxFragment data ans s =
          (.noError, { s with streams := (stream ++ data) :: earlier }) ∨
        ∃ taken, taken <+: data ∧ taken.length < data.length ∧
          send maxFragment data ans s =
            (.sendError, { closeSocket { s with streams := (stream ++ taken) :: earlier } with
              isConnected := false }))) := by
  unfold send
  by_cases hs : s.isConnected = true
  · rw [if_neg (by rw [hs]; decide)]
    split
    · exact .inl ⟨.inr ⟨rfl, hs⟩, rfl⟩
    refine .inr ⟨hs, fun stream earlier hstreams => ?_⟩
    have hrun : LoopRun ans.zsockSend 0 data s _ := sendLoop_run (Nat.le_refl data.length)
    obtain ⟨taken, hr, hall, hcut⟩ := hrun.taken hstreams
    cases hl : sendLoop ans.zsockSend data.length 0 data s with
    | mk all s' =>
      rw [hl] at hr hall hcut
      obtain rfl := hr
      cases all with
      | true =>
        rw [hall rfl]
        exact .inl rfl
      | false => exact .inr ⟨taken, (hcut rfl).1, (hcut rfl).2, rfl⟩
  · have hdown := Bool.not_eq_true _ ▸ hs
    rw [if_pos (by rw [hdown]; rfl)]
    exact .inl ⟨.inl ⟨rfl, hdown⟩, rfl⟩

/-- Everything a connect can do: it finds the link connected, it opens a new connection, or it fails
and leaves the link without one. -/
theorem connect_cases (ans : SocketAnswer) (s : SocketState) :
    (s.isConnected = true ∧ connect ans s = (.noError, s)) ∨
    (s.isConnected = false ∧ ∃ socket, 0 ≤ socket ∧
      connect ans s = (.noError, ⟨socket, true, [] :: s.streams⟩)) ∨
    (s.isConnected = false ∧ (connect ans s).1 ≠ .noError ∧
      (connect ans s).2.isConnected = false ∧ (connect ans s).2.streams = s.streams) := by
  unfold connect closeSocket
  grind

/-! ## What the results tell -/

/-- A call of the link, with what the socket library answers during it. -/
inductive Call where
  | connect (ans : SocketAnswer)
  | send (data : List UInt8) (ans : SocketAnswer)

/-- What the results of the calls tell of one connection: the payloads that were accepted on it, in
order, and the one that failed. -/
structure Connection where
  accepted : List (List UInt8)
  failed : Option (List UInt8)

/-- What the results of the calls tell of all connections, the latest first, and whether that one is
up. -/
structure Sessions where
  up : Bool
  connections : List Connection

/-- What one more result tells. A connect that succeeds while no connection is up began one; a send
that fails ended one. -/
def Sessions.observe (h : Sessions) : Call → LinkError → Sessions
  | .connect _, .noError => if h.up then h else ⟨true, ⟨[], none⟩ :: h.connections⟩
  | .send data _, .noError =>
    match h.connections with
    | [] => h
    | c :: cs => { h with connections := { c with accepted := c.accepted ++ [data] } :: cs }
  | .send data _, .sendError =>
    match h.connections with
    | [] => h
    | c :: cs => ⟨false, { c with failed := some data } :: cs⟩
  | _, _ => h

/-- One call. -/
def Call.run (maxFragment : UInt8) : Call → SocketState → LinkError × SocketState
  | .connect ans, s => SocketLink.connect ans s
  | .send data ans, s => SocketLink.send maxFragment data ans s

/-- One call, and what its result tells. -/
def observed (maxFragment : UInt8) (p : SocketState × Sessions) (call : Call) :
    SocketState × Sessions :=
  ((call.run maxFragment p.1).2, p.2.observe call (call.run maxFragment p.1).1)

/-- A link that was just constructed, and nothing known of it. -/
def unused (maxFragment : UInt8) : SocketState × Sessions :=
  ((socketLink maxFragment).constructed, ⟨false, []⟩)

/-- The link after some calls, and what their results tell. -/
def after (maxFragment : UInt8) (calls : List Call) : SocketState × Sessions :=
  calls.foldl (observed maxFragment) (unused maxFragment)

/-- The bytes a connection carries: the accepted payloads in order, and then nothing, or a part of
the payload that failed, which lacks its last byte at least. -/
def Connection.Wrote (c : Connection) (stream : List UInt8) : Prop :=
  ∃ tail, stream = c.accepted.flatten ++ tail ∧
    match c.failed with
    | none => tail = []
    | some data => tail <+: data ∧ tail.length < data.length

/-- The streams of the connections that are over. -/
def ended (s : SocketState) : List (List UInt8) :=
  if s.isConnected then s.streams.tail else s.streams

/-! ## The invariant -/

/-- The link and what the results tell agree. -/
structure Aligned (s : SocketState) (h : Sessions) : Prop where
  up : s.isConnected = h.up
  socket : s.isConnected = true → 0 ≤ s.socket
  streams : List.Forall₂ Connection.Wrote h.connections s.streams
  /-- A connection that is up is the latest one, and nothing failed on it. -/
  current : h.up = true → ∃ c cs, h.connections = c :: cs ∧ c.failed = none

/-- A connection on which nothing failed carries the accepted payloads. -/
theorem Connection.wrote_of_unfailed {c : Connection} {stream : List UInt8}
    (hc : c.failed = none) : c.Wrote stream ↔ stream = c.accepted.flatten := by
  unfold Wrote
  rw [hc]
  simp

/-- A connect keeps them in agreement: it writes nothing. -/
theorem Aligned.connect {h : Sessions} (ha : Aligned s h) (ans : SocketAnswer) :
    Aligned (SocketLink.connect ans s).2 (h.observe (.connect ans) (SocketLink.connect ans s).1) ∧
      ended s <:+ ended (SocketLink.connect ans s).2 := by
  rcases connect_cases ans s with ⟨hup, hc⟩ | ⟨hdown, socket, hsocket, hc⟩ |
    ⟨hdown, hresult, hdown', hstreams⟩
  · have hsame : h.observe (.connect ans) .noError = h := by
      show (if h.up then h else _) = h
      rw [← ha.up, hup]
      rfl
    rw [hc, hsame]
    exact ⟨ha, List.suffix_refl _⟩
  · have hnew : h.observe (.connect ans) .noError = ⟨true, ⟨[], none⟩ :: h.connections⟩ := by
      show (if h.up then h else _) = _
      rw [← ha.up, hdown]
      rfl
    rw [hc, hnew]
    refine ⟨⟨rfl, fun _ => hsocket, .cons ⟨[], rfl, rfl⟩ ha.streams, fun _ => ?_⟩, ?_⟩
    · exact ⟨_, _, rfl, rfl⟩
    · unfold ended
      rw [hdown]
      exact List.suffix_refl _
  · have hsame : h.observe (.connect ans) (SocketLink.connect ans s).1 = h := by
      cases hr : (SocketLink.connect ans s).1 <;> first | exact absurd hr hresult | rfl
    rw [hsame]
    have hkept : ended (SocketLink.connect ans s).2 = ended s := by
      unfold ended
      rw [hdown, hdown', hstreams]
    refine ⟨⟨hdown'.trans (hdown.symm.trans ha.up), fun hup => ?_, hstreams ▸ ha.streams,
      ha.current⟩, hkept ▸ List.suffix_refl _⟩
    rw [hdown'] at hup
    cases hup

/-- A send keeps them in agreement: what it writes, it writes on the connection that is up. -/
theorem Aligned.send {h : Sessions} (ha : Aligned s h) (maxFragment : UInt8) (data : List UInt8)
    (ans : SocketAnswer) :
    Aligned (SocketLink.send maxFragment data ans s).2
        (h.observe (.send data ans) (SocketLink.send maxFragment data ans s).1) ∧
      ended s <:+ ended (SocketLink.send maxFragment data ans s).2 := by
  rcases send_cases maxFragment data ans s with ⟨hresult, hsame⟩ | ⟨hup, hwrites⟩
  · have hobserve :
        h.observe (.send data ans) (SocketLink.send maxFragment data ans s).1 = h := by
      rcases hresult with ⟨hr, -⟩ | ⟨hr, -⟩ <;> rw [hr] <;> rfl
    rw [hobserve, hsame]
    exact ⟨ha, List.suffix_refl _⟩
  obtain ⟨c, cs, hc, hunfailed⟩ := ha.current (ha.up ▸ hup)
  have hstreams := ha.streams
  rw [hc] at hstreams
  obtain ⟨stream, earlier, hwrote, hearlier, hs⟩ := List.forall₂_cons_left_iff.1 hstreams
  have hstream := (Connection.wrote_of_unfailed hunfailed).1 hwrote
  have hended : ended s = earlier := by
    unfold ended
    rw [hup, hs]
    rfl
  rcases hwrites stream earlier hs with hsend | ⟨taken, hpre, hlen, hsend⟩
  · have hobserve : h.observe (.send data ans) .noError =
        { h with connections := { c with accepted := c.accepted ++ [data] } :: cs } := by
      unfold Sessions.observe
      rw [hc]
    rw [hsend, hobserve, hended]
    refine ⟨⟨ha.up, ha.socket, .cons ?_ hearlier, fun _ => ⟨_, _, rfl, hunfailed⟩⟩, ?_⟩
    · refine (Connection.wrote_of_unfailed (c := ⟨c.accepted ++ [data], _⟩) hunfailed).2 ?_
      rw [hstream, List.flatten_append, List.flatten_singleton]
    · unfold ended
      rw [hup]
      exact List.suffix_refl _
  · have hobserve : h.observe (.send data ans) .sendError =
        ⟨false, { c with failed := some data } :: cs⟩ := by
      unfold Sessions.observe
      rw [hc]
    have hclosed : (closeSocket { s with streams := (stream ++ taken) :: earlier }).streams =
        (stream ++ taken) :: earlier := by
      unfold closeSocket
      split <;> rfl
    rw [hsend, hobserve, hended]
    refine ⟨⟨rfl, fun hup => (nomatch hup), ?_, fun hup => (nomatch hup)⟩, ?_⟩
    · show List.Forall₂ _ _ (closeSocket _).streams
      rw [hclosed]
      exact .cons ⟨taken, by rw [hstream], hpre, hlen⟩ hearlier
    · show earlier <:+ (closeSocket _).streams
      rw [hclosed]
      exact List.suffix_cons _ _

/-- Each call keeps them in agreement, and writes on no connection that is over. -/
theorem Aligned.run (maxFragment : UInt8) {h : Sessions} (ha : Aligned s h) (call : Call) :
    Aligned (call.run maxFragment s).2 (h.observe call (call.run maxFragment s).1) ∧
      ended s <:+ ended (call.run maxFragment s).2 := by
  cases call with
  | connect ans => exact ha.connect ans
  | send data ans => exact ha.send maxFragment data ans

/-- Any calls keep them in agreement, and write on no connection that is over. The induction is on
the calls. -/
theorem Aligned.foldl (maxFragment : UInt8) (calls : List Call) {p : SocketState × Sessions}
    (ha : Aligned p.1 p.2) :
    Aligned (calls.foldl (observed maxFragment) p).1 (calls.foldl (observed maxFragment) p).2 ∧
      ended p.1 <:+ ended (calls.foldl (observed maxFragment) p).1 := by
  induction calls generalizing p with
  | nil => exact ⟨ha, List.suffix_refl _⟩
  | cons call calls ih =>
    obtain ⟨ha', hended⟩ := ha.run maxFragment call
    obtain ⟨hrun, hlater⟩ := ih (p := observed maxFragment p call) ha'
    exact ⟨hrun, hended.trans hlater⟩

theorem aligned_after (maxFragment : UInt8) (calls : List Call) :
    Aligned (after maxFragment calls).1 (after maxFragment calls).2 :=
  (Aligned.foldl maxFragment calls (p := unused maxFragment)
    ⟨rfl, fun hup => (nomatch hup), .nil, fun hup => (nomatch hup)⟩).1

/-- What is over stays as it is, whatever is called next. -/
theorem ended_after (maxFragment : UInt8) (calls more : List Call) :
    ended (after maxFragment calls).1 <:+ (after maxFragment (calls ++ more)).1.streams := by
  have hlater := ((aligned_after maxFragment calls).foldl maxFragment more).2
  have hmore : after maxFragment (calls ++ more) =
      more.foldl (observed maxFragment) (after maxFragment calls) := List.foldl_append
  rw [hmore]
  refine hlater.trans ?_
  unfold ended
  split
  · exact List.tail_suffix _
  · exact List.suffix_refl _

/-- A connection on which a payload failed is over. -/
theorem Aligned.ended_of_failed {h : Sessions} (ha : Aligned s h) {i : Nat} {c : Connection}
    (hc : h.connections.reverse[i]? = some c) (hfailed : c.failed ≠ none) :
    i < (ended s).length := by
  have hlen := ha.streams.length_eq
  have hi : i < h.connections.reverse.length := (List.getElem?_eq_some_iff.1 hc).1
  rw [List.length_reverse] at hi
  unfold ended
  split
  · next hup =>
    obtain ⟨c₀, cs, hcs, hunfailed⟩ := ha.current (ha.up ▸ hup)
    rw [hcs] at hc hi hlen
    rw [List.length_tail, ← hlen, List.length_cons, Nat.add_sub_cancel]
    rw [List.length_cons] at hi
    refine Nat.lt_of_le_of_ne (Nat.le_of_lt_succ hi) fun hlast => ?_
    rw [hlast, List.reverse_cons, ← List.length_reverse, List.getElem?_concat_length] at hc
    cases hc
    exact hfailed hunfailed
  · exact hlen ▸ hi

/-- Where a list ends with another, they agree on what that one has, counted from the end. -/
theorem getElem?_reverse_of_suffix {α : Type} {l l' : List α} (h : l <:+ l') {i : Nat}
    (hi : i < l.length) : l'.reverse[i]? = l.reverse[i]? := by
  obtain ⟨newer, rfl⟩ := h
  rw [List.reverse_append, List.getElem?_append_left (by rwa [List.length_reverse])]

/-- **The byte stream stays aligned.** After any calls with any answers of the socket library: each
connection carries the payloads accepted on it, in order, and at most a proper part of one that
failed; on a connection where one failed nothing is ever written again; a payload turned down
changes nothing; a connected link has an open socket; and the send loop runs to its end. -/
theorem stream_aligned (maxFragment : UInt8) (calls : List Call) :
    let s := (after maxFragment calls).1
    let h := (after maxFragment calls).2
    s.isConnected = h.up ∧ List.Forall₂ Connection.Wrote h.connections s.streams ∧
    (∀ (more : List Call) (i : Nat) (c : Connection), h.connections.reverse[i]? = some c →
      c.failed ≠ none →
      (after maxFragment (calls ++ more)).1.streams.reverse[i]? = s.streams.reverse[i]?) ∧
    (∀ data ans, (send maxFragment data ans s).1 = .payloadTooLarge ∨ s.isConnected = false →
      (send maxFragment data ans s).2 = s) ∧
    (s.isConnected = true → 0 ≤ s.socket) ∧
    ∀ (data : List UInt8) (ans : SocketAnswer), ∃! r, LoopRun ans.zsockSend 0 data s r := by
  intro s h
  have ha : Aligned s h := aligned_after maxFragment calls
  refine ⟨ha.up, ha.streams, fun more i c hc hfailed => ?_, fun data ans hdown => ?_, ha.socket,
    fun data ans => ?_⟩
  · have hi := ha.ended_of_failed hc hfailed
    have hkept : ended s <:+ s.streams := by
      have hnone := ended_after maxFragment calls []
      rwa [List.append_nil] at hnone
    rw [getElem?_reverse_of_suffix (ended_after maxFragment calls more) hi,
      getElem?_reverse_of_suffix hkept hi]
  · rcases send_cases maxFragment data ans s with ⟨-, hsame⟩ | ⟨hup, hwrites⟩
    · exact hsame
    · obtain ⟨c, cs, hcs, -⟩ := ha.current (ha.up ▸ hup)
      have hstreams := ha.streams
      rw [hcs] at hstreams
      obtain ⟨stream, earlier, -, -, hs⟩ := List.forall₂_cons_left_iff.1 hstreams
      rcases hdown with hlarge | hdown
      · rcases hwrites stream earlier hs with hsend | ⟨taken, -, -, hsend⟩ <;>
          rw [hsend] at hlarge <;> cases hlarge
      · rw [hup] at hdown
        cases hdown
  · have hrun : LoopRun ans.zsockSend 0 data s _ := sendLoop_run (Nat.le_refl data.length)
    exact ⟨_, hrun, fun r hr => hr.det hrun⟩

/-- A payload that fails half way is the last of its connection. -/
example :
    let calls : List Call :=
      [.connect ⟨0, 3, 0, fun _ => 0⟩, .send [1, 2] ⟨0, 0, 0, fun _ => 1⟩,
        .send [3, 4] ⟨0, 0, 0, fun i => if i = 0 then 1 else -1⟩, .send [5] ⟨0, 0, 0, fun _ => 1⟩,
        .connect ⟨0, 4, 0, fun _ => 0⟩, .send [6] ⟨0, 0, 0, fun _ => 1⟩]
    (after 242 calls).1.streams = [[6], [1, 2, 3]] := by decide

end Concentrator.SocketLink
