import Concentrator.Hal.WifiLink
import Concentrator.Lib.Monitor

/-!
# What becomes of a lost association

The event handler reports a disassociation and leaves the rebuilding to `connect()`. But `connect()`
is the one of every socket link, and knows nothing of associations: whatever events come between its
steps, it does what `SocketLink.connect` says (`connect_call`) and makes no association request. So
no `connect()` that begins disassociated rebuilds anything (`rebuilds_iff`); the device associates
in `initialize()` alone.
-/

namespace Concentrator.WifiLink

open Threaded

variable {cfg : WifiConfig}

/-! ## The calls of a run -/

variable (cfg) in
/-- The calling thread with its history. -/
abbrev recorded : Threaded WifiSig := (wifi cfg).withHistory

variable (cfg) in
/-- A call that has returned: the state it began in, its steps, the latest first, its result, and
the state it returned in. -/
structure CallRecord where
  request : Request
  began : State
  steps : List (Noted (wifi cfg))
  result : LinkError
  ended : State

/-- Whether an item of the history is a step of a call. -/
def isStep : Noted (wifi cfg) → Bool
  | .start _ => false
  | .call .. => true

/-- The call that has just returned. -/
def lastCall : List (Noted (wifi cfg)) → Option (CallRecord cfg)
  | .call (.returned result) _ ended :: items =>
    match items.dropWhile isStep with
    | .start began :: _ =>
      began.pending.map fun r => ⟨r, began, items.takeWhile isStep, result, ended⟩
    | _ => none
  | _ => none

/-- A call asks for an association before it tries to connect, and says that it has connected only
when the interface is associated again. -/
structure Rebuilds (call : CallRecord cfg) : Prop where
  requests : ∃ later earlier answer s,
    call.steps = later ++ .call .requestConnect answer s :: earlier ∧
    ∀ answer' s', .call .zsockConnect answer' s' ∉ earlier
  honest : call.result = .noError → call.ended.disassociated = false

/-! ## During a call -/

/-- An item of the history is an allowed step. -/
def Takes (allowed : Op → Prop) : Noted (wifi cfg) → Prop
  | .start _ => False
  | .call o .. => allowed o

/-- A call that began in `began`, whose steps are all of those allowed, has brought the socket to
`link`. -/
def During (began : State) (earlier : List (Noted (wifi cfg))) (allowed : Op → Prop)
    (link : SocketState) (s : (recorded cfg).State) : Prop :=
  s.1.link = link ∧ ∃ steps, s.2 = steps ++ .start began :: earlier ∧
    ∀ item ∈ steps, Takes allowed item

variable {began : State} {earlier : List (Noted (wifi cfg))} {allowed : Op → Prop}
  {link : SocketState}

/-- The events touch neither the socket nor the history. -/
theorem stable_during :
    Stable (.all : Guard (recorded cfg)) (During began earlier allowed link) := by
  intro x s _ h
  cases x with
  | request r => exact h
  | event e => exact h

theorem perform_link (o : Op) (ans : Answer) (s : State) :
    (perform o ans s).2.link = o.onSocket ans s.link := by
  cases o <;> rfl

/-- One allowed step of a call. -/
theorem wp_step {o : Op} {α : Type} {k : o.Res → WifiProg α}
    {Q : α → (recorded cfg).State → Prop} {s : (recorded cfg).State}
    (h : During began earlier allowed link s) (ho : allowed o)
    (hk : ∀ ans s', s'.1.link = link →
      During began earlier allowed (o.onSocket ans link) ((recorded cfg).perform o ans s').2 →
      wp .all (fun _ => True) (k ((recorded cfg).perform o ans s').1) Q
        ((recorded cfg).perform o ans s').2) :
    wp .all (fun _ => True) (.call o k) Q s := by
  refine wp_call _ h stable_during fun s' hs' ans _ => ⟨trivial, hk ans s' hs'.1 ?_⟩
  obtain ⟨rfl, steps, hsteps, hallowed⟩ := hs'
  refine ⟨perform_link o ans s'.1, .call o (perform o ans s'.1).1 s'.1 :: steps, ?_, ?_⟩
  · rw [List.cons_append, ← hsteps]
  · exact List.forall_mem_cons.2 ⟨ho, hallowed⟩

/-- What is read off the history once the call returns. -/
theorem lastCall_during {s : (recorded cfg).State} {r : Request}
    (h : During began earlier allowed link s) (hpending : began.pending = some r)
    (result : LinkError) :
    ∃ steps, lastCall (.call (.returned result) () s.1 :: s.2) =
        some ⟨r, began, steps, result, s.1⟩ ∧
      ∀ item ∈ steps, Takes allowed item := by
  obtain ⟨-, steps, hsteps, hallowed⟩ := h
  have hstep : ∀ item ∈ steps, isStep item = true := by
    intro item hitem
    cases item with
    | start st => exact (hallowed _ hitem).elim
    | call => rfl
  refine ⟨steps, ?_, hallowed⟩
  have hrest : (steps ++ .start began :: earlier).dropWhile isStep = .start began :: earlier := by
    rw [List.dropWhile_append_of_pos hstep]
    rfl
  have htaken : (steps ++ .start began :: earlier).takeWhile isStep = steps := by
    rw [List.takeWhile_append_of_pos hstep]
    exact List.append_nil steps
  simp only [lastCall, hsteps, hrest, htaken, hpending, Option.map_some]

/-! ## What the calls do -/

/-- A step on the socket. -/
def Op.Socket : Op → Prop
  | .isConnected | .setConnected _ | .closeSocket | .netAddrPton | .zsockSocket | .zsockConnect
  | .zsockSend _ => True
  | _ => False

/-- A step on the network interface. -/
def Op.Network : Op → Prop
  | .netIfGetFirstWifi | .statics | .modify _ | .addEventCallback | .requestConnect
  | .takeAssociateDone | .requestScan | .takeScanDone | .netDhcpv4Start | .netIfIpv4GetGlobalAddr
  | .applyStaticIpv4 => True
  | _ => False

/-- `connect()` does what the connect of a socket link does, whatever events come. -/
theorem wp_connect {s : (recorded cfg).State} (h : During began earlier Op.Socket link s) :
    wp .all (fun _ => True) connect (fun result s => ∃ ans,
      During began earlier Op.Socket (SocketLink.connect ans link).2 s ∧
      result = (SocketLink.connect ans link).1) s := by
  unfold SocketLink.connect
  refine wp_step h trivial fun _ s₁ hlink h₁ => ?_
  show wp _ _ (if s₁.1.link.isConnected then _ else _) _ _
  rw [hlink]
  by_cases hconnected : link.isConnected = true
  · rw [if_pos hconnected]
    refine ⟨⟨0, 0, 0, fun _ => 0⟩, ?_⟩
    rw [if_pos hconnected]
    exact ⟨h₁, rfl⟩
  rw [if_neg hconnected]
  refine wp_step h₁ trivial fun _ _ _ h₂ => wp_step h₂ trivial fun parsed _ _ h₃ => ?_
  show wp _ _ (if parsed.netAddrPton ≠ 0 then _ else _) _ _
  by_cases hparsed : parsed.netAddrPton ≠ 0
  · rw [if_pos hparsed]
    refine ⟨⟨parsed.netAddrPton, 0, 0, fun _ => 0⟩, ?_⟩
    rw [if_neg hconnected, if_pos hparsed]
    exact ⟨h₃, rfl⟩
  rw [if_neg hparsed]
  refine wp_step h₃ trivial fun opened _ _ h₄ => ?_
  show wp _ _ (if opened.zsockSocket < 0 then _ else _) _ _
  by_cases hopened : opened.zsockSocket < 0
  · rw [if_pos hopened]
    refine ⟨⟨parsed.netAddrPton, opened.zsockSocket, 0, fun _ => 0⟩, ?_⟩
    rw [if_neg hconnected, if_neg hparsed, if_pos hopened]
    exact ⟨h₄, rfl⟩
  rw [if_neg hopened]
  refine wp_step h₄ trivial fun tried _ _ h₅ => ?_
  show wp _ _ (if tried.zsockConnect < 0 then _ else _) _ _
  by_cases htried : tried.zsockConnect < 0
  · rw [if_pos htried]
    refine wp_step h₅ trivial fun _ _ _ h₆ => ?_
    refine ⟨⟨parsed.netAddrPton, opened.zsockSocket, tried.zsockConnect, fun _ => 0⟩, ?_⟩
    rw [if_neg hconnected, if_neg hparsed, if_neg hopened, if_pos htried]
    simp only [Op.onSocket, if_pos htried] at h₆
    exact ⟨h₆, rfl⟩
  · rw [if_neg htried]
    refine wp_step h₅ trivial fun _ _ _ h₆ => ?_
    refine ⟨⟨parsed.netAddrPton, opened.zsockSocket, tried.zsockConnect, fun _ => 0⟩, ?_⟩
    rw [if_neg hconnected, if_neg hparsed, if_neg hopened, if_neg htried]
    simp only [Op.onSocket, if_neg htried] at h₆
    exact ⟨h₆, rfl⟩

/-- What a send makes of the end of its loop. -/
def afterLoop : Bool × SocketState → LinkError × SocketState
  | (true, link) => (.noError, link)
  | (false, link) => (.sendError, { SocketLink.closeSocket link with isConnected := false })

/-- The loop does what that of a socket link does. The induction is on the rounds. -/
theorem wp_sendLoop {fuel : Nat} (calls : Nat) {rest : List UInt8} {s : (recorded cfg).State}
    (h : During began earlier Op.Socket link s) :
    wp .all (fun _ => True) (sendLoop fuel rest) (fun result s => ∃ zsockSend : Nat → Int,
      During began earlier Op.Socket
        (afterLoop (SocketLink.sendLoop zsockSend fuel calls rest link)).2 s ∧
      result = (afterLoop (SocketLink.sendLoop zsockSend fuel calls rest link)).1) s := by
  induction fuel generalizing calls rest s link with
  | zero => exact ⟨fun _ => 0, h, rfl⟩
  | succ fuel ih =>
    unfold sendLoop SocketLink.sendLoop
    by_cases hrest : rest = []
    · rw [if_pos hrest]
      refine ⟨fun _ => 0, ?_⟩
      rw [if_pos hrest]
      exact ⟨h, rfl⟩
    rw [if_neg hrest]
    refine wp_step h trivial fun ans s₁ _ h₁ => ?_
    show wp _ _ (if ans.zsockSend ≤ 0 then _ else _) _ _
    by_cases hrefused : ans.zsockSend ≤ 0
    · rw [if_pos hrefused]
      refine wp_step h₁ trivial fun _ _ _ h₂ => wp_step h₂ trivial fun _ _ _ h₃ => ?_
      refine ⟨fun _ => ans.zsockSend, ?_⟩
      simp only [Op.onSocket, if_pos hrefused] at h₃
      simp only [if_neg hrest, if_pos hrefused]
      exact ⟨h₃, rfl⟩
    · rw [if_neg hrefused]
      simp only [Op.onSocket, if_neg hrefused] at h₁
      refine wp_mono (fun result s' => ?_) (ih (calls + 1) h₁)
      rintro ⟨zsockSend, hs', rfl⟩
      -- The answer to this round goes before those to the rounds that follow.
      refine ⟨fun i => if i = calls then ans.zsockSend else zsockSend i, ?_⟩
      have hlater (i : Nat) (hi : calls + 1 ≤ i) :
          (if i = calls then ans.zsockSend else zsockSend i) = zsockSend i :=
        if_neg (Nat.ne_of_gt hi)
      simp only [if_neg hrest, if_true, if_neg hrefused, SocketLink.sendLoop_congr _ fuel hlater]
      exact ⟨hs', rfl⟩

/-- `send()` does what the send of a socket link does, whatever events come. -/
theorem wp_send {data : List UInt8} {s : (recorded cfg).State}
    (h : During began earlier Op.Socket link s) :
    wp .all (fun _ => True) (send cfg.maxFragment data) (fun result s => ∃ ans,
      During began earlier Op.Socket (SocketLink.send cfg.maxFragment data ans link).2 s ∧
      result = (SocketLink.send cfg.maxFragment data ans link).1) s := by
  have hsend (ans : SocketAnswer) : SocketLink.send cfg.maxFragment data ans link =
      if !link.isConnected then (.connectError, link)
      else if data.length > (SocketLink.getMaxPayloadSize cfg.maxFragment link).toNat then
        (.payloadTooLarge, link)
      else afterLoop (SocketLink.sendLoop ans.zsockSend data.length 0 data link) := rfl
  refine wp_step h trivial fun _ s₁ hlink h₁ => ?_
  show wp _ _ (if !s₁.1.link.isConnected then _ else _) _ _
  rw [hlink]
  by_cases hconnected : (!link.isConnected) = true
  · rw [if_pos hconnected]
    refine ⟨⟨0, 0, 0, fun _ => 0⟩, ?_⟩
    rw [hsend, if_pos hconnected]
    exact ⟨h₁, rfl⟩
  rw [if_neg hconnected]
  refine wp_step h₁ trivial fun _ s₂ hkept h₂ => ?_
  replace hkept : s₂.1.link = link := hkept
  show wp _ _ (if data.length >
    (SocketLink.getMaxPayloadSize cfg.maxFragment s₂.1.link).toNat then _ else _) _ _
  rw [hkept]
  by_cases hlarge : data.length > (SocketLink.getMaxPayloadSize cfg.maxFragment link).toNat
  · rw [if_pos hlarge]
    refine ⟨⟨0, 0, 0, fun _ => 0⟩, ?_⟩
    rw [hsend, if_neg hconnected, if_pos hlarge]
    exact ⟨h₂, rfl⟩
  · rw [if_neg hlarge]
    refine wp_mono (fun result s' => ?_) (wp_sendLoop 0 h₂)
    rintro ⟨zsockSend, hs', rfl⟩
    refine ⟨⟨0, 0, 0, zsockSend⟩, ?_⟩
    rw [hsend, if_neg hconnected, if_neg hlarge]
    exact ⟨hs', rfl⟩

/-- The monitor of the steps on the network interface. -/
def networkWatch : Monitor WifiSig Unit where
  allows _ o := o.Network
  next _ _ m := m

theorem network_step {o : Op} {α : Type} {k : o.Res → WifiProg α} (ho : o.Network)
    (hk : ∀ r, (k r).Obeys networkWatch ()) : (op o >>= k).Obeys networkWatch () :=
  ⟨ho, hk⟩

theorem network_reportVisibleNetworks : reportVisibleNetworks.Obeys networkWatch () := by
  refine network_step trivial fun _ => network_step trivial fun _ => ?_
  refine network_step trivial fun _ => ?_
  refine network_step trivial fun result => ?_
  split
  · trivial
  refine network_step trivial fun finished => ?_
  split
  · trivial
  refine network_step trivial fun s => ?_
  split
  · trivial
  refine network_step trivial fun s => ?_
  split <;> trivial

theorem network_associate (ssid : List UInt8) : (associate ssid).Obeys networkWatch () := by
  unfold associate
  split
  · trivial
  refine network_step trivial fun _ => network_step trivial fun _ => ?_
  refine network_step trivial fun _ => ?_
  refine network_step trivial fun _ => network_step trivial fun result => ?_
  split
  · trivial
  refine network_step trivial fun answered => network_step trivial fun _ => ?_
  split
  · trivial
  refine network_step trivial fun s => ?_
  split
  · exact network_reportVisibleNetworks.bind fun _ _ => trivial
  · trivial

/-- The induction is on the polls. -/
theorem network_waitForIpv4Address (polls : Nat) :
    (waitForIpv4Address polls).Obeys networkWatch () := by
  induction polls with
  | zero => trivial
  | succ polls ih =>
    refine network_step trivial fun found => ?_
    split
    · trivial
    · exact ih

theorem network_obtainAddress (useDhcp : Bool) :
    (obtainAddress useDhcp).Obeys networkWatch () := by
  unfold obtainAddress
  split
  · exact network_step trivial fun _ => (network_waitForIpv4Address _).bind fun _ _ => trivial
  · exact network_step trivial fun _ => trivial

theorem network_registerEvents : registerEvents.Obeys networkWatch () := by
  refine network_step trivial fun s => ?_
  split
  · trivial
  · exact network_step trivial fun _ => network_step trivial fun _ => network_step trivial fun _ =>
      ⟨trivial, fun _ => trivial⟩

/-- Bringing the interface up leaves the socket alone. -/
theorem network_bringUpNetwork (cfg : WifiConfig) : (bringUpNetwork cfg).Obeys networkWatch () := by
  refine network_step trivial fun found => ?_
  split
  · trivial
  refine network_registerEvents.bind fun _ _ => (network_associate _).bind fun associated _ => ?_
  split
  · trivial
  · exact network_obtainAddress _

theorem onSocket_network {o : Op} (ho : o.Network) (ans : Answer) (link : SocketState) :
    o.onSocket ans link = link := by
  cases o with
  | setConnected | closeSocket | zsockSocket | zsockConnect | zsockSend => exact ho.elim
  | _ => rfl

/-- A program whose steps are all on the network interface: the induction is on it. -/
theorem wp_network {α : Type} {p : WifiProg α} {s : (recorded cfg).State}
    (hp : p.Obeys networkWatch ()) (h : During began earlier Op.Network link s) :
    wp .all (fun _ => True) p (fun _ s => During began earlier Op.Network link s) s := by
  induction p generalizing s with
  | pure a => exact h
  | call o k ih =>
    refine wp_step h hp.1 fun ans s' _ hs' => ih _ (hp.2 _) ?_
    rwa [onSocket_network hp.1] at hs'

/-! ## Every run -/

/-- What a call has done: `initialize()` leaves the socket alone, and the others make steps on the
socket only, and do what the calls of a socket link do. -/
def CallRecord.Sound (call : CallRecord cfg) : Prop :=
  match call.request with
  | .initializeLink => call.ended.link = call.began.link
  | .connect => (∀ item ∈ call.steps, Takes Op.Socket item) ∧
    ∃ ans, SocketLink.connect ans call.began.link = (call.result, call.ended.link)
  | .send data => (∀ item ∈ call.steps, Takes Op.Socket item) ∧
    ∃ ans, SocketLink.send cfg.maxFragment data ans call.began.link = (call.result, call.ended.link)

/-- The call that has just returned is sound. -/
def Returned (s : (recorded cfg).State) : Prop :=
  ∀ call, lastCall s.2 = some call → call.Sound

/-- A call that ends in `spec` is sound when that is what is asked of it. -/
theorem wp_body (earlier : List (Noted (wifi cfg))) (allowed : Op → Prop)
    (spec : LinkError → SocketState → Prop) {r : Request} (hpending : began.pending = some r)
    (hsound : ∀ steps result ended, (∀ item ∈ steps, Takes allowed item) →
      spec result ended.link → (⟨r, began, steps, result, ended⟩ : CallRecord cfg).Sound)
    {s : (recorded cfg).State}
    (h : wp .all (fun _ => True) (r.prog cfg)
      (fun result s => ∃ link, During began earlier allowed link s ∧ spec result link) s) :
    wp .all (fun _ => True) (r.body cfg) (fun _ s => Returned s) s := by
  refine wp_bind.2 (wp_mono (fun result s' => ?_) h)
  rintro ⟨link, hs', hspec⟩
  refine wp_call _ hs' stable_during fun s₁ h₁ _ _ => ⟨trivial, fun call hcall => ?_⟩
  obtain ⟨steps, hlast, hallowed⟩ := lastCall_during h₁ hpending result
  obtain rfl : _ = call := Option.some.inj (hlast.symm.trans hcall)
  refine hsound steps result s₁.1 hallowed ?_
  rwa [h₁.1]

/-- A call that begins is sound when it returns. -/
theorem wp_request (r : Request) {s : (recorded cfg).State} (hpending : began.pending = some r)
    (hbegan : s = ({ began with pending := none }, .start began :: earlier)) :
    wp .all (fun _ => True) (r.body cfg) (fun _ s => Returned s) s := by
  have hduring (allowed : Op → Prop) : During began earlier allowed began.link s := by
    rw [hbegan]
    exact ⟨rfl, [], rfl, fun _ hitem => nomatch hitem⟩
  cases r with
  | initializeLink =>
    refine wp_body earlier Op.Network (fun _ link => link = began.link) hpending
      (fun _ _ _ _ hlink => hlink) (wp_mono (fun _ s' hs' => ?_)
        (wp_network (network_bringUpNetwork cfg) (hduring _)))
    exact ⟨began.link, hs', rfl⟩
  | connect =>
    refine wp_body earlier Op.Socket
      (fun result link => ∃ ans, SocketLink.connect ans began.link = (result, link)) hpending
      (fun _ _ _ hsteps hspec => ⟨hsteps, hspec⟩)
      (wp_mono (fun _ s' hs' => ?_) (wp_connect (hduring _)))
    obtain ⟨ans, hs', rfl⟩ := hs'
    exact ⟨_, hs', ans, rfl⟩
  | send data =>
    refine wp_body earlier Op.Socket
      (fun result link =>
        ∃ ans, SocketLink.send cfg.maxFragment data ans began.link = (result, link)) hpending
      (fun _ _ _ hsteps hspec => ⟨hsteps, hspec⟩)
      (wp_mono (fun _ s' hs' => ?_) (wp_send (hduring _)))
    obtain ⟨ans, hs', rfl⟩ := hs'
    exact ⟨_, hs', ans, rfl⟩

variable {c : (recorded cfg).Conf} {call : CallRecord cfg}

/-- **The calls of a Wi-Fi link are those of a socket link**, whatever events come between their
steps. -/
theorem sound_reach (h : Reach .all ((constructed cfg).withHistory []) c)
    (hidle : c.running = none) (hcall : lastCall c.state.2 = some call) : call.Sound := by
  have hstable : Stable (.all : Guard (recorded cfg)) Returned := fun x s _ hs => hs
  have h₀ : Inv .all (fun _ => True) Returned ((constructed cfg).withHistory []) :=
    ⟨trivial, fun _ hlast => nomatch hlast⟩
  have hinv := invariant (fun _ _ _ _ => trivial) hstable (fun s p s' _ _ _ hstart => ?_) h₀ h
  · obtain ⟨s, r⟩ := c
    cases hidle
    exact hinv.2 call hcall
  · obtain ⟨⟨p, s₁⟩, hstarted, heq⟩ := Option.map_eq_some_iff.1 hstart
    obtain ⟨r, hpending, hr⟩ := Option.map_eq_some_iff.1 hstarted
    cases hr
    cases heq
    exact ⟨trivial, wp_mono (fun _ _ hs => ⟨hs, trivial⟩) (wp_request r hpending rfl)⟩

/-- No `connect()` asks for an association. -/
theorem not_requests (h : Reach .all ((constructed cfg).withHistory []) c)
    (hidle : c.running = none) (hcall : lastCall c.state.2 = some call)
    (hconnect : call.request = .connect) (answer : Int) (s : State) :
    .call .requestConnect answer s ∉ call.steps := by
  have hsound := sound_reach h hidle hcall
  unfold CallRecord.Sound at hsound
  rw [hconnect] at hsound
  exact fun hmem => hsound.1 _ hmem

theorem not_rebuilds (h : Reach .all ((constructed cfg).withHistory []) c)
    (hidle : c.running = none) (hcall : lastCall c.state.2 = some call)
    (hconnect : call.request = .connect) : ¬ Rebuilds call := by
  intro hrebuilds
  obtain ⟨later, earlier, answer, s, hsteps, -⟩ := hrebuilds.requests
  refine not_requests h hidle hcall hconnect answer s ?_
  rw [hsteps]
  exact List.mem_append_right _ (.head _)

/-- **No `connect()` rebuilds an association.** In every run of the calls of a Wi-Fi link among
whatever events, a `connect()` keeps the promise to rebuild a lost association exactly when there
was none to rebuild: it did not begin disassociated. -/
theorem rebuilds_iff (h : Reach .all ((constructed cfg).withHistory []) c)
    (hidle : c.running = none) (hcall : lastCall c.state.2 = some call)
    (hconnect : call.request = .connect) :
    (call.began.disassociated = true → Rebuilds call) ↔ call.began.disassociated = false := by
  constructor
  · intro hrebuilds
    by_contra hdown
    exact not_rebuilds h hidle hcall hconnect (hrebuilds (Bool.of_not_eq_false hdown))
  · intro hup hdown
    rw [hup] at hdown
    cases hdown

/-! ## Runs of one device -/

/-- A build with a static address. -/
def sampleConfig : WifiConfig := ⟨[0x61, 0x70], false, 242⟩

/-- A stack that answers every step with success, where `zsock_connect()` and `zsock_send()` answer
`result`. -/
def answering (result : Int) : Answer := ⟨true, 0, 0, true, true, 0, 3, result, result⟩

/-- A call of which `steps` steps are made. -/
def makes (r : Request) (steps : Nat) (result : Int) : List (recorded sampleConfig).Label :=
  .other (Act.request r) :: .start :: List.replicate steps (.call (answering result))

/-- `initialize()` associates, and `connect()` connects. -/
def comesUp : List (recorded sampleConfig).Label :=
  makes .initializeLink 11 0 ++ .other (Act.event (.connectResult (some 0))) ::
    List.replicate 5 (.call (answering 0)) ++ makes .connect 7 0

/-- The access point drops the device. -/
def drops : (recorded sampleConfig).Label := .other (Act.event (.disconnectResult (some 0)))

/-- A run after which a `connect()` has just returned, with what is asked of that call. -/
theorem exists_connected (ls : List (recorded sampleConfig).Label)
    (asked : CallRecord sampleConfig → Bool)
    (h : (run ls ((constructed sampleConfig).withHistory [])).any (fun c => c.running.isNone &&
      (lastCall c.state.2).any fun call => call.request == .connect && asked call) = true) :
    ∃ c call, Reach .all ((constructed sampleConfig).withHistory []) c ∧ c.running = none ∧
      lastCall c.state.2 = some call ∧ call.request = .connect ∧ asked call = true := by
  obtain ⟨c, hreach, htest⟩ := Reach.exists_of_run ls _ h
  obtain ⟨hidle, hlast⟩ := Bool.and_eq_true_iff.1 htest
  obtain ⟨call, hcall, htest⟩ := (Option.any_eq_true _ _).1 hlast
  obtain ⟨hconnect, hasked⟩ := Bool.and_eq_true_iff.1 htest
  exact ⟨c, call, hreach, Option.isNone_iff_eq_none.1 hidle, hcall, eq_of_beq hconnect, hasked⟩

/-- The first `connect()` finds the device associated. -/
theorem rebuilds_iff_associated :
    ∃ c call, Reach .all ((constructed sampleConfig).withHistory []) c ∧ c.running = none ∧
      lastCall c.state.2 = some call ∧ call.request = .connect ∧
      call.began.disassociated = false ∧ (call.began.disassociated = true → Rebuilds call) := by
  obtain ⟨c, call, hreach, hidle, hcall, hconnect, hasked⟩ :=
    exists_connected comesUp (fun call => !call.began.disassociated) (by decide)
  have hup : call.began.disassociated = false := by simpa using hasked
  exact ⟨c, call, hreach, hidle, hcall, hconnect, hup,
    (rebuilds_iff hreach hidle hcall hconnect).2 hup⟩

/-- A step tries the server. -/
def tries : Noted (wifi sampleConfig) → Bool
  | .call .zsockConnect _ _ => true
  | _ => false

theorem tries_eq_true {item : Noted (wifi sampleConfig)} (h : tries item = true) :
    ∃ answer s, item = .call .zsockConnect answer s := by
  unfold tries at h
  split at h
  · exact ⟨_, _, rfl⟩
  · cases h

/-- The access point drops a connected device, and `connect()` reports success; and after a send has
failed, it tries the server without an association. -/
theorem rebuilds_fails :
    (∃ c call, Reach .all ((constructed sampleConfig).withHistory []) c ∧ c.running = none ∧
      lastCall c.state.2 = some call ∧ call.request = .connect ∧
      call.began.disassociated = true ∧ call.result = .noError ∧ ¬ Rebuilds call) ∧
    ∃ c call, Reach .all ((constructed sampleConfig).withHistory []) c ∧ c.running = none ∧
      lastCall c.state.2 = some call ∧ call.request = .connect ∧
      call.began.disassociated = true ∧ (∃ answer s, .call .zsockConnect answer s ∈ call.steps) ∧
      ¬ Rebuilds call := by
  constructor
  · obtain ⟨c, call, hreach, hidle, hcall, hconnect, hasked⟩ :=
      exists_connected (comesUp ++ drops :: makes .connect 2 0) (fun call =>
        decide (call.began.disassociated = true ∧ call.result = .noError ∧
          call.ended.disassociated = true)) (by decide)
    obtain ⟨hdown, hresult, hstill⟩ := of_decide_eq_true hasked
    refine ⟨c, call, hreach, hidle, hcall, hconnect, hdown, hresult, fun hrebuilds => ?_⟩
    rw [hrebuilds.honest hresult] at hstill
    cases hstill
  · obtain ⟨c, call, hreach, hidle, hcall, hconnect, hasked⟩ :=
      exists_connected (comesUp ++ drops :: makes (.send [1, 2]) 6 (-1) ++ makes .connect 7 (-1))
        (fun call => call.began.disassociated && call.steps.any tries) (by decide)
    obtain ⟨hdown, htried⟩ := Bool.and_eq_true_iff.1 hasked
    obtain ⟨item, hitem, htry⟩ := List.any_eq_true.1 htried
    obtain ⟨answer, s, rfl⟩ := tries_eq_true htry
    exact ⟨c, call, hreach, hidle, hcall, hconnect, hdown, ⟨answer, s, hitem⟩,
      not_rebuilds hreach hidle hcall hconnect⟩

end Concentrator.WifiLink
