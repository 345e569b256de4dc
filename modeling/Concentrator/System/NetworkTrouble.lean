import Concentrator.System.Tokens

/-!
# Trouble with the network

On a device that is in order, the application stops for good exactly when the network is missing at
boot (`neverStops_iff`). Afterwards no failure of the network is terminal: each one is a join that
failed, and that is retried. At boot it is different, since the socket backends wait for an
association and a lease inside `initialize()`, whose failure is reported as a service that will not
come up.
-/

namespace Concentrator.System

open Threaded

section
variable (ρ : Type) [AsReading ρ] (cfg : Config)

/-- The system of a device whose Bluetooth stack came up, on a backend. Reference: `app/app.cpp:41
initialize`, `svc/comms/subsystem.cpp:466`. -/
def bootedOn (b : Backend) (up : BringUp) : (system b.transport ρ cfg).Conf :=
  booted b.transport ρ cfg true (decide (b.initializeLink up = .noError))

/-- The application never enters `HARD_ERROR`, in any run of such a device. -/
def NeverStops (b : Backend) (up : BringUp) : Prop :=
  ∀ c : (system b.transport ρ cfg).Conf, Reach .all (bootedOn ρ cfg b up) c →
    c.state.state ≠ .hardError

/-- A bring-up in which the link failed leads to the hard error: the application handles
`SERVICES_FAILED` before anything else. -/
theorem hardError_of_linkFailed (T : Transport) :
    ∃ c : (system T ρ cfg).Conf, Reach .all (booted T ρ cfg true false) c ∧
      c.state.state = .hardError := by
  obtain ⟨c, hrun, hstate⟩ : ∃ c : (system T ρ cfg).Conf,
      run [.other Act.postBringUp, .other Act.handleEvent] (booted T ρ cfg true false) = some c ∧
      c.state.state = .hardError := ⟨_, rfl, rfl⟩
  exact ⟨c, .of_run hrun, hstate⟩

/-- **Network trouble is terminal at boot only.** On a device that is in order, the hard error is
unreachable, whatever the network does later, exactly when the network gave what the backend waits
for during `initialize()`. -/
theorem neverStops_iff {b : Backend} {up : BringUp} (hdevice : b.DeviceUp up) :
    NeverStops ρ cfg b up ↔ b.NetworkUp up := by
  rw [← Backend.initializeLink_noError hdevice]
  unfold NeverStops bootedOn
  by_cases hready : b.initializeLink up = .noError
  · rw [decide_eq_true hready]
    refine iff_of_true (fun c hc hstate => ?_) hready
    rcases (oneToken_reach hc).state with hs | hs | hs <;> rw [hstate] at hs <;> cases hs
  · rw [decide_eq_false hready]
    refine iff_of_false (fun h => ?_) hready
    obtain ⟨c, hc, hstate⟩ := hardError_of_linkFailed ρ cfg b.transport
    exact h c hc hstate

end

/-- A device in order, on a network that answers nothing. -/
def unanswered : BringUp where
  deviceIsReady := true
  lorawanStart := 0
  hasInterface := true
  ssidValid := true
  connectRequest := 0
  answered := false
  associated := false
  hasAddress _ := false
  staticAccepted := true

/-- A wire with a static address needs nothing from the network. -/
theorem neverStops_iff_wired : NeverStops Reading (.ofDevices 1) (.tcp false 242) unanswered := by
  have hdevice : (Backend.tcp false 242).DeviceUp unanswered := ⟨rfl, fun _ => rfl⟩
  exact (neverStops_iff Reading (.ofDevices 1) hdevice).2 fun h => nomatch h

/-- An access point that does not answer at boot stops the device. -/
theorem neverStops_fails : (Backend.wifi true 242).DeviceUp unanswered ∧
    ¬ NeverStops Reading (.ofDevices 1) (.wifi true 242) unanswered := by
  refine ⟨⟨rfl, rfl, rfl, fun h => nomatch h⟩, fun h => ?_⟩
  obtain ⟨c, hc, hstate⟩ :=
    hardError_of_linkFailed Reading (.ofDevices 1) (Backend.wifi true 242).transport
  exact h c hc hstate

end Concentrator.System
