import HttpRelay.Proofs.Proxy.PumpRelay
import HttpRelay.Simulation.FrameRelayScript

/-!
# Scripts of frame relays

A script takes a frame relay nowhere but where its peers and its clock can take it, and so what
holds of every relay that is reached holds behind every script.

* `settled_reached`, `step_reached`: what is done in a step;
* `reached_foldl`, `reached_script`: a whole script.
-/

namespace HttpRelay.Simulation.FrameRelayScript

open HttpRelay.Proxy

variable {limit : Nat} {drawKey : Nat → WebSocket.MaskKey} {stage : Stage}

/-- A relay that its peers and its clock can take to where it is. -/
def Reaches (limit : Nat) (drawKey : Nat → WebSocket.MaskKey) (stage : Stage) : Prop :=
  ∃ streams, FrameRelay.Reached limit drawKey streams stage.relay

theorem settled_reached (h : Reaches limit drawKey stage) :
    Reaches limit drawKey (settle stage) := by
  obtain ⟨streams, hreached⟩ := h
  exact ⟨streams, hreached.pump⟩

theorem step_reached (h : Reaches limit drawKey stage) (action : Step) :
    Reaches limit drawKey (step stage action) := by
  obtain ⟨streams, hreached⟩ := h
  cases action with
  | client act => exact settled_reached ⟨_, hreached.act .server act⟩
  | server act => exact settled_reached ⟨_, hreached.act .client act⟩
  | advance ms =>
    rw [step]
    split
    · split
      · exact settled_reached ⟨streams, hreached.expire⟩
      · exact ⟨streams, hreached⟩
    · exact ⟨streams, hreached⟩

/-- A script takes a relay nowhere else. -/
theorem reached_foldl (script : List Step) (h : Reaches limit drawKey stage) :
    Reaches limit drawKey (script.foldl step stage) := by
  induction script generalizing stage with
  | nil => exact h
  | cons action script ih => exact ih (step_reached h action)

/-- Whatever a script does with a relay that has just begun. -/
theorem reached_script (limit : Nat) (drawKey : Nat → WebSocket.MaskKey) (script : List Step) :
    Reaches limit drawKey
      (script.foldl step { relay := FrameRelay.start {} {} limit drawKey }) :=
  reached_foldl script ⟨_, .start⟩

end HttpRelay.Simulation.FrameRelayScript
