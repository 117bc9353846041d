import HttpRelay.Proxy.FrameRelay

/-!
# Relaying Frames on a Virtual Clock

A script plays both far ends of a frame relay, on a clock that moves only when the script says
so.
-/

namespace HttpRelay.Simulation.FrameRelayScript

open HttpRelay.Proxy
open WebSocket (PeerAct)

/-- A step of a script. -/
inductive Step where
  | client (act : PeerAct)
  | server (act : PeerAct)
  | advance (ms : Nat)

/-- A relay and its clock. -/
structure Stage where
  relay : FrameRelay
  clock : Nat := 0
  /-- When the time of the second direction is up. -/
  deadline : Option Nat := none

/-- Forward whatever has arrived, and note when the closing began. -/
def settle (stage : Stage) : Stage :=
  let relay := stage.relay.pump
  let deadline :=
    if relay.isClosing then stage.deadline.or (some (stage.clock + closeTimeout)) else none
  { stage with relay, deadline }

/-- Take a step. -/
def step (stage : Stage) : Step → Stage
  | .client act => settle { stage with relay.client := act.on stage.relay.client }
  | .server act => settle { stage with relay.server := act.on stage.relay.server }
  | .advance ms =>
    let clock := stage.clock + ms
    match stage.deadline with
    | some deadline =>
      if deadline ≤ clock then
        settle { stage with clock, deadline := none, relay := stage.relay.expire }
      else { stage with clock }
    | none => { stage with clock }

end HttpRelay.Simulation.FrameRelayScript
