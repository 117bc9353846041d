import HttpRelay.Proofs.WebSocket.AtomicSteps
import HttpRelay.Proofs.WebSocket.MessageCodec
import HttpRelay.Proxy.FrameRelay

/-!
# Two pumps between two peers

The relay of frames as two pumps that act independently: each reads frames off one connection and
writes them to the other one. They share both endpoints, and the sending half of an endpoint is
taken by the pump that writes to it. A pump may be overtaken by the other one whenever it waits, for
bytes, for a sending half or for the wire. A pump goes by the role of the endpoint that it reads.

* `Stage`: where a pump can be overtaken;
* `Wing.advance`: what a pump does until it may be overtaken again;
* `Pumps.step`, `Pumps.run`: what can happen, and any sequence of it.
-/

namespace HttpRelay.Proxy

open WebSocket

/-- Why a pump gives up. -/
structure Failure where
  /-- What the peer is told whose frame could not be read or forwarded. -/
  report : WebSocket.Error
  /-- What the relay ends with. -/
  cause : WebSocket.Error
  /-- The other peer is told as well that the relay is going away. -/
  abandons : Bool

namespace Failure

/-- No frame could be read. -/
def unreadable (error : WebSocket.Error) : Failure := ⟨error, error, true⟩

/-- A frame could not be forwarded. -/
def undelivered (error : WebSocket.Error) : Failure :=
  ⟨.violation .goingAway "peer unavailable", error, false⟩

end Failure

/-- What a pump is about to do. -/
inductive Stage where
  /-- Begin to read the next frame. -/
  | resting
  /-- Read the frame, once it arrived. -/
  | reading
  /-- Forward a frame, once the sending half is free. -/
  | holding (frame : Frame)
  /-- Put a frame on the wire. The sending half is taken. -/
  | writing (out : Frame)
  /-- Report a failure to the peer that is read, once the sending half is free. -/
  | failing (failure : Failure)
  /-- Put the close on the wire that reports a failure. The sending half is taken. -/
  | reporting (failure : Failure) (out : Frame)
  /-- Tell the peer that is written to about the end, once the sending half is free. -/
  | abandoning (cause : WebSocket.Error)
  /-- Put the close on the wire that tells about the end. The sending half is taken. -/
  | parting (cause : WebSocket.Error) (out : Frame)
  /-- Nothing more. The close was forwarded, or there was a failure. -/
  | ended (failure : Option WebSocket.Error)

namespace Stage

/-- The frame that a pump is putting on the wire to the peer that it writes to. -/
def toTarget : Stage → List Frame
  | writing out | parting _ out => [out]
  | _ => []

/-- The frame that a pump is putting on the wire to the peer that it reads from. -/
def toSource : Stage → List Frame
  | reporting _ out => [out]
  | _ => []

/-- Whether a pump is about to take the sending half towards the peer that it writes to. -/
def needsTarget : Stage → Bool
  | holding _ | abandoning _ => true
  | _ => false

/-- Whether a pump is about to take the sending half towards the peer that it reads from. -/
def needsSource : Stage → Bool
  | failing _ => true
  | _ => false

/-- Whether a pump forwarded its close. -/
def isDone : Stage → Bool
  | ended none => true
  | _ => false

/-- Whether a pump has failed. -/
def isFailed : Stage → Bool
  | failing _ | reporting _ _ | abandoning _ | parting _ _ | ended (some _) => true
  | _ => false

/-- Whether a pump ended with a failure. -/
def isBroken : Stage → Bool
  | ended (some _) => true
  | _ => false

end Stage

/-- What a pump does when the failure was reported. -/
def Failure.next (failure : Failure) : Stage :=
  if failure.abandons then .abandoning failure.cause else .ended (some failure.cause)

/-- The endpoint that faces one peer, and the pump that reads it. -/
structure Wing where
  endpoint : Endpoint
  stage : Stage := .resting
  /-- The bytes that the peer sends and that did not arrive yet. -/
  flight : Bytes := []
  /-- The frames read so far. -/
  received : List Frame := []

namespace Wing

/-- What a pump does next, when no sending half that it needs is taken: the wing behind it, and the
endpoint that it writes to. -/
def advance (w : Wing) (target : Endpoint) : Wing × Endpoint :=
  match w.stage with
  | .resting =>
    match w.endpoint.run Endpoint.beginRead with
    | (.ok (), endpoint) => ({ w with endpoint, stage := .reading }, target)
    | (.error (.failed error), endpoint) =>
      ({ w with endpoint, stage := .failing (.unreadable error) }, target)
    | (.error .starved, _) => (w, target)
  | .reading =>
    match w.endpoint.run Endpoint.finishRead with
    | (.ok frame, endpoint) =>
      ({ w with endpoint, stage := .holding frame, received := w.received ++ [frame] }, target)
    | (.error (.failed error), endpoint) =>
      ({ w with endpoint, stage := .failing (.unreadable error) }, target)
    | (.error .starved, _) => (w, target)
  | .holding frame =>
    let { header, payload } := frame
    match target.run (Endpoint.prepare header.opcode header.fin payload) with
    | (.ok out, target) => ({ w with stage := .writing out }, target)
    | (.error (.failed error), target) =>
      ({ w with stage := .failing (.undelivered error) }, target)
    | (.error .starved, _) => (w, target)
  | .writing out =>
    match target.run (Endpoint.put out) with
    | (.ok (), target) =>
      ({ w with stage := if out.header.opcode = .close then .ended none else .resting }, target)
    | (.error (.failed error), target) =>
      ({ w with stage := .failing (.undelivered error) }, target)
    | (.error .starved, _) => (w, target)
  | .failing failure =>
    match (Endpoint.beginFail failure.report).run w.endpoint with
    | (some out, endpoint) => ({ w with endpoint, stage := .reporting failure out }, target)
    | (none, endpoint) => ({ w with endpoint, stage := failure.next }, target)
  | .reporting failure out =>
    ({ w with endpoint := ((Endpoint.endFail out).run w.endpoint).2, stage := failure.next },
      target)
  | .abandoning cause =>
    if target.state.canSend then
      match target.run (Endpoint.prepareClose .goingAway "") with
      | (.ok out, target) => ({ w with stage := .parting cause out }, target)
      | (.error _, target) => ({ w with stage := .ended (some cause) }, target)
    else ({ w with stage := .ended (some cause) }, target)
  | .parting cause out =>
    ({ w with stage := .ended (some cause) }, (target.run (Endpoint.put out)).2)
  | .ended _ => (w, target)

/-- Some of the bytes on their way arrive, unless the input has ended. -/
def arrive (w : Wing) (n : Nat) : Wing :=
  if w.endpoint.incoming.closed then w
  else
    { w with
      endpoint.incoming := w.endpoint.incoming.push (w.flight.take n)
      flight := w.flight.drop n }

/-- The peer ends its input. -/
def finish (w : Wing) : Wing :=
  { w with endpoint.incoming := w.endpoint.incoming.close }

/-- The peer goes away, and receives nothing any more. -/
def leave (w : Wing) : Wing :=
  { w with endpoint.incoming := w.endpoint.incoming.close, endpoint.peerGone := true }

/-- The sending half is shut down. -/
def hangUp (w : Wing) : Wing :=
  { w with endpoint := (Endpoint.shutdown.run w.endpoint).2 }

end Wing

/-- Both wings of a relay. -/
structure Pumps where
  wings : Role → Wing
  /-- The time of the second pump was up. -/
  expired : Bool := false

namespace Pumps

/-- The pumps between two connections that were just upgraded, and what the peers send. -/
def start (streams : Role → Bytes) (limit : Nat) (keys : Role → Nat → MaskKey) : Pumps where
  wings role := { endpoint := { role, limit, drawKey := keys role }, flight := streams role }

/-- Whether both pumps forwarded their closes. -/
def isDone (p : Pumps) : Bool := (p.wings .client).stage.isDone && (p.wings .server).stage.isDone

/-- Whether the pumps do nothing any more. -/
def isOver (p : Pumps) : Bool :=
  p.expired || p.isDone || (p.wings .client).stage.isBroken || (p.wings .server).stage.isBroken

/-- Whether one pump has ended and the other one is awaited. -/
def isClosing (p : Pumps) : Bool :=
  !p.isOver && ((p.wings .client).stage.isDone || (p.wings .server).stage.isDone)

/-- The frame on its way to the peer of an endpoint, by whichever pump took the sending half. -/
def pending (p : Pumps) (role : Role) : List Frame :=
  (p.wings role.peer).stage.toTarget ++ (p.wings role).stage.toSource

/-- Whether a pump needs a sending half that the other pump has taken. -/
def isBlocked (p : Pumps) (role : Role) : Bool :=
  let pump := (p.wings role).stage
  let other := (p.wings role.peer).stage
  pump.needsTarget && !other.toSource.isEmpty || pump.needsSource && !other.toTarget.isEmpty

/-- The same pumps with other wings. -/
def moved (p : Pumps) (role : Role) (w w' : Wing) : Pumps :=
  { p with wings := fun other => if other = role then w else w' }

/-- One wing changes. -/
def altered (p : Pumps) (role : Role) (change : Wing → Wing) : Pumps :=
  p.moved role (change (p.wings role)) (p.wings role.peer)

/-- A pump goes on. What it writes to is in the other wing. -/
def advanced (p : Pumps) (role : Role) : Pumps :=
  let (w, target) := (p.wings role).advance (p.wings role.peer).endpoint
  p.moved role w { p.wings role.peer with endpoint := target }

/-- What can happen. -/
inductive Action where
  /-- A pump goes on. -/
  | advance (role : Role)
  | arrive (role : Role) (n : Nat)
  | finish (role : Role)
  | leave (role : Role)
  /-- The time of the second pump is up. -/
  | expire
  | hangUp (role : Role)
  deriving DecidableEq

/-- One thing happens. -/
def step (p : Pumps) : Action → Pumps
  | .advance role =>
    if p.isOver || p.isBlocked role then p else p.advanced role
  | .arrive role n => p.altered role (·.arrive n)
  | .finish role => p.altered role Wing.finish
  | .leave role => p.altered role Wing.leave
  | .expire => { p with expired := p.expired || p.isClosing }
  | .hangUp role =>
    if (p.expired || p.isDone) && (p.pending role).isEmpty then p.altered role Wing.hangUp else p

/-- Things happen one after the other. -/
def run (p : Pumps) (actions : List Action) : Pumps := actions.foldl step p

theorem run_append (p : Pumps) (actions more : List Action) :
    p.run (actions ++ more) = (p.run actions).run more := List.foldl_append

theorem wings_moved_self (p : Pumps) (role : Role) (w w' : Wing) :
    (p.moved role w w').wings role = w := if_pos rfl

theorem wings_moved_peer (p : Pumps) (role : Role) (w w' : Wing) :
    (p.moved role w w').wings role.peer = w' := if_neg role.peer_ne

theorem moved_wings (p : Pumps) (role : Role) :
    p.moved role (p.wings role) (p.wings role.peer) = p := by
  have hwings : (fun other => if other = role then p.wings role else p.wings role.peer) =
      p.wings := by
    funext other
    split
    next hother => rw [hother]
    next hother => rw [Role.eq_peer_of_ne hother]
  exact congrArg (fun wings => { p with wings }) hwings

theorem advanced_of_advance {p : Pumps} {role : Role} {w : Wing} {target : Endpoint}
    (h : (p.wings role).advance (p.wings role.peer).endpoint = (w, target)) :
    p.advanced role = p.moved role w { p.wings role.peer with endpoint := target } := by
  rw [advanced, h]

theorem wings_advanced_self (p : Pumps) (role : Role) :
    (p.advanced role).wings role = ((p.wings role).advance (p.wings role.peer).endpoint).1 :=
  wings_moved_self _ _ _ _

theorem wings_advanced_peer (p : Pumps) (role : Role) :
    (p.advanced role).wings role.peer = { p.wings role.peer with
      endpoint := ((p.wings role).advance (p.wings role.peer).endpoint).2 } :=
  wings_moved_peer _ _ _ _

theorem step_advance {p : Pumps} {role : Role} (hover : p.isOver = false)
    (hblocked : p.isBlocked role = false) : p.step (.advance role) = p.advanced role := by
  rw [step, hover, hblocked]
  rfl

theorem wings_altered (p : Pumps) (role other : Role) (change : Wing → Wing) :
    (p.altered role change).wings other =
      if other = role then change (p.wings other) else p.wings other := by
  by_cases hother : other = role
  · subst hother
    rw [if_pos rfl]
    exact wings_moved_self _ _ _ _
  · obtain rfl := Role.eq_peer_of_ne hother
    rw [if_neg hother]
    exact wings_moved_peer _ _ _ _

theorem isDone_iff {p : Pumps} :
    p.isDone = true ↔ ∀ role, (p.wings role).stage.isDone = true := by
  rw [isDone, Bool.and_eq_true]
  exact ⟨fun h => Role.forall_of_peer .client h.1 h.2, fun h => ⟨h .client, h .server⟩⟩

/-- Whether the pumps do nothing any more, by either of them. -/
theorem isOver_eq (p : Pumps) (role : Role) :
    p.isOver = (p.expired ||
      (p.wings role).stage.isDone && (p.wings role.peer).stage.isDone ||
      (p.wings role).stage.isBroken || (p.wings role.peer).stage.isBroken) := by
  cases role with
  | client => rfl
  | server =>
    rw [isOver, isDone, Bool.and_comm, Bool.or_assoc, Bool.or_comm (Stage.isBroken _),
      ← Bool.or_assoc]
    rfl

end Pumps

end HttpRelay.Proxy
