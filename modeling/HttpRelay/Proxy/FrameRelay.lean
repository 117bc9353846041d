import HttpRelay.Proxy.Error
import HttpRelay.Proxy.Record
import HttpRelay.WebSocket.Endpoint

/-!
# Relaying Frames

Between an upgraded client and an upgraded server the relay is an endpoint to both: frames are
checked as the one end must, and sent on as the other end sends them. Fragments are forwarded as
they arrive. Each direction ends with the close frame it forwards; the whole ends when both have
ended, when either fails, or when the second takes too long.
-/

namespace HttpRelay.Proxy

open WebSocket (Endpoint Frame Opcode)

/-- Milliseconds that the second direction has, once the first has ended. -/
def closeTimeout : Nat := 5000

/-- How far forwarding one frame came. -/
inductive Forwarding where
  /-- There is no whole frame yet. -/
  | starved
  /-- A frame was forwarded. -/
  | forwarded (frame : Frame)
  /-- A close frame was forwarded. -/
  | closed (frame : Frame)
  /-- Reading failed. -/
  | unreadable (error : WebSocket.Error)
  /-- A frame was read and could not be forwarded. -/
  | undelivered (frame : Frame) (error : WebSocket.Error)
  deriving DecidableEq, Repr

namespace Forwarding

/-- The frame that was read. -/
def frame? : Forwarding → Option Frame
  | forwarded frame | closed frame | undelivered frame _ => some frame
  | starved | unreadable _ => none

end Forwarding

/-- Tell a peer that the relay is going away. -/
def abandon (target : Endpoint) : Endpoint :=
  if target.state.canSend then (target.run (Endpoint.sendClose .goingAway "")).2 else target

/-- Forward one frame. A violation is reported to the peer that committed it, and a failure to
deliver to the peer whose frame it was. -/
def forwardFrame (source target : Endpoint) : Forwarding × Endpoint × Endpoint :=
  match source.run Endpoint.readFrame with
  | (.error .starved, _) => (.starved, source, target)
  | (.error (.failed error), source) =>
    (.unreadable error, (Endpoint.failWith error source).2, abandon target)
  | (.ok frame, source) =>
    let { header, payload } := frame
    match target.run (Endpoint.writeFrame header.opcode header.fin payload) with
    | (.error .starved, target) => (.starved, source, target)
    | (.error (.failed error), target) =>
      let gone := WebSocket.Error.violation .goingAway "peer unavailable"
      (.undelivered frame error, (Endpoint.failWith gone source).2, target)
    | (.ok (), target) =>
      (if header.opcode = .close then .closed frame else .forwarded frame, source, target)

/-- A relay of frames under way. -/
structure FrameRelay where
  /-- The end that faces the client. -/
  client : Endpoint
  /-- The end that faces the server. -/
  server : Endpoint
  /-- The direction to the server has forwarded its close frame. -/
  toServerEnded : Bool := false
  /-- The direction to the client has forwarded its close frame. -/
  toClientEnded : Bool := false
  /-- How the relay ended. -/
  outcome : Option (Except Error Unit) := none
  /-- The frames read, in the order they were read. -/
  record : List Item := []

namespace FrameRelay

/-- A relay between two connections that were just upgraded. The frames for the server are masked
with the keys drawn. -/
def start (client server : Feed) (limit : Nat)
    (drawKey : Nat → WebSocket.MaskKey := fun _ => .zero) : FrameRelay where
  client := { role := .server, incoming := client, limit }
  server := { role := .client, incoming := server, limit, drawKey }

/-- Whether a direction has ended. -/
def hasEnded (r : FrameRelay) : Direction → Bool
  | .toServer => r.toServerEnded
  | .toClient => r.toClientEnded

/-- Whether one direction has ended and the other is awaited. -/
def isClosing (r : FrameRelay) : Bool :=
  r.outcome.isNone && (r.toServerEnded || r.toClientEnded)

/-- How a frame is recorded. -/
def item (direction : Direction) (frame : Frame) : Item where
  direction
  kind := match frame.header.opcode with
    | .text => .webSocketText
    | .binary | .continuation => .webSocketBinary
    | _ => .webSocketControl
  payload := frame.payload

/-- End the relay in good order: both sending halves are shut down. -/
def finish (r : FrameRelay) : FrameRelay :=
  { r with
    client := (Endpoint.shutdown r.client).2
    server := (Endpoint.shutdown r.server).2
    outcome := some (.ok ()) }

/-- Mark a direction as ended, and end the relay if the other one has ended as well. -/
def ended (r : FrameRelay) (direction : Direction) : FrameRelay :=
  let r := match direction with
    | .toServer => { r with toServerEnded := true }
    | .toClient => { r with toClientEnded := true }
  if r.toServerEnded && r.toClientEnded then r.finish else r

/-- Forward one frame in a direction. The result tells whether anything happened. -/
def step (r : FrameRelay) (direction : Direction) : Bool × FrameRelay :=
  if r.outcome.isSome || r.hasEnded direction then (false, r)
  else
    let (forwarding, r') := match direction with
      | .toServer =>
        let (forwarding, client, server) := forwardFrame r.client r.server
        (forwarding, { r with client, server })
      | .toClient =>
        let (forwarding, server, client) := forwardFrame r.server r.client
        (forwarding, { r with client, server })
    let r' := { r' with record := r'.record ++ (forwarding.frame?.map (item direction)).toList }
    match forwarding with
    | .starved => (false, r)
    | .forwarded _ => (true, r')
    | .closed _ => (true, r'.ended direction)
    | .unreadable error | .undelivered _ error =>
      (true, { r' with outcome := some (.error (.webSocket error)) })

/-- Forward at most `frames` frames in a direction. -/
def pumpWithin (r : FrameRelay) (direction : Direction) : (frames : Nat) → FrameRelay
  | 0 => r
  | frames + 1 =>
    match r.step direction with
    | (true, r) => pumpWithin r direction frames
    | (false, r) => r

/-- Forward in both directions whatever has arrived. A frame takes at least two bytes, and the
end of input one more step. -/
def pump (r : FrameRelay) : FrameRelay :=
  let r := r.pumpWithin .toServer (r.client.incoming.arrived.length + 1)
  r.pumpWithin .toClient (r.server.incoming.arrived.length + 1)

/-- The time of the second direction is up. -/
def expire (r : FrameRelay) : FrameRelay := if r.isClosing then r.finish else r

end FrameRelay

end HttpRelay.Proxy
