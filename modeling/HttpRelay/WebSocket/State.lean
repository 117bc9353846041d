/-!
# Connection States

A connection opens, and closes once a close frame went each way:

`connecting → open → closeSent or closeReceived → closed`

Any failure leads to `errored`. Both halves of a connection share one state.
-/

namespace HttpRelay.WebSocket

/-- Which end of a connection an endpoint plays. -/
inductive Role where
  /-- Sends masked frames and expects unmasked ones. -/
  | client
  /-- Sends unmasked frames and expects masked ones. -/
  | server
  deriving DecidableEq, Repr

/-- How far a connection has come. -/
inductive State where
  | connecting
  | open
  /-- This end sent a close frame and awaits the peer's. -/
  | closeSent
  /-- The peer sent a close frame first. -/
  | closeReceived
  | closed
  | errored
  deriving DecidableEq, Repr

namespace State

/-- The state behind a close frame sent, if one may be sent. -/
def afterCloseSent : State → Option State
  | .open => some closeSent
  | closeReceived => some closed
  | _ => none

/-- The state behind a close frame received, if one may be received. -/
def afterCloseReceived : State → Option State
  | .open => some closeReceived
  | closeSent => some closed
  | _ => none

/-- The state behind a completed opening handshake, if there was one under way. -/
def afterOpening : State → Option State
  | connecting => some .open
  | _ => none

/-- Whether frames may still arrive. -/
def canReceive : State → Bool
  | .open | closeSent => true
  | _ => false

/-- Whether frames may still be sent. -/
def canSend : State → Bool
  | .open | closeReceived => true
  | _ => false

/-- Whether the connection is over. -/
def isTerminal : State → Bool
  | closed | errored => true
  | _ => false

/-- The name of a state. -/
def name : State → String
  | connecting => "Connecting"
  | .open => "Open"
  | closeSent => "CloseSent"
  | closeReceived => "CloseReceived"
  | closed => "Closed"
  | errored => "Errored"

/-- Every state. -/
def all : List State := [connecting, .open, closeSent, closeReceived, closed, errored]

end State

end HttpRelay.WebSocket
