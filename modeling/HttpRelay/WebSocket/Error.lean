import HttpRelay.Transport.IoFailure
import HttpRelay.WebSocket.CloseCode
import HttpRelay.WebSocket.State

/-!
# WebSocket Errors

Every violation of the protocol carries the close code that tells the peer about it.
-/

namespace HttpRelay.WebSocket

/-- Why an operation on a connection failed. -/
inductive Error where
  /-- The transport failed. -/
  | io (failure : IoFailure)
  /-- The peer, or the caller, broke the protocol. -/
  | violation (code : CloseCode) (reason : String)
  /-- The operation is not allowed in the state the connection is in. -/
  | notPermitted (state : State)
  deriving DecidableEq, Repr

namespace Error

/-- The text shown for an error. -/
def message : Error → String
  | io failure => "WebSocket I/O error: " ++ failure.name
  | violation code reason => reason ++ " (close code " ++ code.display ++ ")"
  | notPermitted state => "operation not permitted in state " ++ state.name

/-- The close code that describes an error. -/
def closeCode : Error → CloseCode
  | io _ => .connectionLost
  | violation code _ => code
  | notPermitted _ => .internalError

/-- Whether the peer just went away, as opposed to a genuine fault. -/
def isDisconnect : Error → Bool
  | io failure => failure.isDisconnect
  | _ => false

/-- A violation by the peer. -/
def peer (reason : String) : Error := violation .protocolError reason

end Error

end HttpRelay.WebSocket
