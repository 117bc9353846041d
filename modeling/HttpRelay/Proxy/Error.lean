import HttpRelay.Chunked.Basic
import HttpRelay.Http.HeadError
import HttpRelay.WebSocket.Error

/-!
# Session Errors

Why the relay gives up on a connection.
-/

namespace HttpRelay.Proxy

/-- Why a session failed. -/
inductive Error where
  | io (failure : IoFailure)
  | malformedHead (cause : Http.HeadError)
  /-- A head of more than this many bytes. -/
  | headTooLarge (limit : Nat)
  | chunked (cause : Chunked.Error)
  | webSocket (cause : WebSocket.Error)
  /-- The server could not be reached; the failure is that of the last attempt. -/
  | serverUnavailable (attempts : Nat) (failure : IoFailure)
  | timeout (awaited : String)
  /-- The server switched to a protocol that was not asked for. -/
  | unsupportedUpgrade
  /-- The server's accept value does not answer the key it was sent. -/
  | acceptKeyMismatch
  deriving DecidableEq, Repr

namespace Error

/-- The text shown for an error. -/
def message : Error → String
  | io failure => "I/O error: " ++ failure.name
  | malformedHead cause => "malformed message head: " ++ cause.message
  | headTooLarge limit => s!"message head exceeds {limit} bytes"
  | chunked cause => "chunked body error: " ++ cause.message
  | webSocket cause => "WebSocket relay error: " ++ cause.message
  | serverUnavailable attempts failure =>
    s!"upstream unavailable after {attempts} attempts: {failure.name}"
  | timeout awaited => "timed out waiting for " ++ awaited
  | unsupportedUpgrade => "upstream switched to an unsupported protocol"
  | acceptKeyMismatch => "upstream WebSocket accept key does not match"

/-- Whether a peer just went away, as opposed to a genuine fault. -/
def isDisconnect : Error → Bool
  | io failure => failure.isDisconnect
  | chunked (.io failure) => failure.isDisconnect
  | chunked .unexpectedEof => true
  | webSocket cause => cause.isDisconnect
  | _ => false

end Error

end HttpRelay.Proxy
