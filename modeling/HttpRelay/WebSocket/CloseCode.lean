import HttpRelay.Bytes.Word
import HttpRelay.Text.Utf8

/-!
# Close Codes

The status codes of close frames (RFC 6455, section 7.4). Some codes only describe how a
connection ended and never appear on the wire.
-/

namespace HttpRelay.WebSocket

/-- Why a connection is closed. -/
inductive CloseCode where
  | normal
  | goingAway
  | protocolError
  | unacceptableData
  /-- No code was present. -/
  | none
  /-- The connection dropped without a close frame. -/
  | connectionLost
  | dataFormat
  | policyViolation
  | messageTooBig
  | missingExtension
  | internalError
  /-- The TLS handshake failed. -/
  | tlsHandshakeFailed
  /-- Any other code. -/
  | other (code : UInt16)
  deriving DecidableEq, Repr

namespace CloseCode

/-- The number of a code. -/
def toCode : CloseCode → UInt16
  | normal => 1000
  | goingAway => 1001
  | protocolError => 1002
  | unacceptableData => 1003
  | none => 1005
  | connectionLost => 1006
  | dataFormat => 1007
  | policyViolation => 1008
  | messageTooBig => 1009
  | missingExtension => 1010
  | internalError => 1011
  | tlsHandshakeFailed => 1015
  | other code => code

/-- The code with a number. -/
def ofCode (code : UInt16) : CloseCode :=
  match code.toNat with
  | 1000 => normal
  | 1001 => goingAway
  | 1002 => protocolError
  | 1003 => unacceptableData
  | 1005 => none
  | 1006 => connectionLost
  | 1007 => dataFormat
  | 1008 => policyViolation
  | 1009 => messageTooBig
  | 1010 => missingExtension
  | 1011 => internalError
  | 1015 => tlsHandshakeFailed
  | _ => other code

/-- Whether a code may appear in a close frame. Of the codes without a name, those in use are
1012 to 1014 and the ranges for libraries and applications. -/
def isSendable : CloseCode → Bool
  | none | connectionLost | tlsHandshakeFailed => false
  | other code =>
    (1012 ≤ code.toNat && code.toNat ≤ 1014) || (3000 ≤ code.toNat && code.toNat ≤ 4999)
  | _ => true

/-- What a code means, in words. -/
def description : CloseCode → String
  | normal => "The connection was closed normally."
  | goingAway => "The endpoint is going away."
  | protocolError => "A protocol error occurred."
  | unacceptableData => "The endpoint received a data type it cannot accept."
  | none => "No reason was specified."
  | connectionLost => "The connection was lost without a close frame."
  | dataFormat => "The message data was inconsistent with its type."
  | policyViolation => "The message violated the endpoint's policy."
  | messageTooBig => "The message is too big to process."
  | missingExtension => "The server did not negotiate a required extension."
  | internalError => "The endpoint encountered an unexpected condition."
  | tlsHandshakeFailed => "The TLS handshake failed."
  | other _ => "Application-defined close code."

/-- The name of a code. -/
def name : CloseCode → String
  | normal => "Normal"
  | goingAway => "GoingAway"
  | protocolError => "ProtocolError"
  | unacceptableData => "UnacceptableData"
  | none => "None"
  | connectionLost => "ConnectionLost"
  | dataFormat => "DataFormat"
  | policyViolation => "PolicyViolation"
  | messageTooBig => "MessageTooBig"
  | missingExtension => "MissingExtension"
  | internalError => "InternalError"
  | tlsHandshakeFailed => "TlsHandshakeFailed"
  | other code => "Other(" ++ toString code.toNat ++ ")"

/-- The number of a code, in decimal. -/
def display (code : CloseCode) : String := toString code.toCode.toNat

end CloseCode

end HttpRelay.WebSocket
