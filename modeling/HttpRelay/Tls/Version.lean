import HttpRelay.Bytes.Word

/-!
# Code Points of TLS

Protocol versions, content types, handshake types and extension types, with the numbers they
have on the wire. Numbers without a name are kept.
-/

namespace HttpRelay.Tls

/-- A protocol version. -/
structure Version where
  major : Nat
  minor : Nat
  deriving DecidableEq, Repr

namespace Version

/-- The version that a 16-bit number spells. -/
def ofNat (n : Nat) : Version := ⟨n / 256 % 256, n % 256⟩

/-- The name of a version. -/
def display (v : Version) : String :=
  if v.major = 3 then
    if v.minor = 0 then "SSL 3.0" else s!"TLS 1.{v.minor - 1}"
  else s!"unknown {v.major}.{v.minor}"

end Version

/-- What a record carries. -/
inductive ContentType where
  | changeCipherSpec
  | alert
  | handshake
  | applicationData
  | unknown (code : UInt8)
  deriving DecidableEq, Repr

namespace ContentType

/-- The content type with a number. -/
def ofCode (code : UInt8) : ContentType :=
  match code.toNat with
  | 20 => changeCipherSpec
  | 21 => alert
  | 22 => handshake
  | 23 => applicationData
  | _ => unknown code

/-- The number of a content type. -/
def toCode : ContentType → UInt8
  | changeCipherSpec => 20
  | alert => 21
  | handshake => 22
  | applicationData => 23
  | unknown code => code

/-- The name of a content type. -/
def name : ContentType → String
  | changeCipherSpec => "ChangeCipherSpec"
  | alert => "Alert"
  | handshake => "Handshake"
  | applicationData => "ApplicationData"
  | unknown code => "Unknown(" ++ toString code.toNat ++ ")"

end ContentType

/-- What a handshake message is. -/
inductive HandshakeType where
  | helloRequest
  | clientHello
  | serverHello
  | certificate
  | serverKeyExchange
  | certificateRequest
  | serverHelloDone
  | certificateVerify
  | clientKeyExchange
  | finished
  | unknown (code : UInt8)
  deriving DecidableEq, Repr

namespace HandshakeType

/-- The handshake type with a number. -/
def ofCode (code : UInt8) : HandshakeType :=
  match code.toNat with
  | 0 => helloRequest
  | 1 => clientHello
  | 2 => serverHello
  | 11 => certificate
  | 12 => serverKeyExchange
  | 13 => certificateRequest
  | 14 => serverHelloDone
  | 15 => certificateVerify
  | 16 => clientKeyExchange
  | 20 => finished
  | _ => unknown code

/-- The name of a handshake type. -/
def name : HandshakeType → String
  | helloRequest => "HelloRequest"
  | clientHello => "ClientHello"
  | serverHello => "ServerHello"
  | certificate => "Certificate"
  | serverKeyExchange => "ServerKeyExchange"
  | certificateRequest => "CertificateRequest"
  | serverHelloDone => "ServerHelloDone"
  | certificateVerify => "CertificateVerify"
  | clientKeyExchange => "ClientKeyExchange"
  | finished => "Finished"
  | unknown code => "Unknown(" ++ toString code.toNat ++ ")"

end HandshakeType

/-- What an extension is. -/
inductive ExtensionType where
  | serverName
  | alpn
  | other (code : Nat)
  deriving DecidableEq, Repr

namespace ExtensionType

/-- The extension type with a number. -/
def ofCode (code : Nat) : ExtensionType :=
  match code with
  | 0 => serverName
  | 16 => alpn
  | code => other code

/-- The number of an extension type. -/
def toCode : ExtensionType → Nat
  | serverName => 0
  | alpn => 16
  | other code => code

/-- The name of an extension type. -/
def name : ExtensionType → String
  | serverName => "ServerName"
  | alpn => "Alpn"
  | other code => "Other(" ++ toString code ++ ")"

end ExtensionType

end HttpRelay.Tls
