import HttpRelay.Tls.Extension
import HttpRelay.Tls.Record
import HttpRelay.Transport.Replay

/-!
# Client Hello

The first message of a TLS handshake, as far as it matters before the handshake is taken up. A
hello is accepted only if every length in it fills exactly what it should fill.
-/

namespace HttpRelay.Tls

/-- What a client offers. Its random, cipher suites and compression methods are passed over. -/
structure ClientHello where
  /-- The version field, which is not yet the version agreed on. -/
  version : Version
  sessionId : Bytes
  /-- Extensions in wire order. -/
  extensions : List Extension
  deriving DecidableEq, Repr

namespace ClientHello

/-- Number of octets in front of a handshake message. -/
def handshakeHeaderSize : Nat := 4

/-- Number of random octets. -/
def randomSize : Nat := 32

/-- Most octets of a session identifier. -/
def maxSessionId : Nat := 32

/-- The protocol name of certificate validation handshakes. -/
def acmeProtocol : String := "acme-tls/1"

/-- Read the extensions. A hello may end before them. -/
def extensionBlock : Read (List Extension) := do
  if ← Cursor.atEnd then return []
  let block ← Read.lift (Cursor.vector 2)
  let left ← Cursor.left
  if left ≠ 0 then throw (.lengthMismatch block.length (block.length + left))
  Read.ofExcept ((Cursor.ofBytes block).run (Cursor.many Extension.read)).1

/-- Read the body of a hello. -/
def body : Read ClientHello := do
  let version := Version.ofNat (← Read.lift (Cursor.be 2))
  Read.lift (Cursor.skip randomSize)
  let sessionId ← Read.lift (Cursor.vector 1)
  if maxSessionId < sessionId.length then
    throw (.lengthMismatch sessionId.length maxSessionId)
  let _cipherSuites ← Read.lift (Cursor.vector 2)
  let _compressionMethods ← Read.lift (Cursor.vector 1)
  let extensions ← extensionBlock
  return { version, sessionId, extensions }

/-- Read a handshake message that must fill the rest of the input. -/
def message : Read ClientHello := do
  let messageType := HandshakeType.ofCode (← Read.lift Cursor.octet)
  if messageType ≠ .clientHello then throw (.unsupported messageType)
  let declared ← Read.lift (Cursor.be 3)
  let actual ← Cursor.left
  if declared ≠ actual then throw (.lengthMismatch declared actual)
  body

/-- The hello that a handshake fragment holds. -/
def ofFragment (fragment : Bytes) : Except SniffError ClientHello :=
  ((Cursor.ofBytes fragment).run message).1

/-- Read a record that must fill the rest of the input. The result is its fragment. -/
def recordFragment : Read Bytes := do
  let header ← RecordHeader.read
  let fragment ← Read.lift (Cursor.bytes header.length)
  let left ← Cursor.left
  if left ≠ 0 then throw (.lengthMismatch header.length (header.length + left))
  if fragment.length < handshakeHeaderSize then
    throw (.lengthMismatch handshakeHeaderSize fragment.length)
  return fragment

/-- The hello that one whole record holds. -/
def ofRecord (record : Bytes) : Except SniffError ClientHello := do
  ofFragment (← ((Cursor.ofBytes record).run recordFragment).1)

/-- Take one record off a connection. The result is the hello in it and all bytes taken. -/
def sniff : Feed.Read SniffError (ClientHello × Bytes) := do
  let start ← Feed.orFail (Feed.readExact RecordHeader.size) .io
  match ((Cursor.ofBytes start).run RecordHeader.read).1 with
  | .error error => Feed.fail error
  | .ok header =>
    let fragment ← Feed.orFail (Feed.readExact header.length) .io
    match ofRecord (start ++ fragment) with
    | .error error => Feed.fail error
    | .ok hello => return (hello, start ++ fragment)

/-- Every host name offered. -/
def serverNames (hello : ClientHello) : List String :=
  hello.extensions.flatMap fun
    | .serverName names => names
    | _ => []

/-- The host name that counts: the first. -/
def serverName? (hello : ClientHello) : Option String := hello.serverNames.head?

/-- Every protocol name offered. -/
def protocols (hello : ClientHello) : List String :=
  hello.extensions.flatMap fun
    | .alpn protocols => protocols
    | _ => []

/-- Whether the client validates a certificate order. -/
def isAcme (hello : ClientHello) : Bool := hello.protocols.contains acmeProtocol

end ClientHello

end HttpRelay.Tls
