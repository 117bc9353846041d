import HttpRelay.Transport.Feed
import HttpRelay.WebSocket.Close
import HttpRelay.WebSocket.Mask

/-!
# Frames

The framing of RFC 6455, section 5.2. `Header.encode` writes a header in its shortest form;
`Header.decode` reads one as an endpoint of a given role must, and refuses what no peer in the
other role may send.
-/

namespace HttpRelay.WebSocket

/-- What a frame carries. -/
inductive Opcode where
  | continuation
  | text
  | binary
  | close
  | ping
  | pong
  deriving DecidableEq, Repr

namespace Opcode

/-- The number of an opcode. -/
def toNat : Opcode → Nat
  | continuation => 0x0
  | text => 0x1
  | binary => 0x2
  | close => 0x8
  | ping => 0x9
  | pong => 0xA

/-- Every opcode. -/
def all : List Opcode := [continuation, text, binary, close, ping, pong]

/-- The opcode with a number. -/
def ofNat? (n : Nat) : Option Opcode :=
  match n with
  | 0x0 => some continuation
  | 0x1 => some text
  | 0x2 => some binary
  | 0x8 => some close
  | 0x9 => some ping
  | 0xA => some pong
  | _ => none

/-- Whether frames of an opcode control the connection, as opposed to carrying data. -/
def isControl : Opcode → Bool
  | close | ping | pong => true
  | _ => false

/-- The name of an opcode. -/
def name : Opcode → String
  | continuation => "continuation"
  | text => "text"
  | binary => "binary"
  | close => "close"
  | ping => "ping"
  | pong => "pong"

end Opcode

/-- The header of a frame. -/
structure Header where
  /-- The last frame of its message. -/
  fin : Bool
  opcode : Opcode
  /-- The key that masks the payload, if it is masked. -/
  mask : Option MaskKey
  /-- Number of payload bytes. -/
  length : Nat
  deriving DecidableEq, Repr

namespace Header

/-- The header of a message whose first frame had the header `first`. Only the length is new. -/
def ofFragments (first : Header) (length : Nat) : Except Error Header :=
  if first.opcode = .continuation then
    .error (.peer "a message cannot start with a continuation frame")
  else .ok { first with length }

/-- The seven-bit length and the octets of the extended length behind it. -/
def lengthField (length : Nat) : Nat × Bytes :=
  if length ≤ 125 then (length, [])
  else if length < 65536 then (126, Word.be 2 length)
  else (127, Word.be 8 length)

/-- The octets of a header, in its shortest form. -/
def encode (h : Header) : Bytes :=
  let (short, extended) := lengthField h.length
  let first := (if h.fin then 128 else 0) + h.opcode.toNat
  let second := (if h.mask.isSome then 128 else 0) + short
  UInt8.ofNat first :: UInt8.ofNat second :: extended
    ++ (h.mask.map MaskKey.toBytes).getD []

/-- Number of octets of a header. -/
def encodedLength (h : Header) : Nat :=
  2 + (if h.length ≤ 125 then 0 else if h.length < 65536 then 2 else 8)
    + (if h.mask.isSome then 4 else 0)

/-- A read off a connection. -/
abbrev Read (α : Type) := Feed.Read Error α

/-- Read `n` bytes. -/
def bytes (n : Nat) : Read Bytes := Feed.orFail (Feed.readExact n) Error.io

/-- Read the length that a seven-bit length announces. -/
def decodeLength (short : Nat) : Read Nat := do
  match short with
  | 126 => return Word.ofBe (← bytes 2)
  | 127 =>
    let length := Word.ofBe (← bytes 8)
    if UInt64.size / 2 ≤ length then
      Feed.fail (.peer "payload length has the most significant bit set")
    else return length
  | short => return short

/-- Frames from clients are masked, frames from servers are not. -/
def checkMask (role : Role) (masked : Bool) : Read Unit :=
  match role, masked with
  | .server, false => Feed.fail (.peer "client frames must be masked")
  | .client, true => Feed.fail (.peer "server frames must not be masked")
  | _, _ => pure ()

/-- Control frames stand alone and are short. -/
def checkControl (opcode : Opcode) (fin : Bool) (length : Nat) : Read Unit :=
  if opcode.isControl then
    if !fin then Feed.fail (.peer "control frames must not be fragmented")
    else if Close.maxControlPayload < length then
      Feed.fail (.peer "control frame payload exceeds 125 bytes")
    else pure ()
  else pure ()

/-- Read the header of a frame sent to an endpoint in `role`. -/
def decode (role : Role) : Read Header := do
  let start ← bytes 2
  let first := (start.getD 0 0).toNat
  let second := (start.getD 1 0).toNat
  if first / 16 % 8 ≠ 0 then
    Feed.fail (.peer "reserved bits set without a negotiated extension")
  let fin := 128 ≤ first
  let some opcode := Opcode.ofNat? (first % 16) | Feed.fail (.peer "unknown opcode")
  let masked := 128 ≤ second
  let length ← decodeLength (second % 128)
  checkMask role masked
  checkControl opcode fin length
  let mask ← if masked then pure (MaskKey.ofBytes? (← bytes 4)) else pure none
  return { fin, opcode, mask, length }

end Header

/-- A frame, its payload unmasked. -/
structure Frame where
  header : Header
  payload : Bytes
  deriving DecidableEq, Repr

namespace Frame

/-- The frame that an endpoint in `role` sends. Only clients mask, with the key given. -/
def outgoing (role : Role) (key : MaskKey) (opcode : Opcode) (fin : Bool) (payload : Bytes) :
    Frame where
  header :=
    { fin, opcode
      mask := match role with
        | .client => some key
        | .server => none
      length := payload.length }
  payload

/-- The octets of a frame. -/
def encode (frame : Frame) : Bytes :=
  frame.header.encode ++ applyMask frame.header.mask frame.payload

/-- Read a frame sent to an endpoint in `role`, of at most `limit` payload bytes. An oversized
frame is refused before its payload is read, and the payload of a close frame is checked. -/
def decode (role : Role) (limit : Nat) : Header.Read Frame := do
  let header ← Header.decode role
  if limit < header.length then
    Feed.fail (.violation .messageTooBig s!"frame of {header.length} bytes exceeds limit")
  let payload := applyMask header.mask (← Header.bytes header.length)
  if header.opcode = .close then
    if let .error error := Close.ofPayload payload then Feed.fail error
  return { header, payload }

end Frame

end HttpRelay.WebSocket
