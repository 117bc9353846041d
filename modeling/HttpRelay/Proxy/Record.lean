import HttpRelay.Text.Utf8

/-!
# Recorded Traffic

What the relay carries can be recorded, item by item, and shown with its payload cut to a given
length.
-/

namespace HttpRelay.Proxy

/-- Which way a payload travels. -/
inductive Direction where
  /-- From the client to the server. -/
  | toServer
  /-- From the server to the client. -/
  | toClient
  deriving DecidableEq, Repr

/-- The name of a direction. -/
def Direction.name : Direction → String
  | toServer => "to_server"
  | toClient => "to_client"

/-- What a payload is. -/
inductive PayloadKind where
  | head
  | body
  | webSocketText
  | webSocketBinary
  | webSocketControl
  deriving DecidableEq, Repr

/-- Every kind of payload. -/
def PayloadKind.all : List PayloadKind :=
  [head, body, webSocketText, webSocketBinary, webSocketControl]

/-- The name of a kind of payload. -/
def PayloadKind.name : PayloadKind → String
  | head => "Head"
  | body => "Body"
  | webSocketText => "WebSocketText"
  | webSocketBinary => "WebSocketBinary"
  | webSocketControl => "WebSocketControl"

/-- One recorded payload. -/
structure Item where
  direction : Direction
  kind : PayloadKind
  payload : Bytes
  deriving DecidableEq, Repr

namespace Item

/-- The payload as a text. -/
def text (item : Item) : String := Text.Utf8.decodeLossy item.payload

/-- The payload as it is logged, cut to `limit` bytes. -/
def shown (item : Item) (limit : Nat) : String := Text.Utf8.decodeLossy (item.payload.take limit)

end Item

/-- The recorder of one session. Items are kept only while an observer is there, with the
longest payload that the observer shows. -/
structure Recorder where
  session : String
  observer : Option Nat := none

/-- Whether items are kept. -/
def Recorder.isEnabled (r : Recorder) : Bool := r.observer.isSome

/-- The recorder itself as a text. -/
def Recorder.display (r : Recorder) : String :=
  "Recorder \x7b session: " ++ r.session ++ ", enabled: " ++ toString r.isEnabled ++ " \x7d"

end HttpRelay.Proxy
