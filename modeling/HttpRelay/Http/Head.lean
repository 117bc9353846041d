import HttpRelay.Http.Body
import HttpRelay.Http.Syntax
import HttpRelay.WebSocket.Handshake

/-!
# Message Heads

Request and response heads of HTTP/1.x: parsing, writing, and what they say about the body and
the connection.
-/

namespace HttpRelay.Http

/-- Whether a connection stays open behind a message of a minor version with some fields. -/
def keepsAlive (version : Nat) (headers : Headers) : Bool :=
  if headers.hasToken "connection" "close" then false
  else 1 ≤ version || headers.hasToken "connection" "keep-alive"

/-- Whether the fields ask for, or grant, a WebSocket. -/
def Headers.isWebSocket (h : Headers) : Bool :=
  WebSocket.Handshake.isUpgrade (h.getAll "connection") (h.getAll "upgrade")

/-- The head of a request. -/
structure RequestHead where
  method : String
  target : String
  /-- The minor version. -/
  version : Nat
  headers : Headers
  deriving DecidableEq, Repr

namespace RequestHead

/-- Take a request head, with empty lines in front of it. -/
def scan : Scan RequestHead := do
  Scan.emptyLines
  let method ← Scan.method
  let target ← Scan.target
  let version ← Scan.version
  Scan.lineEnd .newLine
  let headers ← Scan.headers
  return { method, target, version, headers }

/-- The request head at the front of a byte string. -/
def parse (raw : Bytes) : Except HeadError RequestHead := Scan.toHead .request scan raw

/-- The head as it is written. -/
def render (head : RequestHead) : Bytes :=
  Bytes.ofText s!"{head.method} {head.target} HTTP/1.{head.version}" ++ Bytes.crlf
    ++ head.headers.render

/-- How the body ends. The body of a request is never closed by the connection. -/
def bodyKind (head : RequestHead) : Except HeadError BodyKind := do
  match ← head.headers.framing with
  | some kind => return kind
  | none =>
    if head.headers.contains "transfer-encoding" then throw .codingNotChunked
    else return .empty

/-- Whether the client wants the connection to stay open. -/
def keepAlive (head : RequestHead) : Bool := keepsAlive head.version head.headers

/-- Whether the client asks for a WebSocket. -/
def isWebSocketUpgrade (head : RequestHead) : Bool :=
  Text.eqIgnoreCase head.method "GET" && head.headers.isWebSocket

end RequestHead

/-- The head of a response. -/
structure ResponseHead where
  status : Nat
  reason : String
  /-- The minor version. -/
  version : Nat := 1
  headers : Headers := {}
  deriving DecidableEq, Repr

namespace ResponseHead

/-- Take a response head, with empty lines in front of it. -/
def scan : Scan ResponseHead := do
  Scan.emptyLines
  let version ← Scan.version
  Scan.expect 0x20 .version
  let status ← Scan.status
  let reason ← Scan.statusLineEnd
  let headers ← Scan.headers
  return { status, reason, version, headers }

/-- The response head at the front of a byte string. -/
def parse (raw : Bytes) : Except HeadError ResponseHead := Scan.toHead .response scan raw

/-- The head as it is written. -/
def render (head : ResponseHead) : Bytes :=
  Bytes.ofText s!"HTTP/1.{head.version} {head.status} {head.reason}" ++ Bytes.crlf
    ++ head.headers.render

/-- Whether the response announces another one. -/
def isInformational (head : ResponseHead) : Bool := 100 ≤ head.status && head.status < 200

/-- How the body ends, given the method that was asked for. -/
def bodyKind (head : ResponseHead) (method : String) : Except HeadError BodyKind := do
  if Text.eqIgnoreCase method "HEAD" || head.isInformational || head.status = 204
      || head.status = 304 then
    return .empty
  return (← head.headers.framing).getD .untilClose

/-- Whether the server leaves the connection open. -/
def keepAlive (head : ResponseHead) : Bool := keepsAlive head.version head.headers

/-- Whether the server grants a WebSocket. -/
def isWebSocketUpgrade (head : ResponseHead) : Bool :=
  head.status = 101 && head.headers.isWebSocket

end ResponseHead

end HttpRelay.Http
