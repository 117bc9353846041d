import HttpRelay.Http.Head
import HttpRelay.Net.Address

/-!
# Forwarding Heads

A head that is passed on loses what concerned the connection it came on, and gains what concerns
the connection it goes to.
-/

namespace HttpRelay.Proxy

open Http (BodyKind Headers RequestHead ResponseHead)

/-- Fit the framing fields to a body that is coded anew. -/
def reframe (body : BodyKind) (h : Headers) : Headers :=
  if body = .chunked then (h.remove "content-length").append "Transfer-Encoding" "chunked" else h

/-- Ask for a WebSocket with a key. Extensions are not asked for, since the relay would not
understand their frames. -/
def askUpgrade (key : Option String) (h : Headers) : Headers :=
  match key with
  | some key =>
    ((((h.remove "sec-websocket-extensions").set "Sec-WebSocket-Key" key).append
      "Connection" "Upgrade").append "Upgrade" "websocket")
  | none => h

/-- Add the client to the chain of addresses that a request came through. -/
def addForwarded (client : Net.IpAddress) (h : Headers) : Headers :=
  h.set "X-Forwarded-For" <|
    match h.get? "x-forwarded-for" with
    | some chain => chain ++ ", " ++ client.display
    | none => client.display

/-- A request as it is sent to the server: with its body framed anew, with the relay's own key if
it asks for a WebSocket, and with the client's address. -/
def forwardedRequest (head : RequestHead) (body : BodyKind) (key : Option String)
    (client : Net.IpAddress) : RequestHead :=
  { head with
    headers := addForwarded client
      (askUpgrade key (reframe body (head.headers.stripHopByHop.remove "expect"))) }

/-- Say whether the connection stays open, unless the version says so. -/
def announce (keepAlive : Bool) (version : Nat) (h : Headers) : Headers :=
  if !keepAlive then h.append "Connection" "close"
  else if version = 0 then h.append "Connection" "keep-alive"
  else h

/-- A response as it is sent to a client of some version. -/
def forwardedResponse (head : ResponseHead) (body : BodyKind) (keepAlive : Bool)
    (version : Nat) : ResponseHead :=
  { head with headers := announce keepAlive version (reframe body head.headers.stripHopByHop) }

/-- The response that grants a client its WebSocket. -/
def grantedUpgrade (head : ResponseHead) (clientKey : String) : ResponseHead :=
  { head with
    headers := ((head.headers.stripHopByHop.append "Upgrade" "websocket").append
      "Connection" "Upgrade").set "Sec-WebSocket-Accept"
        (WebSocket.Handshake.acceptKey clientKey) }

/-- Why a client gets no answer from the server. -/
inductive Refusal where
  | badRequest
  | badGateway
  | gatewayTimeout
  deriving DecidableEq, Repr

namespace Refusal

/-- The status of a refusal. -/
def status : Refusal → Nat
  | badRequest => 400
  | badGateway => 502
  | gatewayTimeout => 504

/-- The reason of a refusal. -/
def reason : Refusal → String
  | badRequest => "Bad Request"
  | badGateway => "Bad Gateway"
  | gatewayTimeout => "Gateway Timeout"

/-- The body of a refusal. -/
def body (r : Refusal) : String := s!"{r.status} {r.reason}\n"

/-- The head of a refusal. The connection closes behind it. -/
def head (r : Refusal) : ResponseHead where
  status := r.status
  reason := r.reason
  headers := ⟨[⟨"Content-Type", "text/plain; charset=utf-8"⟩,
    ⟨"Content-Length", toString (Bytes.ofText r.body).length⟩, ⟨"Connection", "close"⟩]⟩

/-- A refusal as it is written. -/
def render (r : Refusal) : Bytes := r.head.render ++ Bytes.ofText r.body

end Refusal

end HttpRelay.Proxy
