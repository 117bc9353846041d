import HttpRelay.Proxy.BodyRelay
import HttpRelay.Proxy.FrameRelay
import HttpRelay.Proxy.HeadReader
import HttpRelay.Proxy.Link
import HttpRelay.Proxy.HeadForwarding
import HttpRelay.Service.Backoff
import HttpRelay.Transport.Replay

/-!
# Sessions

A session serves one client: it reads requests one after another, passes each on to the server,
and passes the response back, until the connection closes or becomes a WebSocket. It is a state
machine. What happens outside is an event; in between, the session takes steps until it has to
wait. Every step adds to the list of its actions, which tells all that was written, in order.
-/

namespace HttpRelay.Proxy

open Http (BodyKind RequestHead ResponseHead)
open Service (Backoff)

/-- What is written to the client. -/
inductive Answer where
  /-- The client may send its body. -/
  | proceed
  /-- A response that announces another one. -/
  | interim (head : ResponseHead)
  /-- The head of the response. -/
  | final (head : ResponseHead)
  | body (wire : Bytes)
  | refusal (cause : Refusal)
  deriving DecidableEq, Repr

namespace Answer

/-- The bytes of an answer. -/
def render : Answer → Bytes
  | proceed => Bytes.ofText "HTTP/1.1 100 Continue" ++ Bytes.crlf ++ Bytes.crlf
  | interim head | final head => head.render
  | body wire => wire
  | refusal cause => cause.render

end Answer

/-- What a session does. -/
inductive Action where
  /-- A request was read whose body is framed. -/
  | began (head : RequestHead)
  /-- The head of a request was written on a connection. -/
  | sentHead (connection : Nat) (head : RequestHead)
  /-- A piece of the body of a request was written on a connection. -/
  | sentBody (connection : Nat) (wire : Bytes)
  | answered (answer : Answer)
  deriving DecidableEq, Repr

/-- A request that is being served. -/
structure Exchange where
  request : RequestHead
  body : BodyKind
  /-- The client's key and the relay's own, if the request asks for a WebSocket. -/
  keys : Option (String × String)
  deriving DecidableEq, Repr

namespace Exchange

/-- The request as it is sent to the server. -/
def forwarded (x : Exchange) (client : Net.IpAddress) : RequestHead :=
  forwardedRequest x.request x.body (x.keys.map Prod.snd) client

/-- Whether the client waits for leave to send its body. -/
def expectsProceed (x : Exchange) : Bool := x.request.headers.hasToken "expect" "100-continue"

end Exchange

/-- What a session is about. -/
inductive Phase where
  /-- The next request is awaited. A connection to the server may be left from the last one. -/
  | idle (pooled : Option Link)
  /-- A connection to the server is being made. The request may have been recorded before. -/
  | connecting (x : Exchange) (attempts : Backoff) (recorded : Bool)
  /-- The request was written on a used connection, which may turn out to be closed. -/
  | probing (x : Exchange) (server : Link)
  | uploading (x : Exchange) (server : Link) (relay : BodyRelay)
  /-- The head of the response is awaited. -/
  | awaiting (x : Exchange) (server : Link)
  /-- Behind the body, the connections may be used again. -/
  | downloading (server : Link) (relay : BodyRelay) (reusable keepAlive : Bool)
  | upgraded
  | ended (result : Except Error Unit)

/-- What happens outside a session. -/
inductive Event where
  | client (arrival : Arrival)
  | server (arrival : Arrival)
  /-- An attempt to connect is over: it failed, or there is a connection. -/
  | dialed (failure : Option IoFailure)
  /-- The time for what is awaited is up. -/
  | timedOut
  deriving DecidableEq, Repr

/-- A session. -/
structure Session where
  config : Config
  peer : Net.SocketAddress
  client : Link := {}
  phase : Phase := .idle none
  /-- The relay of frames behind an upgrade. -/
  frames : Option FrameRelay := none
  /-- Number of connections made to the server. -/
  connections : Nat := 0
  actions : List Action := []
  /-- What was recorded, if it is recorded at all. -/
  record : List Item := []
  /-- The key sent to the server with the n-th request. -/
  drawKey : Nat → String := fun _ => ""
  /-- The key that masks the n-th frame sent to the server. -/
  drawMask : Nat → WebSocket.MaskKey := fun _ => .zero

namespace Session

/-- A session with a client that just connected. -/
def start (config : Config) (peer : Net.SocketAddress) (client : Feed) : Session where
  config
  peer
  client := { input := .ofFeed client Buffered.defaultCapacity }

/-- The rule set that what is sent to the client draws on. -/
def download (s : Session) : Throttle.RuleSetId :=
  s.config.throttle.ruleSetOf s.config.throttle.download

/-- The rule set that what is sent to the server draws on. -/
def upload (s : Session) : Throttle.RuleSetId :=
  s.config.throttle.ruleSetOf s.config.throttle.upload

/-- Number of requests served so far. -/
def requests (s : Session) : Nat :=
  s.actions.countP fun
    | .began _ => true
    | _ => false

/-- Whether the session has become a WebSocket. -/
def isWebSocket (s : Session) : Bool := s.frames.isSome

/-- How the session ended. -/
def result? (s : Session) : Option (Except Error Unit) :=
  match s.phase with
  | .ended result => some result
  | _ => none

/-- What was written to the client ahead of its frames. -/
def written (s : Session) : Bytes :=
  s.actions.flatMap fun
    | .answered answer => answer.render
    | _ => []

/-- All that was recorded. -/
def items (s : Session) : List Item :=
  if s.config.recording.enabled then
    s.record ++ (match s.frames with
      | some relay => relay.record
      | none => [])
  else []

/-- Note an action. -/
def act (s : Session) (action : Action) : Session := { s with actions := s.actions ++ [action] }

/-- Record a payload, unless it is empty. -/
def note (s : Session) (direction : Direction) (kind : PayloadKind) (payload : Bytes) : Session :=
  if payload.isEmpty then s
  else { s with record := s.record ++ [{ direction, kind, payload }] }

/-- Go on to a phase. -/
def enter (s : Session) (phase : Phase) : Session := { s with phase }

/-- End with an error. -/
def fail (s : Session) (error : Error) : Session := s.enter (.ended (.error error))

/-- Tell the client, if it can be told, that it gets no answer, and end. -/
def refuse (s : Session) (cause : Refusal) (error : Error) : Session :=
  (if s.client.unwritable.isNone then s.act (.answered (.refusal cause)) else s).fail error

/-- Refuse a request on account of its head. Other failures are not answered. -/
def reject (s : Session) (error : Error) : Session :=
  match error with
  | .malformedHead _ | .headTooLarge _ => s.refuse .badRequest error
  | _ => s.fail error

/-- Write to the client and go on. -/
def tell (s : Session) (answer : Answer) (next : Session → Session) : Session :=
  match s.client.unwritable with
  | some failure => s.fail (.io failure)
  | none => next (s.act (.answered answer))

/-- Write the head of a response to the client and go on. -/
def tellHead (s : Session) (answer : Answer) (next : Session → Session) : Session :=
  (s.note .toClient .head answer.render).tell answer next

/-- Begin to pass on the body of a request, with leave to send it if the client waits for
that. -/
def startUpload (s : Session) (x : Exchange) (server : Link) : Session :=
  let start (s : Session) : Session := s.enter (.uploading x server (.ofKind x.body))
  if x.expectsProceed then s.tell .proceed start else start s

/-- Write the head of a request on a connection and go on to its body. -/
def sendHead (s : Session) (x : Exchange) (server : Link) : Session :=
  match server.unwritable with
  | some failure => s.fail (.io failure)
  | none =>
    (s.act (.sentHead server.number (x.forwarded s.peer.ip))).startUpload x server

/-- Record the head of a request as it is sent. -/
def noteHead (s : Session) (x : Exchange) : Session :=
  s.note .toServer .head (x.forwarded s.peer.ip).render

/-- Begin to connect to the server. -/
def connect (s : Session) (x : Exchange) (recorded : Bool) : Session :=
  let attempts : Backoff := { retries := s.config.server.retries, attempts := 1 }
  s.enter (.connecting x attempts recorded)

/-- Send a request on a used connection. If it has no body, it can be sent again should the
connection be closed. -/
def reuse (s : Session) (x : Exchange) (server : Link) : Session :=
  let s := s.noteHead x
  if x.body = .empty then
    match server.unwritable with
    | some _ => s.connect x true
    | none =>
      (s.act (.sentHead server.number (x.forwarded s.peer.ip))).enter (.probing x server)
  else s.sendHead x server

/-- The keys of a request that asks for a WebSocket: the client's, and one of the relay's own to
be sent in its place. -/
def keysOf (s : Session) (head : RequestHead) : Except Http.HeadError (Option (String × String)) :=
  if head.isWebSocketUpgrade then
    match head.headers.get? "sec-websocket-key" with
    | some key => .ok (some (Text.trim key, s.drawKey s.requests))
    | none => .error (.refused "WebSocket upgrade without Sec-WebSocket-Key")
  else .ok none

/-- Serve a request. -/
def serve (s : Session) (pooled : Option Link) (head : RequestHead) : Session :=
  match head.bodyKind with
  | .error cause => s.reject (.malformedHead cause)
  | .ok body =>
    let s := s.act (.began head)
    match s.keysOf head with
    | .error cause => s.reject (.malformedHead cause)
    | .ok keys =>
      let x : Exchange := { request := head, body, keys }
      match pooled with
      | some server => s.reuse x server
      | none => s.connect x false

/-- Grant a client its WebSocket, if it asked for one and the server answers the key it was
sent. -/
def upgrade (s : Session) (x : Exchange) (server : Link) (head : ResponseHead) : Session :=
  match x.keys, head.isWebSocketUpgrade with
  | some (clientKey, key), true =>
    if WebSocket.Handshake.verifyAccept key (head.headers.get? "sec-websocket-accept") then
      s.tellHead (.final (grantedUpgrade head clientKey)) fun s =>
        let relay := FrameRelay.start (Replay.ofBuffered s.client.input).toFeed
          (Replay.ofBuffered server.input).toFeed s.config.maxMessage s.drawMask
        { s with frames := some relay, phase := .upgraded }
    else s.refuse .badGateway .acceptKeyMismatch
  | _, _ => s.refuse .badGateway .unsupportedUpgrade

/-- Pass a response back. -/
def respond (s : Session) (x : Exchange) (server : Link) (head : ResponseHead) : Session :=
  match head.bodyKind x.request.method with
  | .error cause => s.refuse .badGateway (.malformedHead cause)
  | .ok body =>
    let reusable := head.keepAlive && body != .untilClose
    let keepAlive := x.request.keepAlive && body != .untilClose
    s.tellHead (.final (forwardedResponse head body keepAlive x.request.version))
      (·.enter (.downloading server (.ofKind body) reusable keepAlive))

/-- Deal with the head of a response. Interim responses are passed on, but for the leave to send
a body, which the client has. -/
def receiveHead (s : Session) (x : Exchange) (server : Link) (head : ResponseHead) : Session :=
  if head.status = 101 then s.upgrade x server head
  else if head.isInformational then
    if head.status = 100 then s.enter (.awaiting x server)
    else s.tellHead (.interim head) (·.enter (.awaiting x server))
  else s.respond x server head

/-- Pass on one piece of the body of a request. There is no result if the session has to wait. -/
def stepUpload (s : Session) (x : Exchange) (server : Link) (relay : BodyRelay) :
    Option Session :=
  let p := relay.pass s.client.input
  let s := { s with client := { s.client with input := p.input } }.note .toServer .body p.payload
  match s.client.resolve relay.transportError p.status, server.unwritable with
  | .error .starved, _ => none
  | .error (.failed error), _ => some (s.fail error)
  | .ok complete, unwritable =>
    if p.wire.isEmpty then
      some (s.enter (if complete then .awaiting x server else .uploading x server p.next))
    else
      match unwritable with
      | some failure => some (s.fail (relay.transportError failure))
      | none =>
        some ((s.act (.sentBody server.number p.wire)).enter
          (if complete then .awaiting x server else .uploading x server p.next))

/-- Pass back one piece of the body of a response. There is no result if the session has to
wait. -/
def stepDownload (s : Session) (server : Link) (relay : BodyRelay) (reusable keepAlive : Bool) :
    Option Session :=
  let p := relay.pass server.input
  let server := { server with input := p.input }
  let s := s.note .toClient .body p.payload
  let onward (complete : Bool) : Phase :=
    if !complete then .downloading server p.next reusable keepAlive
    else if keepAlive then .idle (if reusable then some server else none)
    else .ended (.ok ())
  match server.resolve relay.transportError p.status, s.client.unwritable with
  | .error .starved, _ => none
  | .error (.failed error), _ => some (s.fail error)
  | .ok complete, unwritable =>
    if p.wire.isEmpty then some (s.enter (onward complete))
    else
      match unwritable with
      | some failure => some (s.fail (relay.transportError failure))
      | none => some ((s.act (.answered (.body p.wire))).enter (onward complete))

/-- The session with a relay of frames that has moved on. -/
def withFrames (s : Session) (relay : FrameRelay) : Session :=
  let s := { s with frames := some relay }
  match relay.outcome with
  | some result => s.enter (.ended result)
  | none => s

/-- Forward one frame. There is no result if the session has to wait. -/
def stepFrames (s : Session) : Option Session :=
  match s.frames with
  | none => none
  | some relay =>
    match relay.step .toServer, relay.step .toClient with
    | (true, relay), _ | (false, _), (true, relay) => some (s.withFrames relay)
    | (false, _), (false, _) => none

/-- Take a step. There is no result if the session has to wait. -/
def step (s : Session) : Option Session :=
  match s.phase with
  | .ended _ | .connecting .. => none
  | .idle pooled =>
    let (result, input) := readRequestHead s.client.input
    let next := { s with client := { s.client with input } }
    match s.client.resolve .io result with
    | .error .starved => none
    | .error (.failed error) => some (next.reject error)
    | .ok none => some (next.enter (.ended (.ok ())))
    | .ok (some head) => some (next.serve pooled head)
  | .probing x server =>
    match server.isAlive? with
    | none => none
    | some true => some (s.startUpload x server)
    | some false => some (s.connect x true)
  | .uploading x server relay => s.stepUpload x server relay
  | .awaiting x server =>
    let (result, input) := readResponseHead server.input
    match server.resolve .io result with
    | .error .starved => none
    | .error (.failed error) => some (s.refuse .badGateway error)
    | .ok head => some (s.receiveHead x { server with input } head)
  | .downloading server relay reusable keepAlive => s.stepDownload server relay reusable keepAlive
  | .upgraded => s.stepFrames

/-- Take at most `steps` steps. -/
def settleWithin (s : Session) : (steps : Nat) → Session
  | 0 => s
  | steps + 1 =>
    match s.step with
    | some s => settleWithin s steps
    | none => s

/-- The connection to the server, if there is one. -/
def server? (s : Session) : Option Link :=
  match s.phase with
  | .idle pooled => pooled
  | .probing _ server | .uploading _ server _ | .awaiting _ server
  | .downloading server _ _ _ => some server
  | .connecting .. | .upgraded | .ended _ => none

/-- Number of bytes that have not been dealt with. -/
def backlog (s : Session) : Nat :=
  s.client.backlog + (s.server?.map Link.backlog).getD 0
    + (match s.frames with
      | some relay => relay.client.incoming.arrived.length + relay.server.incoming.arrived.length
      | none => 0)

/-- Take steps until the session has to wait. Between two steps that deal with bytes there are at
most seven others. -/
def settle (s : Session) : Session := s.settleWithin (8 * (s.backlog + 2))

/-- Pass on to the server's connection what happens on it. -/
def receiveServer (s : Session) (arrival : Arrival) : Session :=
  match s.phase with
  | .idle pooled => s.enter (.idle (pooled.map (·.receive arrival)))
  | .probing x server => s.enter (.probing x (server.receive arrival))
  | .uploading x server relay => s.enter (.uploading x (server.receive arrival) relay)
  | .awaiting x server => s.enter (.awaiting x (server.receive arrival))
  | .downloading server relay reusable keepAlive =>
    s.enter (.downloading (server.receive arrival) relay reusable keepAlive)
  | .connecting .. | .upgraded | .ended _ => s

/-- What happens on a connection of frames. -/
def receiveFrames (e : WebSocket.Endpoint) : Arrival → WebSocket.Endpoint
  | .bytes bytes => { e with incoming := e.incoming.push bytes }
  | .close => { e with incoming := e.incoming.close }
  | .gone _ | .lost _ => { e with incoming := e.incoming.close, peerGone := true }

/-- The outcome of an attempt to connect. -/
def receiveDial (s : Session) (failure : Option IoFailure) : Session :=
  match s.phase, failure with
  | .connecting x _ recorded, none =>
    let server : Link := { number := s.connections }
    let s := { s with connections := s.connections + 1 }
    (if recorded then s else s.noteHead x).sendHead x server
  | .connecting x attempts recorded, some failure =>
    match attempts.next 0 with
    | (some _, attempts) => s.enter (.connecting x attempts recorded)
    | (none, attempts) =>
      s.refuse .badGateway (.serverUnavailable attempts.attempts failure)
  | _, _ => s

/-- The time for what is awaited is up. Between requests the session just ends. -/
def expire (s : Session) : Session :=
  match s.phase with
  | .idle _ => s.enter (.ended (.ok ()))
  | .probing .. | .awaiting .. => s.refuse .gatewayTimeout (.timeout "response head")
  | .upgraded =>
    match s.frames with
    | some relay => s.withFrames relay.expire
    | none => s
  | _ => s

/-- The session with an event that it has not dealt with. -/
def receive (s : Session) : Event → Session
  | .client arrival =>
    match s.frames with
    | some relay =>
      { s with frames := some { relay with client := receiveFrames relay.client arrival } }
    | none => { s with client := s.client.receive arrival }
  | .server arrival =>
    match s.frames with
    | some relay =>
      { s with frames := some { relay with server := receiveFrames relay.server arrival } }
    | none => s.receiveServer arrival
  | .dialed failure => s.receiveDial failure
  | .timedOut => s.expire

/-- Deal with an event. -/
def handle (s : Session) (event : Event) : Session := (s.receive event).settle

/-- Deal with events one after another. -/
def run (s : Session) (events : List Event) : Session := events.foldl handle s

end Session

end HttpRelay.Proxy
