import HttpRelay.WebSocket.Endpoint

/-!
# Messages

A `Connection` exchanges whole messages over an endpoint. It puts fragments together, answers
pings, echoes a close, and tells the peer about violations.
-/

namespace HttpRelay.WebSocket

/-- A whole message. -/
inductive Message where
  | text (content : String)
  | binary (data : Bytes)
  | ping (data : Bytes)
  | pong (data : Bytes)
  /-- A close, with its code and reason if it has them. -/
  | close (status : Option Close)
  deriving DecidableEq, Repr

/-- An endpoint with a message under construction. -/
structure Connection where
  endpoint : Endpoint
  /-- The header of the first fragment and the payload so far. -/
  fragments : Option (Header × Bytes) := none

namespace Connection

/-- An operation: its value or halt, and the connection behind it in both cases. -/
abbrev Op (α : Type) := ExceptT (Halt Error) (StateM Connection) α

/-- An operation of the endpoint. -/
def lift {α : Type} (op : Endpoint.Op α) : Op α :=
  ExceptT.mk fun c =>
    let (answer, endpoint) := c.endpoint.run op
    (answer, { c with endpoint })

/-- Run an operation. -/
def run {α : Type} (c : Connection) (op : Op α) : Except (Halt Error) α × Connection :=
  (ExceptT.run op).run c

/-- Fail, and end the connection on account of the error. -/
def fail {α : Type} (error : Error) : Op α := do
  modify fun c => { c with endpoint := (Endpoint.failWith error c.endpoint).2 }
  throw (.failed error)

/-- Read one frame, and end the connection if that fails. -/
def frame : Op Frame := do
  try lift Endpoint.readFrame
  catch
    | .failed error => fail error
    | .starved => throw .starved

/-- The message with a header and payload. -/
def complete (header : Header) (payload : Bytes) : Op Message := do
  if header.opcode = .text then
    match Text.Utf8.decode? payload with
    | some content => return .text content
    | none => fail (.violation .dataFormat "text message is not valid UTF-8")
  else return .binary payload

/-- Take a frame. The result is the message it completes, if it completes one. -/
def accept (frame : Frame) : Op (Option Message) := do
  let { header, payload } := frame
  match header.opcode with
  | .ping =>
    if (← get).endpoint.state.canSend then lift (Endpoint.writeFrame .pong true payload)
    return some (.ping payload)
  | .pong => return some (.pong payload)
  | .close =>
    match Close.ofPayload payload with
    | .error error => throw (.failed error)
    | .ok status =>
      if (← get).endpoint.state = .closeReceived then
        lift (Endpoint.sendClose ((status.map Close.code).getD .none) "")
      return some (.close status)
  | .text | .binary =>
    if (← get).fragments.isSome then
      fail (.peer "new data frame while a fragmented message is open")
    if header.fin then return some (← complete header payload)
    modify ({ · with fragments := some (header, payload) })
    return none
  | .continuation =>
    let some (first, soFar) := (← get).fragments
      | fail (.peer "continuation frame without a message in progress")
    modify ({ · with fragments := none })
    if (← get).endpoint.limit < soFar.length + payload.length then
      fail (.violation .messageTooBig "reassembled message exceeds limit")
    let whole := soFar ++ payload
    if header.fin then
      match Header.ofFragments first whole.length with
      | .ok header => return some (← complete header whole)
      | .error error => throw (.failed error)
    modify ({ · with fragments := some (first, whole) })
    return none

/-- Read frames, at most `frames` of them, until one completes a message. -/
def messageWithin : (frames : Nat) → Op Message
  | 0 => throw .starved
  | frames + 1 => do
    match ← accept (← frame) with
    | some message => return message
    | none => messageWithin frames

/-- Read the next message. A frame takes at least two bytes, which bounds the number of frames
that can arrive. -/
def receive : Op Message := do
  messageWithin ((← get).endpoint.incoming.arrived.length + 1)

/-- Send a message in one frame. -/
def send (message : Message) : Op Unit :=
  match message with
  | .text content => lift (Endpoint.writeFrame .text true (Bytes.ofText content))
  | .binary data => lift (Endpoint.writeFrame .binary true data)
  | .ping data => lift (Endpoint.writeFrame .ping true data)
  | .pong data => lift (Endpoint.writeFrame .pong true data)
  | .close none => lift (Endpoint.sendClose .none "")
  | .close (some status) => lift (Endpoint.sendClose status.code status.reason)

/-- Start the closing handshake. -/
def close (code : CloseCode) (reason : String) : Op Unit :=
  lift (Endpoint.sendClose code reason)

/-- Mark the opening handshake complete. -/
def opened : Op Unit := lift Endpoint.opened

end Connection

end HttpRelay.WebSocket
