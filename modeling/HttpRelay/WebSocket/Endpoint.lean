import HttpRelay.WebSocket.Frame

/-!
# Endpoints

An `Endpoint` is one end of a connection: a receiving half and a sending half that share a
state. To begin or end a read, to begin a write and to put a frame on the wire are one step each;
the other half may act in between. What was sent is kept in order, so that the statements about
an endpoint can speak of the whole exchange; its octets are what is on the wire.
-/

namespace HttpRelay.WebSocket

/-- Most payload bytes of a frame or message, unless set otherwise. -/
def defaultLimit : Nat := 16 * 1024 * 1024

/-- One end of a connection. -/
structure Endpoint where
  role : Role
  state : State := .open
  /-- Most payload bytes of a frame or message accepted. -/
  limit : Nat := defaultLimit
  /-- What the peer sent. -/
  incoming : Feed := {}
  /-- The frames sent so far. -/
  sent : List Frame := []
  /-- The sending half was shut down. -/
  shut : Bool := false
  /-- The peer is gone and receives nothing. -/
  peerGone : Bool := false
  /-- The key for the n-th frame sent. -/
  drawKey : Nat → MaskKey := fun _ => .zero

/-- What the peer of an endpoint does. -/
inductive PeerAct where
  | send (bytes : Bytes)
  /-- Close its side. -/
  | finish
  /-- Go away. -/
  | leave
  deriving DecidableEq, Repr

/-- What the peer does, as the endpoint sees it. -/
def PeerAct.on (act : PeerAct) (e : Endpoint) : Endpoint :=
  match act with
  | send bytes => { e with incoming := e.incoming.push bytes }
  | finish => { e with incoming := e.incoming.close }
  | leave => { e with incoming := e.incoming.close, peerGone := true }

namespace Endpoint

/-- What was written to the connection, a frame at a time. -/
def writes (e : Endpoint) : List Bytes := e.sent.map Frame.encode

/-- The octets on the wire. -/
def wire (e : Endpoint) : Bytes := e.writes.flatten

theorem wire_eq (e : Endpoint) : e.wire = e.sent.flatMap Frame.encode := rfl

/-- An operation: its value or halt, and the endpoint behind it in both cases. -/
abbrev Op (α : Type) := ExceptT (Halt Error) (StateM Endpoint) α

/-- An operation that fails. -/
def fail {α : Type} (error : Error) : Op α := throw (.failed error)

/-- Run an operation. -/
def run {α : Type} (e : Endpoint) (op : Op α) : Except (Halt Error) α × Endpoint :=
  (ExceptT.run op).run e

/-- Move to the next state, or fail if there is none. -/
def transition (next : State → Option State) : Op Unit := do
  let state := (← get).state
  match next state with
  | some state => modify ({ · with state })
  | none => fail (.notPermitted state)

/-- Read what the peer sent. -/
def receive {α : Type} (read : Header.Read α) : Op α :=
  ExceptT.mk fun e =>
    let (answer, incoming) := e.incoming.run read
    (answer, { e with incoming })

/-- Begin to read a frame. -/
def beginRead : Op Unit := do
  let state := (← get).state
  unless state.canReceive do fail (.notPermitted state)

/-- Note that a frame was read. A close frame moves the state. -/
def endRead (frame : Frame) : Op Unit := do
  if frame.header.opcode = .close then transition State.afterCloseReceived

/-- Note that no frame could be read. A transport failure ends the connection; a violation is
left to the caller, who may tell the peer by `failWith`. -/
def breakRead {α : Type} (halt : Halt Error) : Op α := do
  if let .failed (.io _) := halt then modify ({ · with state := .errored })
  throw halt

/-- Read one frame. -/
def readFrame : Op Frame := do
  beginRead
  let e ← get
  let frame ← tryCatch (receive (Frame.decode e.role e.limit)) breakRead
  endRead frame
  return frame

/-- Begin to send a frame. A close frame moves the state. -/
def beginWrite (opcode : Opcode) : Op Unit := do
  if opcode = .close then transition State.afterCloseSent
  else
    let state := (← get).state
    unless state.canSend do fail (.notPermitted state)

/-- Put a frame on the wire, or end the connection if nobody receives it. -/
def put (frame : Frame) : Op Unit := do
  let e ← get
  if e.shut || e.peerGone then
    set { e with state := .errored }
    fail (.io .brokenPipe)
  else set { e with sent := e.sent ++ [frame] }

/-- Send one frame. -/
def writeFrame (opcode : Opcode) (fin : Bool) (payload : Bytes) : Op Unit := do
  if opcode.isControl && (Close.maxControlPayload < payload.length || !fin) then
    fail (.violation .internalError "control frames must be final and at most 125 bytes")
  beginWrite opcode
  let e ← get
  put (Frame.outgoing e.role (e.drawKey e.sent.length) opcode fin payload)

/-- Send a close frame. -/
def sendClose (code : CloseCode) (reason : String) : Op Unit := do
  match Close.payload code reason with
  | .ok payload => writeFrame .close true payload
  | .error error => fail error

/-- End the connection on account of an error, and tell the peer if that is still possible. A
connection that is over stays as it is. -/
def failWith (error : Error) : StateM Endpoint Unit := do
  let e ← get
  unless e.state.isTerminal do
    if let .violation code reason := error then
      if e.state.canSend && code.isSendable then
        let _ ← (sendClose code reason).run
    modify ({ · with state := .errored })

/-- Shut the sending half down. -/
def shutdown : StateM Endpoint Unit :=
  modify ({ · with shut := true })

/-- Mark the opening handshake complete. -/
def opened : Op Unit := transition State.afterOpening

end Endpoint

end HttpRelay.WebSocket
