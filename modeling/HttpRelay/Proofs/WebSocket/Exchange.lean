import HttpRelay.Proofs.WebSocket.AtomicSteps
import HttpRelay.Proofs.WebSocket.MessageCodec

/-!
# One operation of a connection

What a connection does in one operation, as one statement each: a send puts the frame of one
message on the wire or changes nothing, and a read takes one message off the wire and puts the
reply to it back.

* `Connection.send_cases`: the outcomes of a send;
* `Connection.receive_run`: a read of a message that arrived;
* `Connection.receive_starved`: a read of a message that arrived in part;
* `Connection.receive_refused`: a read of a connection that is over.
-/

namespace HttpRelay.WebSocket

open Outcome

namespace Endpoint

variable {e : Endpoint}

/-- A final frame is put on the wire. -/
theorem writeFrame_run (h : e.Connected) {opcode : Opcode} {payload : Bytes} {state : State}
    (hlength : opcode.isControl = true → payload.length ≤ Close.maxControlPayload)
    (hstate : stateSent e.state opcode = some state) :
    (writeFrame opcode true payload).run.run e = (.ok (), { e with
      state
      sent := e.sent ++
        [Frame.outgoing e.role (e.drawKey e.sent.length) opcode true payload] }) := by
  have hprepare : (prepare opcode true payload).run.run e = _ :=
    prepare_run (fun hcontrol => ⟨rfl, hlength hcontrol⟩) hstate
  have hput := put_run (e := { e with state }) ⟨h.shut, h.peerGone⟩
    (Frame.outgoing e.role (e.drawKey e.sent.length) opcode true payload)
  rw [writeFrame_eq]
  exact (run_bind_ok hprepare).trans hput

/-- A final frame is put on the wire, or nothing changes. -/
theorem writeFrame_cases (h : e.Connected) (opcode : Opcode) (payload : Bytes) :
    (∃ error, (writeFrame opcode true payload).run.run e = (.error (.failed error), e)) ∨
      ∃ state, stateSent e.state opcode = some state ∧
        (opcode.isControl = true → payload.length ≤ Close.maxControlPayload) ∧
        (writeFrame opcode true payload).run.run e = (.ok (), { e with
          state
          sent := e.sent ++
            [Frame.outgoing e.role (e.drawKey e.sent.length) opcode true payload] }) := by
  rcases prepare_cases (e := e) opcode true payload with
    ⟨error, hprepare⟩ | ⟨state, hstate, hcontrol, -⟩
  · refine .inl ⟨error, ?_⟩
    rw [writeFrame_eq]
    exact run_bind_error hprepare
  · have hlength := fun h => (hcontrol h).2
    exact .inr ⟨state, hstate, hlength, writeFrame_run h hlength hstate⟩

/-- A frame that arrived is read. -/
theorem readFrame_run {frame : Frame} {rest : Bytes} {closed : Bool} {state : State}
    (hreceive : e.state.canReceive = true) (hframe : frame.Acceptable e.role e.limit)
    (hincoming : e.incoming = { arrived := frame.encode ++ rest, closed })
    (hstate : stateReceived e.state frame.header.opcode = some state) :
    readFrame.run.run e =
      (.ok frame, { e with incoming := { arrived := rest, closed }, state }) := by
  have hdecode : Feed.run e.incoming (Frame.decode e.role e.limit) =
      (.ok frame, { arrived := rest, closed }) := by
    rw [hincoming]
    exact Frame.decode_encode hframe rest closed
  rw [readFrame_eq, run_bind_ok (beginRead_run hreceive)]
  exact finishRead_run hdecode hstate

/-- A frame that arrived in part is not read. -/
theorem readFrame_starved {frame : Frame} {arrived missing : Bytes}
    (hreceive : e.state.canReceive = true) (hframe : frame.Acceptable e.role e.limit)
    (hincoming : e.incoming = { arrived }) (hsplit : arrived ++ missing = frame.encode)
    (hmissing : missing ≠ []) : (readFrame.run.run e).1 = .error .starved := by
  have hstarved := Frame.decode_prefix hframe hsplit hmissing
  obtain ⟨e', hread⟩ := finishRead_starved (e := e) (by rw [hincoming]; exact hstarved)
  rw [readFrame_eq, run_bind_ok (beginRead_run hreceive), hread]

/-- Behind the end of a connection no frame is read. -/
theorem readFrame_refused (h : e.state.canReceive = false) :
    readFrame.run.run e = (.error (.failed (.notPermitted e.state)), e) := by
  rw [readFrame_eq, run_bind_error (beginRead_refused h)]

/-- An endpoint whose connection is over does not fail. -/
theorem failWith_of_isTerminal (h : e.state.isTerminal = true) (error : Error) :
    (failWith error e).2 = e := by
  change ((if e.state.isTerminal = true then pure PUnit.unit
    else _ : StateM Endpoint Unit).run e).2 = _
  rw [if_pos h]
  rfl

end Endpoint

namespace Message

/-- What an end in a state sends back when it reads a message: a pong, or the echo of a close. -/
def reply? (state : State) : Message → Option Message
  | ping data => if state.canSend then some (pong data) else none
  | close status =>
    if state = .open then some (close (status.map fun status => { status with reason := "" }))
    else none
  | _ => none

/-- Only an open end replies. -/
theorem state_of_reply?_eq_some {message reply : Message} {state : State}
    (hopen : state = .open ∨ state = .closeSent) (h : message.reply? state = some reply) :
    state = .open := by
  rcases hopen with hopen | rfl
  · exact hopen
  · cases message <;> cases h

/-- A reply to a message that was delivered can be delivered. -/
theorem Deliverable.reply {message reply : Message} {limit limit' : Nat} {state : State}
    (h : message.Deliverable limit) (hlimit : Close.maxControlPayload ≤ limit')
    (hreply : message.reply? state = some reply) : reply.Deliverable limit' := by
  have hshort : reply.payload.length ≤ Close.maxControlPayload ∧
      ∀ status, reply = close (some status) → status.code.isSendable = true := by
    cases message with
    | ping data =>
      obtain ⟨-, hpong⟩ := Option.ite_none_right_eq_some.mp hreply
      obtain rfl := Option.some.inj hpong
      exact ⟨h.control rfl, fun status hstatus => by cases hstatus⟩
    | close status =>
      obtain ⟨-, hecho⟩ := Option.ite_none_right_eq_some.mp hreply
      obtain rfl := Option.some.inj hecho
      cases status with
      | none => exact ⟨by decide, fun status hstatus => by cases hstatus⟩
      | some status =>
        refine ⟨by simp [payload, Close.octets, Bytes.ofText, Close.maxControlPayload], ?_⟩
        rintro _ ⟨⟩
        exact h.code status rfl
    | _ => cases hreply
  exact ⟨Close.lt_of_le_maxControlPayload hshort.1, Nat.le_trans hshort.1 hlimit,
    fun _ => hshort.1, hshort.2⟩

/-- The state of an end that read a message and sent the reply. -/
def stateBehind (state : State) : Message → State
  | close _ => .closed
  | _ => state

end Message

namespace Connection

variable {c : Connection}

/-- An operation of the endpoint, by its outcome. -/
theorem lift_eq {α : Type} {op : Endpoint.Op α} {answer : Except (Halt Error) α}
    {endpoint : Endpoint} (h : op.run.run c.endpoint = (answer, endpoint)) :
    (lift op).run.run c = (answer, { c with endpoint }) := by
  change ((c.endpoint.run op).1, { c with endpoint := (c.endpoint.run op).2 }) = _
  rw [Endpoint.run, h]

/-- A close is sent as the frame of what is delivered of it. -/
theorem sendClose_eq (code : CloseCode) (reason : String) :
    (∃ error, Endpoint.sendClose code reason = Endpoint.fail error) ∨
      Endpoint.sendClose code reason = Endpoint.writeFrame .close true
        (Message.close (some ⟨code, reason⟩)).delivered.payload ∧
      ∀ status, (Message.close (some ⟨code, reason⟩)).delivered = .close (some status) →
        status.code.isSendable = true := by
  by_cases hnone : code = .none
  · subst hnone
    refine .inr ⟨rfl, ?_⟩
    simp [Message.delivered]
  · by_cases hsendable : code.isSendable = true
    · refine .inr ⟨?_, ?_⟩
      · rw [Endpoint.sendClose, Close.payload, if_neg hnone, if_pos hsendable, Message.delivered,
          if_neg hnone]
        rfl
      · intro status hstatus
        rw [Message.delivered, if_neg hnone] at hstatus
        obtain rfl := Option.some.inj (Message.close.inj hstatus)
        exact hsendable
    · refine .inl ⟨.violation .internalError s!"close code {code.display} cannot be sent", ?_⟩
      rw [Endpoint.sendClose, Close.payload, if_neg hnone, if_neg hsendable]

/-- A message is sent as the frame of what is delivered of it. -/
theorem send_eq (message : Message) :
    (∃ error, send message = lift (Endpoint.fail error)) ∨
      send message = lift (Endpoint.writeFrame message.delivered.opcode true
        message.delivered.payload) ∧
      ∀ status, message.delivered = .close (some status) → status.code.isSendable = true := by
  cases message with
  | close status =>
    cases status with
    | none => exact .inr ⟨rfl, fun status h => by cases h⟩
    | some status =>
      rcases sendClose_eq status.code status.reason with ⟨error, hfail⟩ | ⟨hwrite, hcode⟩
      · exact .inl ⟨error, congrArg lift hfail⟩
      · refine .inr ⟨?_, hcode⟩
        rw [Message.opcode_delivered]
        exact congrArg lift hwrite
  | _ => exact .inr ⟨rfl, fun status h => by cases h⟩

/-- A send puts the frame of one message on the wire, or changes nothing. -/
theorem send_cases (h : c.endpoint.Connected) (message : Message) :
    (∃ error, (send message).run.run c = (.error (.failed error), c)) ∨
      ∃ state, Endpoint.stateSent c.endpoint.state message.delivered.opcode = some state ∧
        (message.delivered.opcode.isControl = true →
          message.delivered.payload.length ≤ Close.maxControlPayload) ∧
        (∀ status, message.delivered = .close (some status) → status.code.isSendable = true) ∧
        (send message).run.run c = (.ok (), { c with
          endpoint := { c.endpoint with
            state
            sent := c.endpoint.sent ++ [message.delivered.frame c.endpoint.role
              (c.endpoint.drawKey c.endpoint.sent.length)] } }) := by
  rcases send_eq message with ⟨error, hfail⟩ | ⟨hwrite, hcode⟩
  · exact .inl ⟨error, by rw [hfail]; rfl⟩
  · rw [hwrite]
    rcases Endpoint.writeFrame_cases h message.delivered.opcode message.delivered.payload with
      ⟨error, hrun⟩ | ⟨state, hstate, hlength, hrun⟩
    · exact .inl ⟨error, lift_eq hrun⟩
    · exact .inr ⟨state, hstate, hlength, hcode, lift_eq hrun⟩

theorem frame_run {frame : Frame} {endpoint : Endpoint}
    (h : Endpoint.readFrame.run.run c.endpoint = (.ok frame, endpoint)) :
    Connection.frame.run.run c = (.ok frame, { c with endpoint }) :=
  run_tryCatch_ok (lift_eq h)

/-- A failure ends the connection on account of its error. -/
theorem fail_eq {α : Type} (error : Error) :
    (fail error : Op α).run.run c = (.error (.failed error),
      { c with endpoint := (Endpoint.failWith error c.endpoint).2 }) := rfl

/-- A connection that may not be read finds no frame, and takes the refusal for a failure. -/
theorem frame_refused (h : c.endpoint.state.canReceive = false) :
    Connection.frame.run.run c = (.error (.failed (.notPermitted c.endpoint.state)),
      { c with endpoint :=
        (Endpoint.failWith (.notPermitted c.endpoint.state) c.endpoint).2 }) := by
  rw [Connection.frame, run_tryCatch_error (lift_eq (Endpoint.readFrame_refused h))]
  exact fail_eq _

theorem receive_of_not_canReceive (h : c.endpoint.state.canReceive = false) :
    receive.run.run c = (.error (.failed (.notPermitted c.endpoint.state)),
      { c with endpoint :=
        (Endpoint.failWith (.notPermitted c.endpoint.state) c.endpoint).2 }) := by
  rw [receive, run_bind_ok (run_get c), messageWithin, run_bind_error (frame_refused h)]

/-- A connection that is over refuses reads, and stays as it is. -/
theorem receive_refused (h : c.endpoint.state = .closed) :
    receive.run.run c = (.error (.failed (.notPermitted .closed)), c) := by
  rw [receive_of_not_canReceive (by rw [h]; rfl), h,
    Endpoint.failWith_of_isTerminal (by rw [h]; rfl)]

/-- A message that arrived in part is not read. -/
theorem receive_starved {frame : Frame} {arrived missing : Bytes}
    (hreceive : c.endpoint.state.canReceive = true)
    (hframe : frame.Acceptable c.endpoint.role c.endpoint.limit)
    (hincoming : c.endpoint.incoming = { arrived }) (hsplit : arrived ++ missing = frame.encode)
    (hmissing : missing ≠ []) : (receive.run.run c).1 = .error .starved := by
  have hstarved := Endpoint.readFrame_starved hreceive hframe hincoming hsplit hmissing
  rcases hread : Endpoint.readFrame.run.run c.endpoint with ⟨answer, endpoint⟩
  rw [hread] at hstarved
  obtain rfl : answer = .error .starved := hstarved
  have hframe : Connection.frame.run.run c = (.error .starved, { c with endpoint }) := by
    rw [Connection.frame, run_tryCatch_error (lift_eq hread)]
    rfl
  rw [receive, run_bind_ok (run_get c), messageWithin, run_bind_error hframe]

/-- The payload of a data message is put into the message again. -/
theorem complete_run {message : Message} {header : Header}
    (hheader : header.opcode = message.opcode)
    (hdata : message.opcode = .text ∨ message.opcode = .binary) :
    (complete header message.payload).run.run c = (.ok message, c) := by
  cases message with
  | text content =>
    have htext : header.opcode = .text := hheader
    rw [complete, if_pos htext, Message.payload, Text.Utf8.decode?_ofText]
    rfl
  | binary data =>
    have hbinary : header.opcode = .binary := hheader
    rw [complete, if_neg (by rw [hbinary]; decide), run_pure]
    rfl
  | _ => simp [Message.opcode] at hdata

/-- The frame of a data message completes it. -/
theorem accept_data {message : Message} (role : Role) (key : MaskKey)
    (hfragments : c.fragments = none)
    (hdata : message.opcode = .text ∨ message.opcode = .binary) :
    (accept (message.frame role key)).run.run c = (.ok (some message), c) := by
  have hcomplete : (complete (message.frame role key).header message.payload).run.run c = _ :=
    complete_run rfl hdata
  cases message with
  | text _ | binary _ =>
    simp only [accept, Message.frame, Frame.outgoing, Message.opcode]
    rw [run_bind_ok (run_get c), hfragments]
    exact run_bind_ok hcomplete
  | _ => simp [Message.opcode] at hdata

/-- A ping is answered by a pong, if the connection is open. -/
theorem accept_ping {data : Bytes} (role : Role) (key : MaskKey) (h : c.endpoint.Connected)
    (hlength : data.length ≤ Close.maxControlPayload)
    (hstate : c.endpoint.state = .open ∨ c.endpoint.state = .closeSent) :
    (accept ((Message.ping data).frame role key)).run.run c = (.ok (some (.ping data)), { c with
      endpoint := { c.endpoint with
        sent := c.endpoint.sent ++
          ((Message.ping data).reply? c.endpoint.state).toList.map fun reply =>
            reply.frame c.endpoint.role (c.endpoint.drawKey c.endpoint.sent.length) } }) := by
  simp only [accept, Message.frame, Frame.outgoing, Message.opcode, Message.payload]
  rw [run_bind_ok (run_get c)]
  rcases hstate with hopen | hsent
  -- Behind a close of its own the end may not send, and the ping is left without an answer.
  · have hsend : c.endpoint.state.canSend = true := by rw [hopen]; rfl
    have hstate : Endpoint.stateSent c.endpoint.state .pong = some c.endpoint.state := by
      rw [Endpoint.stateSent, if_neg (by decide), if_pos hsend]
    have hwrite := lift_eq (Endpoint.writeFrame_run h (fun _ => hlength) hstate)
    rw [if_pos hsend, Message.reply?, if_pos hsend]
    exact run_bind_ok hwrite
  · have hsend : c.endpoint.state.canSend = false := by rw [hsent]; rfl
    rw [hsend, Message.reply?, hsend]
    simp only [Bool.false_eq_true, if_false, Option.toList_none, List.map_nil, List.append_nil]
    rfl

/-- The echo of a close is a close with its code and no reason. -/
theorem sendClose_echo {status : Option Close}
    (h : ∀ close, status = some close → close.code.isSendable = true) :
    Endpoint.sendClose ((status.map Close.code).getD .none) "" =
      Endpoint.writeFrame .close true
        (Message.close (status.map fun status => { status with reason := "" })).payload := by
  cases status with
  | none => rfl
  | some status =>
    have hsendable := h status rfl
    have hnone : status.code ≠ .none := by
      intro hnone
      rw [hnone] at hsendable
      cases hsendable
    rw [Option.map_some, Option.getD_some, Endpoint.sendClose, Close.payload, if_neg hnone,
      if_pos hsendable]
    rfl

theorem length_echo_le (status : Option Close) :
    (Message.close (status.map fun status => { status with reason := "" })).payload.length ≤
      Close.maxControlPayload := by
  cases status with
  | none => decide
  | some status => simp [Message.payload, Close.octets, Bytes.ofText, Close.maxControlPayload]

/-- A close is echoed, if it is the first of the two. -/
theorem accept_close {status : Option Close} {key : MaskKey} {role : Role}
    (h : c.endpoint.Connected) {limit : Nat}
    (hmessage : (Message.close status).Deliverable limit) {state : State}
    (hstate : Endpoint.stateReceived state .close = some c.endpoint.state)
    (hopen : state = .open ∨ state = .closeSent) :
    (accept ((Message.close status).frame role key)).run.run c =
      (.ok (some (.close status)), { c with
        endpoint := { c.endpoint with
          state := .closed
          sent := c.endpoint.sent ++ ((Message.close status).reply? state).toList.map fun reply =>
            reply.frame c.endpoint.role (c.endpoint.drawKey c.endpoint.sent.length) } }) := by
  simp only [accept, Message.frame, Frame.outgoing, Message.opcode,
    Message.ofPayload_payload hmessage rfl]
  rw [run_bind_ok (run_get c)]
  rcases hopen with rfl | rfl
  -- The echo of a close that was not asked for is the last frame of this end.
  · obtain hreceived : State.closeReceived = c.endpoint.state := Option.some.inj hstate
    have hstate : Endpoint.stateSent c.endpoint.state .close = some .closed := by
      rw [← hreceived]
      rfl
    have hwrite := lift_eq (Endpoint.writeFrame_run h (fun _ => length_echo_le status) hstate)
    have hecho := sendClose_echo fun close hclose =>
      hmessage.code close (congrArg Message.close hclose)
    rw [if_pos hreceived.symm, hecho, Message.reply?, if_pos rfl]
    exact run_bind_ok hwrite
  · obtain hclosed : State.closed = c.endpoint.state := Option.some.inj hstate
    rw [if_neg (by rw [← hclosed]; decide), Message.reply?, if_neg (by decide)]
    simp only [Option.toList_none, List.map_nil, List.append_nil, hclosed]
    rfl

/-- The frame of a message is accepted, and replied to. -/
theorem accept_run {message : Message} (key : MaskKey) (role : Role) {limit : Nat} {state : State}
    (h : c.endpoint.Connected) (hfragments : c.fragments = none)
    (hmessage : message.Deliverable limit) (hopen : state = .open ∨ state = .closeSent)
    (hstate : Endpoint.stateReceived state message.opcode = some c.endpoint.state) :
    (accept (message.frame role key)).run.run c = (.ok (some message), { c with
      endpoint := { c.endpoint with
        state := message.stateBehind state
        sent := c.endpoint.sent ++ (message.reply? state).toList.map fun reply =>
          reply.frame c.endpoint.role (c.endpoint.drawKey c.endpoint.sent.length) } }) := by
  cases message with
  | close status => exact accept_close h hmessage hstate hopen
  | ping data =>
    obtain rfl : state = c.endpoint.state := Option.some.inj hstate
    exact accept_ping _ _ h (hmessage.control rfl) hopen
  | text content =>
    obtain rfl : state = c.endpoint.state := Option.some.inj hstate
    have hnone : (Message.text content).reply? c.endpoint.state = none := rfl
    rw [accept_data _ _ hfragments (.inl rfl), hnone, Option.toList_none, List.map_nil,
      List.append_nil]
    rfl
  | binary data =>
    obtain rfl : state = c.endpoint.state := Option.some.inj hstate
    have hnone : (Message.binary data).reply? c.endpoint.state = none := rfl
    rw [accept_data _ _ hfragments (.inr rfl), hnone, Option.toList_none, List.map_nil,
      List.append_nil]
    rfl
  | pong data =>
    obtain rfl : state = c.endpoint.state := Option.some.inj hstate
    have hnone : (Message.pong data).reply? c.endpoint.state = none := rfl
    rw [hnone, Option.toList_none, List.map_nil, List.append_nil]
    rfl

/-- A message that arrived is read, and replied to. -/
theorem receive_run {message : Message} {key : MaskKey} {rest : Bytes}
    (h : c.endpoint.Connected) (hfragments : c.fragments = none)
    (hopen : c.endpoint.state = .open ∨ c.endpoint.state = .closeSent)
    (hmessage : message.Deliverable c.endpoint.limit)
    (hincoming : c.endpoint.incoming =
      { arrived := (message.frame c.endpoint.role.peer key).encode ++ rest }) :
    receive.run.run c = (.ok message, { c with
      endpoint := { c.endpoint with
        incoming := { arrived := rest }
        state := message.stateBehind c.endpoint.state
        sent := c.endpoint.sent ++ (message.reply? c.endpoint.state).toList.map fun reply =>
          reply.frame c.endpoint.role (c.endpoint.drawKey c.endpoint.sent.length) } }) := by
  have hreceive : c.endpoint.state.canReceive = true := by
    rcases hopen with hstate | hstate <;> rw [hstate] <;> rfl
  have hframe := hmessage.acceptable c.endpoint.role.peer key
  rw [Role.peer_peer] at hframe
  obtain ⟨state, hbehind⟩ : ∃ state,
      Endpoint.stateReceived c.endpoint.state message.opcode = some state := by
    rcases hopen with hstate | hstate <;> rw [hstate] <;> cases message <;> exact ⟨_, rfl⟩
  have hread := frame_run (Endpoint.readFrame_run hreceive hframe hincoming hbehind)
  -- The reply is sent by the end as it is behind the read of the frame.
  have haccept := accept_run
    (c := { c with endpoint := { c.endpoint with incoming := { arrived := rest }, state } })
    key c.endpoint.role.peer ⟨h.shut, h.peerGone⟩ hfragments hmessage hopen hbehind
  rw [receive, run_bind_ok (run_get c), messageWithin]
  exact (run_bind_ok hread).trans (run_bind_ok haccept)

end Connection

end HttpRelay.WebSocket
