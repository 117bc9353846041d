import HttpRelay.Proofs.WebSocket.FragmentOrder
import HttpRelay.Proofs.WebSocket.FrameGrammar
import HttpRelay.Proofs.WebSocket.WireRoundTrip

/-!
# Outcomes of a read

Whatever bytes arrive, a read of an open connection comes to one of a few outcomes: a message with
the reply to it, a wait, a broken transport, or a violation that the peer is told about. What was
read of a message before makes no difference to that.

* `Frame.failsAs_decode`: what can be wrong with the bytes of a frame;
* `Connection.Breaks`: the outcomes without a message;
* `Connection.Accepts`, `Connection.accepts_of_sensible`: the outcomes of one frame;
* `Connection.ReadOutcome`, `Connection.readOutcome`: the outcomes of a read.
-/

namespace HttpRelay.WebSocket

open Outcome
open Feed (FailsAs)

/-- What can be wrong with what arrives: the transport fails, or the peer breaks the protocol in a
way that it can be told about. -/
inductive Error.Incoming : Error → Prop
  | io (failure : IoFailure) : Incoming (.io failure)
  | violation {code : CloseCode} (hcode : code.isSendable = true) {reason : String}
      (hturn : ¬ OutOfTurn (.failed (.violation code reason))) : Incoming (.violation code reason)

theorem Error.incoming_peer {reason : String} (h : ¬ OutOfTurn (.failed (.peer reason))) :
    (Error.peer reason).Incoming :=
  .violation rfl h

namespace Close

/-- A code that may not be sent is no matter of the order of frames. -/
theorem not_outOfTurn_of_code (code : CloseCode) :
    ¬ OutOfTurn (.failed (.peer s!"invalid close code {code.display}")) := by
  have hfirst : (s!"invalid close code {code.display}").toList.head? = some 'i' := by
    rw [String.toList_append]
    rfl
  rintro (hsame | hsame) <;>
    rw [(Error.violation.inj (Halt.failed.inj hsame)).2] at hfirst <;>
    exact absurd hfirst (by decide)

/-- What is wrong with a close can be told. -/
theorem incoming_of_ofPayload {payload : Bytes} {error : Error}
    (h : ofPayload payload = .error error) : error.Incoming := by
  unfold ofPayload at h
  split at h
  · cases h
  · obtain rfl := Except.error.inj h
    exact .violation rfl (by decide)
  · dsimp only at h
    split at h
    · split at h
      · cases h
      · obtain rfl := Except.error.inj h
        exact .violation rfl (by decide)
    · obtain rfl := Except.error.inj h
      exact .violation rfl (not_outOfTurn_of_code _)

/-- A code that arrives may be sent as well. -/
theorem isSendable_of_ofPayload {payload : Bytes} {status : Close}
    (h : ofPayload payload = .ok (some status)) : status.code.isSendable = true := by
  unfold ofPayload at h
  split at h
  · cases h
  · cases h
  · dsimp only at h
    split at h
    next hcode =>
      split at h
      · obtain rfl := Option.some.inj (Except.ok.inj h)
        exact hcode
      · cases h
    · cases h

end Close

namespace Header

/-- No rule of a header is about the order of frames. -/
theorem not_outOfTurn_of_mem_faults :
    ∀ reason ∈ faults, ¬ OutOfTurn (.failed (.peer reason)) := by
  decide

/-- What is wrong with a header can be told. -/
theorem Refusal.incoming {error : Error} (h : Refusal error) : error.Incoming := by
  cases h with
  | short => exact .io _
  | fault hreason => exact Error.incoming_peer (not_outOfTurn_of_mem_faults _ hreason)

end Header

namespace Frame

/-- What can be wrong with the bytes of a frame. -/
theorem failsAs_decode (role : Role) (limit : Nat) :
    FailsAs (decode role limit) Error.Incoming := by
  unfold decode
  refine ((Header.failsAs_decode role).mono fun _ => Header.Refusal.incoming).bind fun header => ?_
  dsimp only
  split
  · exact Feed.failsAs_fail_bind (.violation rfl (by rintro (h | h) <;> cases h)) _
  · refine ((Header.failsAs_bytes header.length).mono
      fun _ => Header.Refusal.incoming).bind fun payload => ?_
    split
    · split
      next herror => exact Feed.failsAs_fail_bind (Close.incoming_of_ofPayload herror) _
      · exact Feed.failsAs_pure _ _
    · exact Feed.failsAs_pure _ _

/-- A frame that was read: a control frame is short, and the contents of a close make sense. -/
structure Sensible (frame : Frame) : Prop where
  control : frame.header.opcode.isControl = true →
    frame.payload.length ≤ Close.maxControlPayload
  close : frame.MakesSense

theorem sensible_of_decode {role : Role} {limit : Nat} {feed feed' : Feed} {frame : Frame}
    (h : Feed.run feed (decode role limit) = (.ok frame, feed')) : frame.Sensible where
  control hcontrol := (ensures_decode role limit feed frame feed' h hcontrol).2
  close := ensures_decode_close role limit feed frame feed' h

end Frame

namespace Endpoint

variable {e : Endpoint}

/-- An end that may read finds a frame, waits, loses its transport, or finds a violation. -/
theorem readFrame_cases (h : e.state.canReceive = true) :
    (∃ frame feed state, Feed.run e.incoming (Frame.decode e.role e.limit) = (.ok frame, feed) ∧
        stateReceived e.state frame.header.opcode = some state ∧
        readFrame.run.run e = (.ok frame, { e with incoming := feed, state })) ∨
      (∃ feed, readFrame.run.run e = (.error .starved, { e with incoming := feed })) ∨
      (∃ failure feed, readFrame.run.run e =
        (.error (.failed (.io failure)), { e with incoming := feed, state := .errored })) ∨
      ∃ code reason feed, code.isSendable = true ∧ ¬ OutOfTurn (.failed (.violation code reason)) ∧
        readFrame.run.run e =
          (.error (.failed (.violation code reason)), { e with incoming := feed }) := by
  rw [readFrame_eq, run_bind_ok (beginRead_run h)]
  rcases hdecode : Feed.run e.incoming (Frame.decode e.role e.limit) with ⟨halt | frame, feed⟩
  · have hrescue : ∀ {halt' : Halt Error} {e' : Endpoint},
        (breakRead halt : Op Frame).run.run { e with incoming := feed } = (.error halt', e') →
        finishRead.run.run e = (.error halt', e') := by
      intro halt' e' hbreak
      rw [finishRead, run_bind_ok (run_get e)]
      exact run_bind_error ((run_tryCatch_error (receive_eq hdecode)).trans hbreak)
    cases halt with
    | starved => exact .inr (.inl ⟨feed, hrescue rfl⟩)
    | failed error =>
      cases Frame.failsAs_decode e.role e.limit _ _ _ hdecode with
      | io failure => exact .inr (.inr (.inl ⟨failure, feed, hrescue rfl⟩))
      | @violation code hcode reason hturn =>
        exact .inr (.inr (.inr ⟨code, reason, feed, hcode, hturn, hrescue rfl⟩))
  · obtain ⟨state, hstate, -⟩ := exists_stateReceived h frame.header.opcode
    exact .inl ⟨frame, feed, state, rfl, hstate, finishRead_run hdecode hstate⟩

/-- A final frame that may be sent is put on the wire, unless the transport is broken. -/
theorem writeFrame_or_broken {opcode : Opcode} {payload : Bytes} {state : State}
    (hlength : opcode.isControl = true → payload.length ≤ Close.maxControlPayload)
    (hstate : stateSent e.state opcode = some state) :
    (writeFrame opcode true payload).run.run e = (.ok (), { e with
        state
        sent := e.sent ++
          [Frame.outgoing e.role (e.drawKey e.sent.length) opcode true payload] }) ∨
      (writeFrame opcode true payload).run.run e =
        (.error (.failed (.io .brokenPipe)), { e with state := .errored }) := by
  have hprepare : (prepare opcode true payload).run.run e = _ :=
    prepare_run (fun hcontrol => ⟨rfl, hlength hcontrol⟩) hstate
  rw [writeFrame_eq, run_bind_ok hprepare]
  rcases put_cases (e := { e with state })
    (Frame.outgoing e.role (e.drawKey e.sent.length) opcode true payload) with ⟨-, hput⟩ | hput
  · exact .inl hput
  · exact .inr hput

end Endpoint

namespace Connection

variable {c c' : Connection} {feed : Feed} {fragments : Option (Header × Bytes)}

/-- The connection behind reads that took some bytes, and hold some of a message. -/
def moved (c : Connection) (feed : Feed) (fragments : Option (Header × Bytes)) : Connection where
  endpoint := { c.endpoint with incoming := feed }
  fragments

/-- The connection behind the read of a message, with the reply to it. -/
def answered (c : Connection) (message : Message) (feed : Feed)
    (fragments : Option (Header × Bytes)) : Connection where
  endpoint :=
    { c.endpoint with
      incoming := feed
      state := message.stateBehind c.endpoint.state
      sent := c.endpoint.sent ++ (message.reply? c.endpoint.state).toList.map fun reply =>
        reply.frame c.endpoint.role (c.endpoint.drawKey c.endpoint.sent.length) }
  fragments

/-- A message is only ever held from its first frame on. -/
def Begun (fragments : Option (Header × Bytes)) : Prop :=
  ∀ part ∈ fragments, part.1.opcode ≠ .continuation

/-- Nothing is held once a message is let go. -/
theorem begun_none : Begun none := fun _ hpart => by cases hpart

/-- What a read without a message comes to. -/
inductive Breaks (c : Connection) : Halt Error → Connection → Prop
  /-- More bytes have to arrive. -/
  | starved (feed : Feed) {fragments : Option (Header × Bytes)}
      (hbegun : Begun c.fragments → Begun fragments) : Breaks c .starved (c.moved feed fragments)
  /-- The transport fails, and the connection with it. -/
  | broken (failure : IoFailure) (feed : Feed) {fragments : Option (Header × Bytes)}
      (hbegun : Begun c.fragments → Begun fragments) :
      Breaks c (.failed (.io failure))
        { c.moved feed fragments with
          endpoint := { (c.moved feed fragments).endpoint with state := .errored } }
  /-- The peer breaks the protocol, and is told about it. -/
  | violated {code : CloseCode} (hcode : code.isSendable = true) (reason : String) (feed : Feed)
      {fragments : Option (Header × Bytes)} (hbegun : Begun c.fragments → Begun fragments) :
      Breaks c (.failed (.violation code reason))
        { c.moved feed fragments with
          endpoint :=
            (Endpoint.failWith (.violation code reason) (c.moved feed fragments).endpoint).2 }
  /-- What was held of a message did not begin with its first frame. -/
  | misbegun (feed : Feed) (hmisbegun : ¬ Begun c.fragments) :
      Breaks c (.failed (.peer "a message cannot start with a continuation frame"))
        (c.moved feed none)

/-- Frames that completed no message make no difference to what a read comes to. -/
theorem Breaks.of_moved {halt : Halt Error} (h : (c.moved feed fragments).Breaks halt c')
    (hbegun : Begun c.fragments → Begun fragments) : c.Breaks halt c' := by
  cases h with
  | starved _ hmore => exact .starved _ (hmore ∘ hbegun)
  | broken _ _ hmore => exact .broken _ _ (hmore ∘ hbegun)
  | violated hcode _ _ hmore => exact .violated hcode _ _ (hmore ∘ hbegun)
  | misbegun feed hmisbegun => exact .misbegun feed (hmisbegun ∘ hbegun)

/-- A read that comes to its end holds messages from their first frame on, as before. -/
theorem Breaks.begun {halt : Halt Error} (h : c.Breaks halt c') (hbegun : Begun c.fragments) :
    Begun c'.fragments := by
  cases h with
  | starved _ hmore => exact hmore hbegun
  | broken _ _ hmore => exact hmore hbegun
  | violated _ _ _ hmore => exact hmore hbegun
  | misbegun => exact begun_none

/-- The connection behind the read of a frame. -/
def heard (c : Connection) (feed : Feed) (state : State) : Connection :=
  { c with endpoint := { c.endpoint with incoming := feed, state } }

theorem state_moved : (c.moved feed fragments).endpoint.state = c.endpoint.state := rfl

theorem fragments_moved : (c.moved feed fragments).fragments = fragments := rfl

theorem state_heard (state : State) : (c.heard feed state).endpoint.state = state := rfl

/-- What a frame makes of the message that is held. -/
structure Carries (frame : Frame) (before after : Option (Header × Bytes)) : Prop where
  begun : Begun before → Begun after
  order : frame.openBehind? before.isSome = some after.isSome

/-- A control frame leaves the message alone that is held. -/
theorem carries_control {frame : Frame} (h : frame.header.opcode.isControl = true)
    (fragments : Option (Header × Bytes)) : Carries frame fragments fragments :=
  ⟨id, Frame.openBehind?_control h⟩

/-- What a frame comes to once it is read. -/
inductive Accepts (c : Connection) (feed : Feed) (frame : Frame) :
    Except (Halt Error) (Option Message) × Connection → Prop
  /-- It completes a message. -/
  | message (message : Message) {fragments : Option (Header × Bytes)}
      (hcarries : Carries frame c.fragments fragments)
      (hclose : frame.header.opcode = .close → message.opcode = .close) :
      Accepts c feed frame (.ok (some message), c.answered message feed fragments)
  /-- It brings a part of a message. -/
  | fragment {fragments : Option (Header × Bytes)} (hcarries : Carries frame c.fragments fragments)
      (hclose : frame.header.opcode ≠ .close) :
      Accepts c feed frame (.ok none, c.moved feed fragments)
  /-- It ends the read, on account of its order only where it may not come. -/
  | halt {halt : Halt Error} {c' : Connection} (hbreaks : c.Breaks halt c')
      (hturn : OutOfTurn halt → frame.openBehind? c.fragments.isSome = none) :
      Accepts c feed frame (.error halt, c')

/-- A read that may begin finds a frame, or comes to its end. -/
theorem frame_cases (h : c.endpoint.state.canReceive = true) :
    (∃ frame feed state,
        Feed.run c.endpoint.incoming (Frame.decode c.endpoint.role c.endpoint.limit) =
          (.ok frame, feed) ∧
        Endpoint.stateReceived c.endpoint.state frame.header.opcode = some state ∧
        Connection.frame.run.run c = (.ok frame, c.heard feed state)) ∨
      ∃ halt c', c.Breaks halt c' ∧ ¬ OutOfTurn halt ∧
        Connection.frame.run.run c = (.error halt, c') := by
  rcases Endpoint.readFrame_cases h with ⟨frame, feed, state, hdecode, hstate, hrun⟩ |
    ⟨feed, hrun⟩ | ⟨failure, feed, hrun⟩ | ⟨code, reason, feed, hcode, hturn, hrun⟩
  · exact .inl ⟨frame, feed, state, hdecode, hstate, frame_run hrun⟩
  · refine .inr ⟨_, _, .starved feed id, by decide, ?_⟩
    rw [Connection.frame, run_tryCatch_error (lift_eq hrun)]
    rfl
  · refine .inr ⟨_, _, .broken failure feed id, not_outOfTurn_io failure, ?_⟩
    -- the read has ended the connection already, so that there is nothing to tell
    rw [Connection.frame, run_tryCatch_error (lift_eq hrun)]
    exact fail_eq _
  · refine .inr ⟨_, _, .violated hcode reason feed id, hturn, ?_⟩
    rw [Connection.frame, run_tryCatch_error (lift_eq hrun)]
    exact fail_eq _

/-- Behind a message that gets no reply. -/
theorem answered_of_none {message : Message} (h : message.reply? c.endpoint.state = none) :
    c.answered message feed fragments =
      { endpoint :=
          { c.endpoint with
            incoming := feed
            state := message.stateBehind c.endpoint.state }
        fragments } := by
  rw [answered, h, Option.toList_none, List.map_nil, List.append_nil]

/-- Behind a message and the reply to it. -/
theorem answered_of_some {message reply : Message}
    (h : message.reply? c.endpoint.state = some reply) :
    c.answered message feed fragments =
      { endpoint :=
          { c.endpoint with
            incoming := feed
            state := message.stateBehind c.endpoint.state
            sent := c.endpoint.sent ++ [reply.frame c.endpoint.role
              (c.endpoint.drawKey c.endpoint.sent.length)] }
        fragments } := by
  rw [answered, h, Option.toList_some, List.map_singleton]

/-- The connection behind a message is as the reply leaves it. -/
theorem Accepts.of_answered {frame : Frame} {message : Message}
    (h : c.answered message feed fragments = c') (hcarries : Carries frame c.fragments fragments)
    (hclose : frame.header.opcode = .close → message.opcode = .close) :
    c.Accepts feed frame (.ok (some message), c') :=
  h ▸ .message message hcarries hclose

/-- The transport may fail the reply to a frame. -/
theorem Accepts.of_broken {frame : Frame} {halt : Halt Error} {failure : IoFailure}
    (hbreaks : c.Breaks halt c') (hhalt : halt = .failed (.io failure)) :
    c.Accepts feed frame (.error halt, c') :=
  .halt hbreaks fun hturn => absurd (hhalt ▸ hturn) (not_outOfTurn_io failure)

/-- A ping is answered while the end may send. -/
theorem accepts_ping {header : Header} {payload : Bytes} (hopcode : header.opcode = .ping)
    (hlength : payload.length ≤ Close.maxControlPayload) (feed : Feed) :
    c.Accepts feed ⟨header, payload⟩
      ((accept ⟨header, payload⟩).run.run (c.moved feed c.fragments)) := by
  have hcarries : Carries ⟨header, payload⟩ c.fragments c.fragments :=
    carries_control (by rw [hopcode]; rfl) _
  have hclose : header.opcode = .close → Opcode.ping = .close := fun h => hopcode.symm.trans h
  simp only [accept, hopcode]
  rw [run_bind_ok (run_get _), state_moved]
  by_cases hsend : c.endpoint.state.canSend = true
  · have hstate : Endpoint.stateSent c.endpoint.state .pong = some c.endpoint.state := by
      rw [Endpoint.stateSent, if_neg (by decide), if_pos hsend]
    rw [if_pos hsend]
    rcases Endpoint.writeFrame_or_broken (e := (c.moved feed c.fragments).endpoint)
      (fun _ => hlength) hstate with hrun | hrun
    · have hreply : (Message.ping payload).reply? c.endpoint.state = some (.pong payload) :=
        if_pos hsend
      rw [run_bind_ok (lift_eq hrun), run_pure]
      exact .of_answered (answered_of_some hreply) hcarries hclose
    · rw [run_bind_error (lift_eq hrun)]
      exact .of_broken (.broken _ _ id) rfl
  · have hreply : (Message.ping payload).reply? c.endpoint.state = none := if_neg hsend
    rw [if_neg hsend, run_pure]
    exact .of_answered (answered_of_none hreply) hcarries hclose

/-- A close is echoed if it is the first of the two. -/
theorem accepts_close {header : Header} {payload : Bytes} {status : Option Close} {state : State}
    (hopcode : header.opcode = .close) (hstatus : Close.ofPayload payload = .ok status)
    (hstate : State.afterCloseReceived c.endpoint.state = some state) (feed : Feed) :
    c.Accepts feed ⟨header, payload⟩
      ((accept ⟨header, payload⟩).run.run (c.heard feed state)) := by
  have hcarries : Carries ⟨header, payload⟩ c.fragments c.fragments :=
    carries_control (by rw [hopcode]; rfl) _
  simp only [accept, hopcode, hstatus]
  rw [run_bind_ok (run_get _), state_heard]
  cases hbefore : c.endpoint.state with
  | «open» =>
    obtain rfl : State.closeReceived = state := by
      rw [hbefore] at hstate
      exact Option.some.inj hstate
    have hreply : (Message.close status).reply? c.endpoint.state = some (.close
        (status.map fun status => { status with reason := "" })) := by
      rw [hbefore]
      rfl
    have hcode (close : Close) (hclose : status = some close) : close.code.isSendable = true :=
      Close.isSendable_of_ofPayload (hclose ▸ hstatus)
    have hecho := sendClose_echo hcode
    have hsent : Endpoint.stateSent (c.heard feed .closeReceived).endpoint.state .close =
        some .closed := rfl
    rw [if_pos rfl, hecho]
    rcases Endpoint.writeFrame_or_broken (fun _ => length_echo_le status) hsent with hrun | hrun
    · rw [run_bind_ok (lift_eq hrun), run_pure]
      exact .of_answered (answered_of_some hreply) hcarries fun _ => rfl
    · rw [run_bind_error (lift_eq hrun)]
      exact .of_broken (.broken _ _ id) rfl
  | closeSent =>
    obtain rfl : State.closed = state := by
      rw [hbefore] at hstate
      exact Option.some.inj hstate
    have hreply : (Message.close status).reply? c.endpoint.state = none := by
      rw [hbefore]
      rfl
    rw [if_neg (by decide), run_pure]
    exact .of_answered (answered_of_none hreply) hcarries fun _ => rfl
  | _ =>
    rw [hbefore] at hstate
    cases hstate

/-- A data message gets no reply, and changes no state. -/
theorem answered_data {message : Message}
    (h : message.opcode = .text ∨ message.opcode = .binary) :
    c.answered message feed fragments = c.moved feed fragments := by
  cases message with
  | text _ | binary _ => exact answered_of_none rfl
  | _ => rcases h with h | h <;> cases h

/-- A payload makes the message that its header announces, if a text is in UTF-8. -/
theorem complete_cases (header : Header) (payload : Bytes) :
    (∃ message : Message, (message.opcode = .text ∨ message.opcode = .binary) ∧
        (complete header payload).run.run c = (.ok message, c)) ∨
      ∃ reason, (complete header payload).run.run c =
        (fail (.violation .dataFormat reason) : Op Message).run.run c := by
  rw [complete]
  split
  · split
    next content _ => exact .inl ⟨.text content, .inl rfl, rfl⟩
    next => exact .inr ⟨_, rfl⟩
  · exact .inl ⟨.binary payload, .inr rfl, rfl⟩

/-- A frame that is the last of its message completes it, or breaks the protocol. -/
theorem accepts_complete {frame : Frame} (header : Header) (payload : Bytes) (feed : Feed)
    (hcarries : Carries frame c.fragments fragments) (hclose : frame.header.opcode ≠ .close) :
    c.Accepts feed frame ((do return some (← complete header payload) :
      Op (Option Message)).run.run (c.moved feed fragments)) := by
  rcases complete_cases (c := c.moved feed fragments) header payload with
    ⟨message, hdata, hrun⟩ | ⟨reason, hrun⟩
  · rw [run_bind_ok hrun, run_pure]
    exact .of_answered (answered_data hdata) hcarries fun h => absurd h hclose
  · rw [fail_eq] at hrun
    rw [run_bind_error hrun]
    refine .halt (.violated rfl _ _ hcarries.begun) ?_
    rintro (hturn | hturn) <;> cases hturn

/-- A data frame begins a message, and none may be held by then. -/
theorem accepts_first {header : Header} (payload : Bytes)
    (hopcode : header.opcode = .text ∨ header.opcode = .binary) (feed : Feed) :
    c.Accepts feed ⟨header, payload⟩
      ((accept ⟨header, payload⟩).run.run (c.moved feed c.fragments)) := by
  have haccept : accept ⟨header, payload⟩ = (do
      if (← get).fragments.isSome then
        fail (.peer "new data frame while a fragmented message is open")
      if header.fin then return some (← complete header payload)
      modify ({ · with fragments := some (header, payload) })
      return none) := by
    rcases hopcode with hopcode | hopcode <;> simp only [accept, hopcode]
  have horder (isOpen : Bool) : Frame.openBehind? isOpen ⟨header, payload⟩ =
      if isOpen then none else some !header.fin := by
    rcases hopcode with hopcode | hopcode <;> simp only [Frame.openBehind?, hopcode]
  have hclose : header.opcode ≠ .close := by
    rcases hopcode with hopcode | hopcode <;> rw [hopcode] <;> decide
  rw [haccept, run_bind_ok (run_get _)]
  dsimp only
  -- whether a message is held is whether one is open
  cases hheld : c.fragments with
  | some part =>
    have hrefused : Frame.openBehind? c.fragments.isSome ⟨header, payload⟩ = none := by
      rw [horder, hheld]
      rfl
    exact .halt (.violated rfl _ _ fun hbegun => hheld ▸ hbegun) fun _ => hrefused
  | none =>
    rw [if_neg (by exact Bool.false_ne_true)]
    by_cases hfin : header.fin = true
    · rw [if_pos hfin]
      refine accepts_complete header payload feed ⟨fun _ => begun_none, ?_⟩ hclose
      rw [horder, hheld, hfin]
      rfl
    · rw [if_neg hfin, run_bind_ok (run_modify _ _), run_pure]
      refine @Accepts.fragment c feed _ (some (header, payload)) ⟨fun _ part hpart => ?_, ?_⟩
        hclose
      · obtain rfl := Option.mem_some.mp hpart
        rcases hopcode with hopcode | hopcode <;> rw [hopcode] <;> decide
      · rw [horder, hheld, Bool.eq_false_iff.mpr hfin]
        rfl

/-- A continuation goes on with the message that is held, and there has to be one. -/
theorem accepts_continuation {header : Header} (payload : Bytes)
    (hopcode : header.opcode = .continuation) (feed : Feed) :
    c.Accepts feed ⟨header, payload⟩
      ((accept ⟨header, payload⟩).run.run (c.moved feed c.fragments)) := by
  have horder (isOpen : Bool) : Frame.openBehind? isOpen ⟨header, payload⟩ =
      if isOpen then some !header.fin else none := by
    simp only [Frame.openBehind?, hopcode]
  have hclose : header.opcode ≠ .close := by
    rw [hopcode]
    decide
  simp only [accept, hopcode]
  rw [run_bind_ok (run_get _), fragments_moved]
  cases hheld : c.fragments with
  | none =>
    have hrefused : Frame.openBehind? c.fragments.isSome ⟨header, payload⟩ = none := by
      rw [horder, hheld]
      rfl
    exact .halt (.violated rfl _ _ fun _ => begun_none) fun _ => hrefused
  | some part =>
    obtain ⟨first, soFar⟩ := part
    dsimp only
    -- what was held is let go first, and held again only if the message is to go on
    have hdropped : (modify ({ · with fragments := none }) : Op Unit).run.run
        (c.moved feed (some (first, soFar))) = (.ok (), c.moved feed none) := rfl
    rw [run_bind_ok hdropped, run_bind_ok (run_get _)]
    by_cases hlong : (c.moved feed none).endpoint.limit < soFar.length + payload.length
    · rw [if_pos hlong, run_bind_error (fail_eq _)]
      refine .halt (.violated rfl _ _ fun _ => begun_none) ?_
      rintro (hturn | hturn) <;> cases hturn
    rw [if_neg hlong]
    by_cases hfin : header.fin = true
    · rw [if_pos hfin, Header.ofFragments]
      by_cases hfirst : first.opcode = .continuation
      · rw [if_pos hfirst]
        refine .halt (.misbegun feed fun hbegun => hbegun (first, soFar) hheld hfirst) ?_
        exact fun hturn => absurd hturn (by decide)
      · rw [if_neg hfirst]
        refine accepts_complete _ _ feed ⟨fun _ => begun_none, ?_⟩ hclose
        rw [horder, hheld, hfin]
        rfl
    · rw [if_neg hfin, run_bind_ok (run_modify _ _), run_pure]
      refine @Accepts.fragment c feed _ (some (first, soFar ++ payload))
        ⟨fun hbegun part hpart => ?_, ?_⟩ hclose
      · obtain rfl := Option.mem_some.mp hpart
        exact hbegun (first, soFar) hheld
      · rw [horder, hheld, Bool.eq_false_iff.mpr hfin]
        rfl

/-- What a frame comes to that a read has found. -/
theorem accepts_of_sensible {frame : Frame} {state : State} (hframe : frame.Sensible)
    (hstate : Endpoint.stateReceived c.endpoint.state frame.header.opcode = some state)
    (feed : Feed) : c.Accepts feed frame ((accept frame).run.run (c.heard feed state)) := by
  obtain ⟨header, payload⟩ := frame
  by_cases hclose : header.opcode = .close
  · obtain ⟨status, hstatus⟩ := hframe.close hclose
    rw [Endpoint.stateReceived, if_pos hclose] at hstate
    exact accepts_close hclose hstatus hstate feed
  · -- a frame that is no close leaves the state alone
    rw [Endpoint.stateReceived, if_neg hclose] at hstate
    have hsame : c.heard feed state = c.moved feed c.fragments := by
      rw [← Option.some.inj hstate]
      rfl
    rw [hsame]
    cases hopcode : header.opcode with
    | close => exact absurd hopcode hclose
    | ping =>
      have hlength := hframe.control (by rw [hopcode]; rfl)
      exact accepts_ping hopcode hlength feed
    | pong =>
      simp only [accept, hopcode, run_pure]
      refine .of_answered (answered_of_none rfl) (carries_control ?_ _) fun h => ?_
      · rw [hopcode]
        rfl
      · exact absurd h hclose
    | text => exact accepts_first payload (.inl hopcode) feed
    | binary => exact accepts_first payload (.inr hopcode) feed
    | continuation => exact accepts_continuation payload hopcode feed

/-- A read of some frames gives a message, or comes to its end without one. -/
theorem messageWithin_cases (h : c.endpoint.state.canReceive = true) (frames : Nat) :
    (∃ message feed fragments, (Begun c.fragments → Begun fragments) ∧
        (messageWithin frames).run.run c = (.ok message, c.answered message feed fragments)) ∨
      ∃ halt c', c.Breaks halt c' ∧ (messageWithin frames).run.run c = (.error halt, c') := by
  induction frames generalizing c with
  | zero => exact .inr ⟨_, _, .starved c.endpoint.incoming id, rfl⟩
  | succ frames ih =>
    rw [messageWithin]
    rcases frame_cases h with ⟨frame, feed, state, hdecode, hstate, hread⟩ |
      ⟨halt, c', hbreaks, -, hread⟩
    · rw [run_bind_ok hread]
      have haccepts := accepts_of_sensible (Frame.sensible_of_decode hdecode) hstate feed
      generalize haccept : (accept frame).run.run (c.heard feed state) = result at haccepts
      cases haccepts with
      | @message message fragments hcarries =>
        exact .inl ⟨message, feed, fragments, hcarries.begun,
          by rw [run_bind_ok haccept, run_pure]⟩
      | @fragment fragments hcarries =>
        rw [run_bind_ok haccept]
        -- the rest of the read sees the same connection, but for what was read
        rcases ih (c := c.moved feed fragments) h with
          ⟨message, feed', fragments', hbegun', hrun⟩ | ⟨halt, c', hbreaks, hrun⟩
        · exact .inl ⟨message, feed', fragments', hbegun' ∘ hcarries.begun, hrun⟩
        · exact .inr ⟨halt, c', hbreaks.of_moved hcarries.begun, hrun⟩
      | @halt halt c' hbreaks => exact .inr ⟨halt, c', hbreaks, run_bind_error haccept⟩
    · exact .inr ⟨halt, c', hbreaks, run_bind_error hread⟩

/-- What a read comes to. -/
inductive ReadOutcome (c : Connection) : Except (Halt Error) Message × Connection → Prop
  /-- It gives a message. -/
  | message {message : Message} {feed : Feed} {fragments : Option (Header × Bytes)}
      (hreceive : c.endpoint.state.canReceive = true)
      (hbegun : Begun c.fragments → Begun fragments) :
      ReadOutcome c (.ok message, c.answered message feed fragments)
  /-- It comes to its end without one. -/
  | breaks {halt : Halt Error} {c' : Connection} (hreceive : c.endpoint.state.canReceive = true)
      (hbreaks : c.Breaks halt c') : ReadOutcome c (.error halt, c')
  /-- Nothing may be read. -/
  | refused (hreceive : c.endpoint.state.canReceive = false) :
      ReadOutcome c (.error (.failed (.notPermitted c.endpoint.state)),
        { c with endpoint :=
          (Endpoint.failWith (.notPermitted c.endpoint.state) c.endpoint).2 })

/-- Every read comes to one of its outcomes. -/
theorem readOutcome (c : Connection) : c.ReadOutcome (c.run receive) := by
  rw [run]
  cases hreceive : c.endpoint.state.canReceive with
  | false =>
    rw [receive_of_not_canReceive hreceive]
    exact .refused hreceive
  | true =>
    rw [receive, run_bind_ok (run_get c)]
    rcases messageWithin_cases hreceive (c.endpoint.incoming.arrived.length + 1) with
      ⟨message, feed, fragments, hbegun, hrun⟩ | ⟨halt, c', hbreaks, hrun⟩
    · rw [hrun]
      exact .message hreceive hbegun
    · rw [hrun]
      exact .breaks hreceive hbreaks

end Connection

end HttpRelay.WebSocket
