import HttpRelay.Proofs.Text.Utf8Decoding
import HttpRelay.Proofs.WebSocket.FrameGrammar
import HttpRelay.Proofs.WebSocket.Violations

/-!
# No message is longer than the limit

A connection bounds what it takes in twice: a frame by what its header announces, before any of
its payload is read, and a message in fragments by what is held of it and what comes to it. No
message gets past the two checks together.

* `Endpoint.Sends`, `Endpoint.readFrame_reads`: what the operations of an end leave alone;
* `Connection.Within`: a connection that holds no more of a message than its limit;
* `Connection.keeps_accept`: a frame that fits leaves a connection so, whatever it comes to;
* `Connection.Between`: where a read looks for its next frame;
* `Connection.size_limited`: all of it, behind any events.
-/

namespace HttpRelay.WebSocket

open Outcome

namespace Endpoint

variable {e : Endpoint}

/-- An end behind some frames that it sent, or could not send: only its state and what was sent
are new. -/
def Sends (e e' : Endpoint) : Prop := ∃ state sent, e' = { e with state, sent }

theorem sends_transition (e : Endpoint) (next : State → Option State) :
    e.Sends ((transition next).run.run e).2 := by
  rw [transition_eq]
  split
  · exact ⟨_, e.sent, rfl⟩
  · exact ⟨e.state, e.sent, rfl⟩

theorem sends_writeFrame (e : Endpoint) (opcode : Opcode) (fin : Bool) (payload : Bytes) :
    e.Sends ((writeFrame opcode fin payload).run.run e).2 := by
  rw [writeFrame_eq]
  rcases prepare_cases (e := e) opcode fin payload with ⟨error, hprepare⟩ |
    ⟨state, -, -, hprepare⟩
  · rw [run_bind_error hprepare]
    exact ⟨e.state, e.sent, rfl⟩
  · rw [run_bind_ok hprepare]
    rcases put_cases (e := { e with state })
      (Frame.outgoing e.role (e.drawKey e.sent.length) opcode fin payload) with ⟨-, hput⟩ | hput
    · rw [hput]
      exact ⟨_, _, rfl⟩
    · rw [hput]
      exact ⟨_, _, rfl⟩

theorem sends_sendClose (e : Endpoint) (code : CloseCode) (reason : String) :
    e.Sends ((sendClose code reason).run.run e).2 := by
  rw [sendClose]
  split
  · exact e.sends_writeFrame _ _ _
  · exact ⟨e.state, e.sent, rfl⟩

theorem sends_failWith (e : Endpoint) (error : Error) : e.Sends (failWith error e).2 := by
  have hrun := failWith_run (e := e) error
  change e.Sends ((failWith error).run e).2
  rcases beginFail_cases (e := e) error with ⟨state, -, hbegin⟩ |
    ⟨state, code, reason, payload, -, -, -, hbegin⟩ <;> rw [hrun, hbegin]
  · exact ⟨state, e.sent, rfl⟩
  · rcases endFail_cases (e := { e with state })
      (Frame.outgoing e.role (e.drawKey e.sent.length) .close true payload) with hend | hend
    · exact ⟨_, _, congrArg Prod.snd hend⟩
    · exact ⟨_, _, congrArg Prod.snd hend⟩

/-- Nothing more is read on account of an error. -/
theorem incoming_failWith (e : Endpoint) (error : Error) :
    (failWith error e).2.incoming = e.incoming := by
  obtain ⟨state, sent, hbehind⟩ := e.sends_failWith error
  rw [hbehind]

/-- A read changes what is left to read, and the state. -/
theorem readFrame_reads (e : Endpoint) :
    ∃ incoming state, (readFrame.run.run e).2 = { e with incoming, state } := by
  cases hreceive : e.state.canReceive with
  | true =>
    rcases readFrame_cases hreceive with ⟨frame, feed, state, -, -, hrun⟩ | ⟨feed, hrun⟩ |
      ⟨failure, feed, hrun⟩ | ⟨code, reason, feed, -, -, hrun⟩ <;> rw [hrun]
    · exact ⟨feed, state, rfl⟩
    · exact ⟨feed, e.state, rfl⟩
    · exact ⟨feed, .errored, rfl⟩
    · exact ⟨feed, e.state, rfl⟩
  | false =>
    rw [readFrame_refused hreceive]
    exact ⟨e.incoming, e.state, rfl⟩

/-- What is wrong with the bytes of a frame is found by the read of it. -/
theorem readFrame_violated {code : CloseCode} {reason : String} {feed : Feed}
    (hreceive : e.state.canReceive = true)
    (hdecode : Feed.run e.incoming (Frame.decode e.role e.limit) =
      (.error (.failed (.violation code reason)), feed)) :
    readFrame.run.run e =
      (.error (.failed (.violation code reason)), { e with incoming := feed }) := by
  have hcatch : (tryCatch (receive (Frame.decode e.role e.limit)) breakRead).run.run e =
      (.error (.failed (.violation code reason)), { e with incoming := feed }) := by
    rw [run_tryCatch_error (receive_eq hdecode)]
    rfl
  rw [readFrame_eq, run_bind_ok (beginRead_run hreceive), finishRead, run_bind_ok (run_get e),
    run_bind_error hcatch]

end Endpoint

/-- A data frame that may come where it does: a continuation if a message is held, and the first
frame of one otherwise. -/
structure Header.InTurn (header : Header) (c : Connection) : Prop where
  data : header.opcode.isControl = false
  order : header.opcode = .continuation ↔ c.fragments.isSome = true

/-- A message that is no longer than a limit, if it carries data. -/
def Message.IsWithin (message : Message) (limit : Nat) : Prop :=
  message.opcode = .text ∨ message.opcode = .binary → message.payload.length ≤ limit

namespace Connection

variable {c c' d : Connection} {limit : Nat}

/-- What is held of a message in fragments. -/
def held (c : Connection) : Bytes := (c.fragments.map Prod.snd).getD []

/-- A connection with a limit that holds no more of a message than that. -/
structure Within (limit : Nat) (c : Connection) : Prop where
  limit_eq : c.endpoint.limit = limit
  held_le : c.held.length ≤ limit

section Invariant

theorem keeps_lift {α : Type} {op : Endpoint.Op α}
    (h : ∀ e, (op.run.run e).2.limit = e.limit) : Keeps (Within limit) (lift op) fun _ => True := by
  intro c hc
  refine ⟨⟨?_, hc.held_le⟩, fun _ _ => trivial⟩
  exact (h c.endpoint).trans hc.limit_eq

theorem keeps_sends {op : Endpoint.Op Unit} (h : ∀ e : Endpoint, e.Sends (op.run.run e).2) :
    Keeps (Within limit) (lift op) fun _ => True := by
  refine keeps_lift fun e => ?_
  obtain ⟨state, sent, hbehind⟩ := h e
  rw [hbehind]

/-- A failure gives no value. -/
theorem keeps_fail {α : Type} (error : Error) :
    Keeps (Within limit) (fail error : Op α) fun _ => False := by
  refine (keeps_modify fun c hc => ⟨?_, hc.held_le⟩).bind fun _ _ => keeps_throw _ _
  obtain ⟨state, sent, hbehind⟩ := Endpoint.sends_failWith c.endpoint error
  rw [hbehind]
  exact hc.limit_eq

/-- A read finds only frames that fit. -/
theorem keeps_readFrame :
    Keeps (Within limit) (lift Endpoint.readFrame) fun frame => frame.payload.length ≤ limit := by
  intro c hc
  refine ⟨⟨?_, hc.held_le⟩, fun frame hframe => ?_⟩
  · obtain ⟨incoming, state, hbehind⟩ := c.endpoint.readFrame_reads
    exact (congrArg Endpoint.limit hbehind).trans hc.limit_eq
  · have hread : (Endpoint.readFrame.run.run c.endpoint).1 = .ok frame := hframe
    cases hreceive : c.endpoint.state.canReceive with
    | true =>
      rcases Endpoint.readFrame_cases hreceive with ⟨other, feed, state, hdecode, -, hrun⟩ |
        ⟨feed, hrun⟩ | ⟨failure, feed, hrun⟩ | ⟨code, reason, feed, -, -, hrun⟩ <;>
        rw [hrun] at hread <;> cases hread
      rw [← hc.limit_eq]
      exact Frame.ensures_decode_length _ _ _ _ _ hdecode
    | false =>
      rw [Endpoint.readFrame_refused hreceive] at hread
      cases hread

theorem keeps_frame : Keeps (Within limit) frame fun frame => frame.payload.length ≤ limit := by
  refine keeps_readFrame.tryCatch fun halt => ?_
  cases halt with
  | failed error => exact (keeps_fail error).mono fun _ hfalse => hfalse.elim
  | starved => exact keeps_throw _ _

/-- A payload that is short enough makes a message that is. -/
theorem keeps_complete (header : Header) {payload : Bytes} (h : payload.length ≤ limit) :
    Keeps (Within limit) (complete header payload) (Message.IsWithin · limit) := by
  rw [complete]
  split
  · split
    next content hcontent =>
      refine keeps_pure fun _ => ?_
      rwa [Message.payload, Text.Utf8.ofText_of_decode? hcontent]
    next => exact (keeps_fail _).mono fun _ hfalse => hfalse.elim
  · exact keeps_pure fun _ => h

/-- An answer to a frame: a message within a limit, if it completes one. -/
def AnswersWithin (limit : Nat) (answer : Option Message) : Prop :=
  ∀ message ∈ answer, message.IsWithin limit

theorem answersWithin_none : AnswersWithin limit none := fun _ hmessage => nomatch hmessage

theorem answersWithin_some {message : Message} (h : message.IsWithin limit) :
    AnswersWithin limit (some message) :=
  fun _ hother => Option.mem_some.mp hother ▸ h

/-- What is no data message is within any limit. -/
theorem answersWithin_control {message : Message} (h : message.opcode.isControl = true) :
    AnswersWithin limit (some message) := by
  refine answersWithin_some fun hdata => ?_
  rcases hdata with hdata | hdata <;> rw [hdata] at h <;> cases h

/-- The last frame of a message completes it. -/
theorem keeps_completed (header : Header) {payload : Bytes} (h : payload.length ≤ limit) :
    Keeps (Within limit) (do return some (← complete header payload)) (AnswersWithin limit) :=
  (keeps_complete header h).bind fun _ hmessage => keeps_pure (answersWithin_some hmessage)

/-- Any other frame of a message is held, with what was held before. -/
theorem keeps_hold (first : Header) {soFar : Bytes} (h : soFar.length ≤ limit) :
    Keeps (Within limit) (do
      modify ({ · with fragments := some (first, soFar) })
      return none : Op (Option Message)) (AnswersWithin limit) :=
  (keeps_modify fun _ hc => ⟨hc.limit_eq, h⟩).bind fun _ _ => keeps_pure answersWithin_none

theorem keeps_first {header : Header} {payload : Bytes}
    (hopcode : header.opcode = .text ∨ header.opcode = .binary) (h : payload.length ≤ limit) :
    Keeps (Within limit) (accept ⟨header, payload⟩) (AnswersWithin limit) := by
  have haccept : accept ⟨header, payload⟩ = (do
      if (← get).fragments.isSome then
        fail (.peer "new data frame while a fragmented message is open")
      if header.fin then return some (← complete header payload)
      modify ({ · with fragments := some (header, payload) })
      return none) := by
    rcases hopcode with hopcode | hopcode <;> simp only [accept, hopcode]
  rw [haccept]
  refine keeps_get_bind fun c hc => ?_
  dsimp only
  split
  · exact (keeps_fail _).bind fun _ hfalse => hfalse.elim
  · split
    · exact keeps_completed header h
    · exact keeps_hold header h

/-- What is held is let go before a continuation is looked at, and held again only if both are
within the limit together. -/
theorem keeps_continuation {header : Header} (payload : Bytes)
    (hopcode : header.opcode = .continuation) :
    Keeps (Within limit) (accept ⟨header, payload⟩) (AnswersWithin limit) := by
  simp only [accept, hopcode]
  refine keeps_get_bind fun c hc => ?_
  split
  next first soFar hheld =>
    refine (keeps_modify fun c hc => ⟨hc.limit_eq, Nat.zero_le _⟩).bind fun _ _ => ?_
    refine keeps_get_bind fun c hc => ?_
    rw [hc.limit_eq]
    split
    · exact (keeps_fail _).bind fun _ hfalse => hfalse.elim
    next hfits =>
      have hwhole : (soFar ++ payload).length ≤ limit := by
        rw [List.length_append]
        exact Nat.le_of_not_lt hfits
      split
      · split
        · exact keeps_completed _ hwhole
        · exact (keeps_throw _ fun _ => False).bind fun _ hfalse => hfalse.elim
      · exact keeps_hold first hwhole
  next => exact (keeps_fail _).mono fun _ hfalse => hfalse.elim

/-- A frame that fits leaves a connection within its limit, and completes no message that is
longer. -/
theorem keeps_accept {frame : Frame} (h : frame.payload.length ≤ limit) :
    Keeps (Within limit) (accept frame) (AnswersWithin limit) := by
  obtain ⟨header, payload⟩ := frame
  cases hopcode : header.opcode with
  | text => exact keeps_first (.inl hopcode) h
  | binary => exact keeps_first (.inr hopcode) h
  | continuation => exact keeps_continuation payload hopcode
  | ping =>
    simp only [accept, hopcode]
    refine keeps_get_bind fun c hc => ?_
    split
    · exact (keeps_sends fun e => e.sends_writeFrame .pong true payload).bind fun _ _ =>
        keeps_pure (answersWithin_control rfl)
    · exact keeps_pure (answersWithin_control rfl)
  | pong =>
    simp only [accept, hopcode]
    exact keeps_pure (answersWithin_control rfl)
  | close =>
    simp only [accept, hopcode]
    split
    · exact keeps_throw _ _
    · refine keeps_get_bind fun c hc => ?_
      split
      · exact (keeps_sends fun e => e.sends_sendClose _ "").bind fun _ _ =>
          keeps_pure (answersWithin_control rfl)
      · exact keeps_pure (answersWithin_control rfl)

theorem keeps_messageWithin (frames : Nat) :
    Keeps (Within limit) (messageWithin frames) (Message.IsWithin · limit) := by
  induction frames with
  | zero => exact keeps_throw _ _
  | succ frames ih =>
    rw [messageWithin]
    refine keeps_frame.bind fun frame hframe => (keeps_accept hframe).bind fun answer hanswer => ?_
    split
    next message => exact keeps_pure (hanswer message rfl)
    next => exact ih

theorem keeps_receive : Keeps (Within limit) receive (Message.IsWithin · limit) :=
  keeps_get_bind fun _ _ => keeps_messageWithin _

/-- Whatever is called, a connection stays within its limit. -/
theorem keeps_call (call : Call) : Keeps (Within limit) call.op fun _ => True := by
  cases call with
  | opened => exact keeps_sends fun e => e.sends_transition _
  | receive => exact keeps_receive.bind fun _ _ => keeps_pure trivial
  | close code reason => exact keeps_sends fun e => e.sends_sendClose code reason
  | send message =>
    cases message with
    | close status => cases status <;> exact keeps_sends fun e => e.sends_sendClose _ _
    | _ => exact keeps_sends fun e => e.sends_writeFrame _ _ _

theorem Within.meet (h : c.Within limit) (event : Event) : (c.meet event).Within limit := by
  cases event with
  | call call => exact (keeps_call call c h).1
  | arrive | hangUp => exact ⟨h.limit_eq, h.held_le⟩

theorem Within.follow (h : c.Within limit) (events : List Event) :
    (c.follow events).Within limit := by
  induction events generalizing c with
  | nil => exact h
  | cons event events ih => exact ih (h.meet event)

end Invariant

section Course

/-- Where a read looks for its next frame: where it begins, and behind each frame that completes
no message. -/
inductive Between (c : Connection) : Connection → Prop
  | start : Between c c
  | next {d read d' : Connection} {frame : Frame} (h : Between c d)
      (hframe : Connection.frame.run.run d = (.ok frame, read))
      (haccept : (accept frame).run.run read = (.ok none, d')) : Between c d'

/-- A frame that completes no message is read and taken in within the limit. -/
theorem Within.between (h : c.Within limit) (hbetween : c.Between d) : d.Within limit := by
  induction hbetween with
  | start => exact h
  | next _ hframe haccept ih =>
    obtain ⟨hread, hfits⟩ := keeps_frame _ ih
    rw [hframe] at hread hfits
    have htaken := (keeps_accept (hfits _ rfl) _ hread).1
    rwa [haccept] at htaken

/-- A frame that is read leaves less to read. -/
theorem length_lt_of_frame {frame : Frame} {read : Connection}
    (hframe : Connection.frame.run.run d = (.ok frame, read))
    (haccept : (accept frame).run.run read = (.ok none, c')) :
    c'.endpoint.incoming.arrived.length < d.endpoint.incoming.arrived.length := by
  cases hreceive : d.endpoint.state.canReceive with
  | false =>
    rw [frame_refused hreceive] at hframe
    cases (Prod.mk.inj hframe).1
  | true =>
    rcases frame_cases hreceive with ⟨found, feed, state, hdecode, hstate, hrun⟩ |
      ⟨halt, _, -, -, hrun⟩ <;> rw [hrun] at hframe
    · obtain ⟨hsame, rfl⟩ := Prod.mk.inj hframe
      obtain rfl := Except.ok.inj hsame
      have haccepts := accepts_of_sensible (Frame.sensible_of_decode hdecode) hstate feed
      rw [haccept] at haccepts
      cases haccepts with
      | fragment =>
        obtain ⟨front, hfront, hlegal⟩ := (Frame.parses_decode _ _).of_run
          (Frame.exact_decode _ _) hdecode
        rw [hfront, List.length_append]
        exact Nat.lt_add_of_pos_left hlegal.length_pos
    · cases (Prod.mk.inj hframe).1

/-- A read is what is left of it wherever it looks for its next frame. As many frames as it may
look at, and one more, do not arrive. -/
theorem Between.messageWithin_eq (h : c.Between d) {frames : Nat}
    (hframes : c.endpoint.incoming.arrived.length < frames) :
    ∃ more, d.endpoint.incoming.arrived.length < more ∧
      (messageWithin frames).run.run c = (messageWithin more).run.run d := by
  induction h with
  | start => exact ⟨frames, hframes, rfl⟩
  | next _ hframe haccept ih =>
    obtain ⟨more, hmore, hsame⟩ := ih
    obtain ⟨n, rfl⟩ := Nat.exists_eq_succ_of_ne_zero (Nat.ne_zero_of_lt hmore)
    have hshorter := length_lt_of_frame hframe haccept
    refine ⟨n, by omega, ?_⟩
    rw [hsame, messageWithin, run_bind_ok hframe, run_bind_ok haccept]

/-- A read that finds no frame comes to what the search for it comes to. -/
theorem Between.receive_of_frame (h : c.Between d) {halt : Halt Error}
    (hframe : Connection.frame.run.run d = (.error halt, c')) :
    c.run receive = (.error halt, c') := by
  obtain ⟨more, hmore, hsame⟩ := h.messageWithin_eq (Nat.lt_succ_self _)
  obtain ⟨n, rfl⟩ := Nat.exists_eq_succ_of_ne_zero (Nat.ne_zero_of_lt hmore)
  rw [run, receive, run_bind_ok (run_get c), hsame, messageWithin, run_bind_error hframe]

/-- A read ends at the frame that is not taken in. -/
theorem Between.receive_of_accept (h : c.Between d) {halt : Halt Error} {frame : Frame}
    {read : Connection} (hframe : Connection.frame.run.run d = (.ok frame, read))
    (haccept : (accept frame).run.run read = (.error halt, c')) :
    c.run receive = (.error halt, c') := by
  obtain ⟨more, hmore, hsame⟩ := h.messageWithin_eq (Nat.lt_succ_self _)
  obtain ⟨n, rfl⟩ := Nat.exists_eq_succ_of_ne_zero (Nat.ne_zero_of_lt hmore)
  rw [run, receive, run_bind_ok (run_get c), hsame, messageWithin, run_bind_ok hframe,
    run_bind_error haccept]

end Course

section Overflow

variable {header : Header} {octets behind : Bytes}

/-- A connection ends on account of an error without reading on. -/
theorem exists_fail (c : Connection) {α : Type} (error : Error) :
    ∃ c', (fail error : Op α).run.run c = (.error (.failed error), c') ∧
      c'.endpoint.incoming = c.endpoint.incoming :=
  ⟨_, fail_eq error, Endpoint.incoming_failWith c.endpoint error⟩

/-- A frame that announces too much ends the read in front of its payload. -/
theorem frame_oversized (hreceive : d.endpoint.state.canReceive = true)
    (harrived : d.endpoint.incoming.arrived = octets ++ behind)
    (hlegal : header.IsLegal d.endpoint.role octets) (hlong : d.endpoint.limit < header.length) :
    ∃ reason c', Connection.frame.run.run d =
        (.error (.failed (.violation .messageTooBig reason)), c') ∧
      c'.endpoint.incoming.arrived = behind := by
  have hread := Endpoint.readFrame_violated hreceive
    (Frame.decode_oversized harrived hlegal hlong)
  obtain ⟨c', hfail, hleft⟩ := exists_fail (α := Frame)
    (d.moved { d.endpoint.incoming with arrived := behind } d.fragments)
    (.violation .messageTooBig s!"frame of {header.length} bytes exceeds limit")
  refine ⟨s!"frame of {header.length} bytes exceeds limit", c', ?_, congrArg Feed.arrived hleft⟩
  rw [Connection.frame, run_tryCatch_error (lift_eq hread)]
  exact hfail

/-- A legal frame that is no close is read, and nothing behind it. -/
theorem frame_legal (hreceive : d.endpoint.state.canReceive = true) {frame : Frame}
    (harrived : d.endpoint.incoming.arrived = octets ++ behind)
    (hlegal : frame.IsLegal d.endpoint.role d.endpoint.limit octets)
    (hopcode : frame.header.opcode ≠ .close) :
    Connection.frame.run.run d =
      (.ok frame, d.moved { d.endpoint.incoming with arrived := behind } d.fragments) := by
  have hdecode := (Frame.parses_decode _ _ _ frame behind).mpr ⟨octets, harrived, hlegal⟩
  have hstate : Endpoint.stateReceived d.endpoint.state frame.header.opcode =
      some d.endpoint.state := if_neg hopcode
  refine frame_run (c := d) ?_
  rw [Endpoint.readFrame_eq, run_bind_ok (Endpoint.beginRead_run hreceive)]
  exact Endpoint.finishRead_run hdecode hstate

/-- A continuation that is too much for the message that is held ends the connection. -/
theorem accept_overfull {payload soFar : Bytes} {first : Header}
    (hopcode : header.opcode = .continuation) (hheld : c.fragments = some (first, soFar))
    (hlong : c.endpoint.limit < soFar.length + payload.length) :
    ∃ reason c', (accept ⟨header, payload⟩).run.run c =
        (.error (.failed (.violation .messageTooBig reason)), c') ∧
      c'.endpoint.incoming = c.endpoint.incoming := by
  obtain ⟨c', hfail, hleft⟩ := exists_fail (α := Unit) { c with fragments := none }
    (.violation .messageTooBig "reassembled message exceeds limit")
  refine ⟨"reassembled message exceeds limit", c', ?_, hleft⟩
  simp only [accept, hopcode]
  rw [run_bind_ok (run_get c), hheld]
  dsimp only
  rw [run_bind_ok (run_modify _ c), run_bind_ok (run_get _), if_pos hlong]
  exact run_bind_error hfail

/-- The first data frame that would make a message longer than the limit ends the read that comes
to it. Of a frame that is too long by itself, no byte of the payload is read. -/
theorem Between.receive_overflow (h : c.Between d) (hreceive : d.endpoint.state.canReceive = true)
    (harrived : d.endpoint.incoming.arrived = octets ++ behind)
    (hlegal : header.IsLegal d.endpoint.role octets) (hturn : header.InTurn d)
    (hlong : d.endpoint.limit < d.held.length + header.length)
    (hpayload : d.endpoint.limit < header.length ∨ header.length ≤ behind.length) :
    ∃ reason c', c.run receive = (.error (.failed (.violation .messageTooBig reason)), c') ∧
      c'.endpoint.incoming.arrived =
        if d.endpoint.limit < header.length then behind else behind.drop header.length := by
  by_cases hoversized : d.endpoint.limit < header.length
  · obtain ⟨reason, c', hframe, hleft⟩ := frame_oversized hreceive harrived hlegal hoversized
    rw [if_pos hoversized]
    exact ⟨reason, c', h.receive_of_frame hframe, hleft⟩
  · have hthere := hpayload.resolve_left hoversized
    -- what fits by itself is too much only for a message that is held
    cases hfragments : d.fragments with
    | none =>
      rw [held, hfragments] at hlong
      exact absurd (Nat.lt_of_lt_of_eq hlong (Nat.zero_add _)) hoversized
    | some part =>
      obtain ⟨first, soFar⟩ := part
      rw [held, hfragments] at hlong
      have hopcode : header.opcode = .continuation := hturn.order.mpr (by rw [hfragments]; rfl)
      have hclose : header.opcode ≠ .close := by
        rw [hopcode]
        decide
      have hsplit : d.endpoint.incoming.arrived =
          (octets ++ behind.take header.length) ++ behind.drop header.length := by
        rw [harrived, List.append_assoc, List.take_append_drop]
      have htaken : (Frame.ofWire header (behind.take header.length)).IsLegal d.endpoint.role
          d.endpoint.limit (octets ++ behind.take header.length) :=
        ⟨octets, _, rfl, hlegal, Nat.le_of_not_lt hoversized, List.length_take_of_le hthere, rfl,
          fun hisClose => absurd hisClose hclose⟩
      have hpast : d.endpoint.limit <
          soFar.length + (applyMask header.mask (behind.take header.length)).length := by
        rw [Frame.length_applyMask, List.length_take_of_le hthere]
        exact hlong
      obtain ⟨reason, c', haccept, hleft⟩ := accept_overfull
        (c := d.moved { d.endpoint.incoming with arrived := behind.drop header.length } d.fragments)
        hopcode hfragments hpast
      have hframe := frame_legal hreceive hsplit htaken hclose
      rw [if_neg hoversized]
      exact ⟨reason, c', h.receive_of_accept hframe haccept, congrArg Feed.arrived hleft⟩

end Overflow

/-- However the frames of a peer are cut, and whatever happens to a connection, it never holds more
of a message than its limit: not behind any event, not between the frames of a read, and not behind
a frame that was read or taken in. No data message that a read returns is longer. The first data
frame that would make one longer ends the read with the code for that, before any byte of its
payload is read if it is too long by itself. -/
theorem size_limited (endpoint : Endpoint) (events : List Event) :
    let limit := endpoint.limit
    let c := ({ endpoint } : Connection).follow events
    c.Within limit ∧
      (∀ d, c.Between d → d.Within limit ∧ (d.run Connection.frame).2.Within limit ∧
        ∀ frame read, d.run Connection.frame = (.ok frame, read) →
          read.Within limit ∧ (read.run (accept frame)).2.Within limit) ∧
      (∀ message c', c.run receive = (.ok message, c') → message.IsWithin limit) ∧
      ∀ d, c.Between d → d.endpoint.state.canReceive = true →
        ∀ (header : Header) (octets behind : Bytes),
          d.endpoint.incoming.arrived = octets ++ behind →
          header.IsLegal d.endpoint.role octets → header.InTurn d →
          limit < d.held.length + header.length →
          (limit < header.length ∨ header.length ≤ behind.length) →
          ∃ reason c', c.run receive =
              (.error (.failed (.violation .messageTooBig reason)), c') ∧
            c'.endpoint.incoming.arrived =
              if limit < header.length then behind else behind.drop header.length := by
  intro limit c
  have hstart : ({ endpoint } : Connection).Within limit := ⟨rfl, Nat.zero_le _⟩
  have hc : c.Within limit := hstart.follow events
  refine ⟨hc, fun d hbetween => ?_, fun message c' hrun => ?_, ?_⟩
  · have hd := hc.between hbetween
    obtain ⟨hread, hfits⟩ := keeps_frame d hd
    refine ⟨hd, hread, fun frame read hframe => ?_⟩
    have hrun : (Connection.frame.run.run d) = (.ok frame, read) := hframe
    rw [hrun] at hread hfits
    exact ⟨hread, (keeps_accept (hfits frame rfl) read hread).1⟩
  · have hvalue := (keeps_receive c hc).2 message
    exact hvalue (congrArg Prod.fst hrun)
  · intro d hbetween hreceive header octets behind harrived hlegal hturn hlong hpayload
    have hlimit := (hc.between hbetween).limit_eq
    rw [← hlimit] at hlong hpayload ⊢
    exact hbetween.receive_overflow hreceive harrived hlegal hturn hlong hpayload

/-- Two fragments that are too much together, each of which would do alone. -/
theorem size_limited_two_fragments :
    ∃ reason c', Connection.run
        ⟨{ role := .client, limit := 4, incoming := { arrived := [2, 3, 1, 2, 3, 128, 2, 4, 5] } },
          none⟩ receive = (.error (.failed (.violation .messageTooBig reason)), c') ∧
      c'.endpoint.incoming.arrived = [] := by
  have hframe : Connection.frame.run.run
      ⟨{ role := .client, limit := 4, incoming := { arrived := [2, 3, 1, 2, 3, 128, 2, 4, 5] } },
        none⟩ = (.ok ⟨⟨false, .binary, none, 3⟩, [1, 2, 3]⟩,
      ⟨{ role := .client, limit := 4, incoming := { arrived := [128, 2, 4, 5] } }, none⟩) := rfl
  have hbetween := Between.next .start hframe rfl
  have hlaid : Header.LaidOut .client ⟨true, .continuation, none, 2⟩ 128 2 [] [] :=
    { fin := by decide
      reserved := by decide
      opcode := by decide
      masked := by decide
      length := .short (by decide)
      mask := .client
      control := fun hcontrol => nomatch hcontrol }
  obtain ⟨-, -, -, hoverflow⟩ := size_limited
    { role := .client, limit := 4, incoming := { arrived := [2, 3, 1, 2, 3, 128, 2, 4, 5] } } []
  exact hoverflow _ hbetween rfl ⟨true, .continuation, none, 2⟩ [128, 2] [4, 5] rfl
    ⟨128, 2, [], [], hlaid, rfl⟩ ⟨rfl, by decide⟩ (by decide) (.inr (by decide))

end Connection

end HttpRelay.WebSocket
