import HttpRelay.Proofs.Outcome
import HttpRelay.Proofs.WebSocket.FrameCodec
import HttpRelay.WebSocket.Endpoint

/-!
# The steps of an operation

What an endpoint does to its state and what it does to the wire are steps of their own: the other
half of the connection may act in between. Here each operation is cut where that is possible, and
each part has a statement of its outcomes.

* `Endpoint.readFrame_eq`, `Endpoint.writeFrame_eq`, `Endpoint.sendClose_eq_bind`,
  `Endpoint.failWith_run`: an operation is its steps in a row;
* `Endpoint.finishRead_cases`, `Endpoint.prepare_cases`, `Endpoint.put_cases`,
  `Endpoint.beginFail_cases`, `Endpoint.endFail_cases`: the outcomes of a step.
-/

namespace HttpRelay.WebSocket

open Outcome

namespace Endpoint

/-- An endpoint whose peer is there, and that was not shut down. -/
structure Connected (e : Endpoint) : Prop where
  shut : e.shut = false
  peerGone : e.peerGone = false

variable {e : Endpoint}

theorem put_run (h : e.Connected) (frame : Frame) :
    (put frame).run.run e = (.ok (), { e with sent := e.sent ++ [frame] }) := by
  rw [put, run_bind_ok (run_get e), h.shut, h.peerGone]
  rfl

/-- A transition, by the state behind it. -/
theorem transition_eq (next : State → Option State) :
    (transition next).run.run e =
      match next e.state with
      | some state => (.ok (), { e with state })
      | none => (.error (.failed (.notPermitted e.state)), e) := by
  rw [transition, run_bind_ok (run_get e)]
  cases hstate : next e.state with
  | none =>
    simp only [hstate]
    rfl
  | some state => simp only [hstate, run_modify]

/-- The state behind a frame sent, if it may be sent. -/
def stateSent (state : State) (opcode : Opcode) : Option State :=
  if opcode = .close then State.afterCloseSent state
  else if state.canSend then some state else none

/-- The beginning of a send, by the state behind it. -/
theorem beginWrite_eq (opcode : Opcode) :
    (beginWrite opcode).run.run e =
      match stateSent e.state opcode with
      | some state => (.ok (), { e with state })
      | none => (.error (.failed (.notPermitted e.state)), e) := by
  by_cases hclose : opcode = .close
  · rw [beginWrite, if_pos hclose, transition_eq, stateSent, if_pos hclose]
  · rw [beginWrite, if_neg hclose, run_bind_ok (run_get e), stateSent, if_neg hclose]
    by_cases hstate : e.state.canSend = true
    · simp only [hstate, if_true, run_pure]
    · simp only [hstate, Bool.false_eq_true, if_false]
      rfl

/-- A read of what the peer sent, by the read of the feed. -/
theorem receive_eq {α : Type} {read : Header.Read α} {answer : Except (Halt Error) α} {feed : Feed}
    (h : read.run.run e.incoming = (answer, feed)) :
    (receive read).run.run e = (answer, { e with incoming := feed }) := by
  change ((e.incoming.run read).1, { e with incoming := (e.incoming.run read).2 }) = _
  rw [Feed.run, h]

/-- The beginning of a read. -/
theorem beginRead_eq :
    beginRead.run.run e =
      if e.state.canReceive then (.ok (), e)
      else (.error (.failed (.notPermitted e.state)), e) := by
  rw [beginRead, run_bind_ok (run_get e)]
  cases hreceive : e.state.canReceive with
  | true => simp only [hreceive, if_true, run_pure]
  | false =>
    simp only [hreceive, Bool.false_eq_true, if_false]
    rfl

theorem beginRead_run (h : e.state.canReceive = true) : beginRead.run.run e = (.ok (), e) := by
  rw [beginRead_eq, if_pos h]

theorem beginRead_refused (h : e.state.canReceive = false) :
    beginRead.run.run e = (.error (.failed (.notPermitted e.state)), e) := by
  rw [beginRead_eq, if_neg (by simp [h])]

/-- The state behind a frame received, if it may be received. -/
def stateReceived (state : State) (opcode : Opcode) : Option State :=
  if opcode = .close then State.afterCloseReceived state else some state

/-- The end of a read, by the state behind it. -/
theorem endRead_eq (frame : Frame) :
    (endRead frame).run.run e =
      match stateReceived e.state frame.header.opcode with
      | some state => (.ok (), { e with state })
      | none => (.error (.failed (.notPermitted e.state)), e) := by
  by_cases hclose : frame.header.opcode = .close
  · rw [endRead, if_pos hclose, transition_eq, stateReceived, if_pos hclose]
  · rw [endRead, if_neg hclose, run_pure, stateReceived, if_neg hclose]

/-- A read behind its beginning. -/
def finishRead : Op Frame := do
  let e ← get
  let frame ← tryCatch (receive (Frame.decode e.role e.limit)) breakRead
  endRead frame
  return frame

/-- A read is its beginning and what is behind it. -/
theorem readFrame_eq : readFrame = (do beginRead; finishRead) := rfl

/-- A send in front of the wire. The result is the frame to be put there. -/
def prepare (opcode : Opcode) (fin : Bool) (payload : Bytes) : Op Frame := do
  if opcode.isControl && (Close.maxControlPayload < payload.length || !fin) then
    fail (.violation .internalError "control frames must be final and at most 125 bytes")
  beginWrite opcode
  let e ← get
  return Frame.outgoing e.role (e.drawKey e.sent.length) opcode fin payload

/-- A send is made ready and put on the wire. -/
theorem writeFrame_eq (opcode : Opcode) (fin : Bool) (payload : Bytes) :
    writeFrame opcode fin payload = (do put (← prepare opcode fin payload)) := by
  rw [writeFrame, prepare]
  split
  · rfl
  · simp only [bind_assoc, pure_bind]

/-- A close in front of the wire. -/
def prepareClose (code : CloseCode) (reason : String) : Op Frame := do
  match Close.payload code reason with
  | .ok payload => prepare .close true payload
  | .error error => fail error

/-- A close is made ready and put on the wire. -/
theorem sendClose_eq_bind (code : CloseCode) (reason : String) :
    sendClose code reason = (do put (← prepareClose code reason)) := by
  rw [sendClose, prepareClose]
  cases Close.payload code reason with
  | error error => rfl
  | ok payload => exact writeFrame_eq .close true payload

/-- The end of a connection in front of the wire. The result is the close that tells the peer, if
that is still possible. -/
def beginFail (error : Error) : StateM Endpoint (Option Frame) := do
  let e ← get
  if e.state.isTerminal then return none
  if let .violation code reason := error then
    if e.state.canSend && code.isSendable then
      if let .ok frame ← (prepareClose code reason).run then return some frame
  modify ({ · with state := .errored })
  return none

/-- The end of a connection that tells the peer. -/
def endFail (frame : Frame) : StateM Endpoint Unit := do
  let _ ← (put frame).run
  modify ({ · with state := .errored })

/-- The end of a connection is its beginning and, if the peer is told, what is behind it. -/
theorem failWith_run (error : Error) :
    (failWith error).run e =
      match (beginFail error).run e with
      | (some frame, e') => (endFail frame).run e'
      | (none, e') => ((), e') := by
  rw [failWith, beginFail, StateT.run_bind, StateT.run_bind, StateT.run_get]
  simp only [pure_bind]
  by_cases hterminal : e.state.isTerminal = true
  · simp only [hterminal, if_true]
    rfl
  · simp only [hterminal, Bool.false_eq_true, if_false]
    cases error with
    | violation code reason =>
      by_cases hsend : (e.state.canSend && code.isSendable) = true
      · simp only [hsend, if_true, sendClose_eq_bind]
        rw [StateT.run_bind, StateT.run_bind]
        rcases hprepare : (prepareClose code reason).run.run e with ⟨error | frame, e'⟩
        · rw [run_bind_error hprepare]
          rfl
        · rw [run_bind_ok hprepare]
          rfl
      · simp only [hsend, Bool.false_eq_true, if_false]
        rfl
    | _ => rfl

/-- A frame that is there is found. -/
theorem finishRead_run {frame : Frame} {feed : Feed} {state : State}
    (hdecode : Feed.run e.incoming (Frame.decode e.role e.limit) = (.ok frame, feed))
    (hstate : stateReceived e.state frame.header.opcode = some state) :
    finishRead.run.run e = (.ok frame, { e with incoming := feed, state }) := by
  have hend := endRead_eq (e := { e with incoming := feed }) frame
  rw [hstate] at hend
  rw [finishRead, run_bind_ok (run_get e), run_bind_ok (run_tryCatch_ok (receive_eq hdecode))]
  exact run_bind_ok hend

/-- A frame that arrived in part is waited for. -/
theorem finishRead_starved
    (hdecode : (Feed.run e.incoming (Frame.decode e.role e.limit)).1 = .error .starved) :
    ∃ e', finishRead.run.run e = (.error .starved, e') := by
  rcases hrun : Feed.run e.incoming (Frame.decode e.role e.limit) with ⟨answer, feed⟩
  rw [hrun] at hdecode
  obtain rfl : answer = .error .starved := hdecode
  have hcatch : (tryCatch (receive (Frame.decode e.role e.limit)) breakRead).run.run e =
      (.error .starved, { e with incoming := feed }) := by
    rw [run_tryCatch_error (receive_eq hrun)]
    rfl
  exact ⟨_, by rw [finishRead, run_bind_ok (run_get e), run_bind_error hcatch]⟩

/-- A read that found no frame fails, whatever that means for the connection. -/
theorem breakRead_run (e : Endpoint) (error : Error) :
    ∃ state, (state = e.state ∨ state = .errored) ∧
      (breakRead (.failed error) : Op Frame).run.run e =
        (.error (.failed error), { e with state }) := by
  cases error with
  | io failure => exact ⟨.errored, .inr rfl, rfl⟩
  | _ => exact ⟨e.state, .inl rfl, rfl⟩

/-- What is behind the beginning of a read finds a frame, waits, or fails. -/
theorem finishRead_cases :
    (∃ frame feed state,
        Feed.run e.incoming (Frame.decode e.role e.limit) = (.ok frame, feed) ∧
          stateReceived e.state frame.header.opcode = some state ∧
          finishRead.run.run e = (.ok frame, { e with incoming := feed, state })) ∨
      ((Feed.run e.incoming (Frame.decode e.role e.limit)).1 = .error .starved ∧
        ∃ e', finishRead.run.run e = (.error .starved, e')) ∨
      ∃ error feed state, (state = e.state ∨ state = .errored) ∧
        finishRead.run.run e = (.error (.failed error), { e with incoming := feed, state }) := by
  rcases hdecode : Feed.run e.incoming (Frame.decode e.role e.limit) with ⟨halt | frame, feed⟩
  · have hread := receive_eq hdecode
    cases halt with
    | starved => exact .inr (.inl ⟨rfl, finishRead_starved (by rw [hdecode])⟩)
    | failed error =>
      obtain ⟨state, hstate, hbreak⟩ := breakRead_run { e with incoming := feed } error
      rw [← run_tryCatch_error hread] at hbreak
      refine .inr (.inr ⟨error, feed, state, hstate, ?_⟩)
      rw [finishRead, run_bind_ok (run_get e), run_bind_error hbreak]
  · cases hstate : stateReceived e.state frame.header.opcode with
    | some state => exact .inl ⟨frame, feed, state, rfl, hstate, finishRead_run hdecode hstate⟩
    | none =>
      have hend := endRead_eq (e := { e with incoming := feed }) frame
      rw [hstate] at hend
      refine .inr (.inr ⟨.notPermitted e.state, feed, e.state, .inl rfl, ?_⟩)
      rw [finishRead, run_bind_ok (run_get e), run_bind_ok (run_tryCatch_ok (receive_eq hdecode)),
        run_bind_error hend]

/-- A frame is made ready, if it may be sent. -/
theorem prepare_run {opcode : Opcode} {fin : Bool} {payload : Bytes} {state : State}
    (hcontrol : opcode.isControl = true → fin = true ∧ payload.length ≤ Close.maxControlPayload)
    (hstate : stateSent e.state opcode = some state) :
    (prepare opcode fin payload).run.run e =
      (.ok (Frame.outgoing e.role (e.drawKey e.sent.length) opcode fin payload),
        { e with state }) := by
  have hbegin := beginWrite_eq (e := e) opcode
  rw [hstate] at hbegin
  have hfits : ¬ (opcode.isControl &&
      (decide (Close.maxControlPayload < payload.length) || !fin)) = true := by
    simp only [Bool.and_eq_true, Bool.or_eq_true, decide_eq_true_eq, Bool.not_eq_true', not_and,
      not_or, Nat.not_lt, Bool.not_eq_false]
    exact fun h => (hcontrol h).symm
  rw [prepare, if_neg hfits, run_bind_ok hbegin, run_bind_ok (run_get _), run_pure]

/-- A frame is made ready, or nothing changes. -/
theorem prepare_cases (opcode : Opcode) (fin : Bool) (payload : Bytes) :
    (∃ error, (prepare opcode fin payload).run.run e = (.error (.failed error), e)) ∨
      ∃ state, stateSent e.state opcode = some state ∧
        (opcode.isControl = true → fin = true ∧ payload.length ≤ Close.maxControlPayload) ∧
        (prepare opcode fin payload).run.run e =
          (.ok (Frame.outgoing e.role (e.drawKey e.sent.length) opcode fin payload),
            { e with state }) := by
  by_cases hlong : (opcode.isControl &&
      (decide (Close.maxControlPayload < payload.length) || !fin)) = true
  · refine .inl ⟨.violation .internalError "control frames must be final and at most 125 bytes", ?_⟩
    rw [prepare, if_pos hlong]
    exact run_bind_error rfl
  · have hcontrol : opcode.isControl = true →
        fin = true ∧ payload.length ≤ Close.maxControlPayload := by
      simp only [Bool.and_eq_true, Bool.or_eq_true, decide_eq_true_eq, Bool.not_eq_true', not_and,
        not_or, Nat.not_lt, Bool.not_eq_false] at hlong
      exact fun h => (hlong h).symm
    cases hstate : stateSent e.state opcode with
    | none =>
      have hbegin := beginWrite_eq (e := e) opcode
      rw [hstate] at hbegin
      refine .inl ⟨.notPermitted e.state, ?_⟩
      rw [prepare, if_neg hlong]
      exact run_bind_error hbegin
    | some state => exact .inr ⟨state, rfl, hcontrol, prepare_run hcontrol hstate⟩

/-- A frame is put on the wire, or nobody receives it. -/
theorem put_cases (frame : Frame) :
    e.Connected ∧ (put frame).run.run e = (.ok (), { e with sent := e.sent ++ [frame] }) ∨
      (put frame).run.run e =
        (.error (.failed (.io .brokenPipe)), { e with state := .errored }) := by
  by_cases hbroken : (e.shut || e.peerGone) = true
  · refine .inr ?_
    rw [put, run_bind_ok (run_get e), if_pos hbroken]
    rfl
  · rw [Bool.or_eq_true, not_or, Bool.not_eq_true, Bool.not_eq_true] at hbroken
    have hconnected : e.Connected := ⟨hbroken.1, hbroken.2⟩
    exact .inl ⟨hconnected, put_run hconnected frame⟩

/-- A close is made ready, or nothing changes. -/
theorem prepareClose_cases (code : CloseCode) (reason : String) :
    (∃ error, (prepareClose code reason).run.run e = (.error (.failed error), e)) ∨
      ∃ state payload, stateSent e.state .close = some state ∧
        Close.payload code reason = .ok payload ∧
        (prepareClose code reason).run.run e =
          (.ok (Frame.outgoing e.role (e.drawKey e.sent.length) .close true payload),
            { e with state }) := by
  rw [prepareClose]
  cases hpayload : Close.payload code reason with
  | error error => exact .inl ⟨error, rfl⟩
  | ok payload =>
    rcases prepare_cases (e := e) .close true payload with hsame | ⟨state, hstate, -, hprepare⟩
    · exact .inl hsame
    · exact .inr ⟨state, payload, hstate, rfl, hprepare⟩

/-- The end of a connection tells the peer why, or only moves the state. -/
theorem beginFail_cases (error : Error) :
    (∃ state, (state = e.state ∨ state = .errored) ∧
        (beginFail error).run e = (none, { e with state })) ∨
      ∃ state code reason payload, error = .violation code reason ∧
        stateSent e.state .close = some state ∧ Close.payload code reason = .ok payload ∧
        (beginFail error).run e =
          (some (Frame.outgoing e.role (e.drawKey e.sent.length) .close true payload),
            { e with state }) := by
  rw [beginFail, StateT.run_bind, StateT.run_get]
  simp only [pure_bind]
  by_cases hterminal : e.state.isTerminal = true
  · simp only [hterminal, if_true]
    exact .inl ⟨e.state, .inl rfl, rfl⟩
  · simp only [hterminal, Bool.false_eq_true, if_false]
    cases error with
    | violation code reason =>
      by_cases hsend : (e.state.canSend && code.isSendable) = true
      · simp only [hsend, if_true]
        rw [StateT.run_bind]
        rcases prepareClose_cases (e := e) code reason with
          ⟨error, hprepare⟩ | ⟨state, payload, hstate, hpayload, hprepare⟩
        · rw [hprepare]
          exact .inl ⟨.errored, .inr rfl, rfl⟩
        · rw [hprepare]
          exact .inr ⟨state, code, reason, payload, rfl, hstate, hpayload, rfl⟩
      · simp only [hsend, Bool.false_eq_true, if_false]
        exact .inl ⟨.errored, .inr rfl, rfl⟩
    | _ => exact .inl ⟨.errored, .inr rfl, rfl⟩

/-- Behind the end of a connection nothing more is sent. -/
theorem endFail_cases (frame : Frame) :
    (endFail frame).run e = ((), { e with sent := e.sent ++ [frame], state := .errored }) ∨
      (endFail frame).run e = ((), { e with state := .errored }) := by
  rw [endFail, StateT.run_bind]
  rcases put_cases (e := e) frame with ⟨-, hput⟩ | hput
  · rw [hput]
    exact .inl rfl
  · rw [hput]
    exact .inr rfl

end Endpoint

end HttpRelay.WebSocket
