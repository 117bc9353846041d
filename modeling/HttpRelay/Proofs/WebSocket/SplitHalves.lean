import HttpRelay.Proofs.WebSocket.AtomicSteps
import Mathlib.Logic.Relation

/-!
# The two halves of a connection

The receiving half and the sending half of a connection act independently, and share its state.
Each of them does one thing after the other; but between any two of its accesses to the state, and
while it waits for the wire, the other half may act, the transport may change, or the operation may
be given up.

* `Halves.Step`: one access to the state, or to the wire;
* `Halves.reaches_readFrame`, `Halves.reaches_send`, `Halves.reaches_failWith`: an operation that
  nothing overtakes is its steps in a row.
-/

namespace HttpRelay.WebSocket

open Outcome

/-- What a sending half can be asked to send. -/
inductive Outgoing where
  | frame (opcode : Opcode) (fin : Bool) (payload : Bytes)
  | close (code : CloseCode) (reason : String)

namespace Outgoing

/-- Get ready what is to be sent. The result is the frame to be put on the wire. -/
def prepare : Outgoing → Endpoint.Op Frame
  | frame opcode fin payload => Endpoint.prepare opcode fin payload
  | close code reason => Endpoint.prepareClose code reason

/-- Send it. -/
def send : Outgoing → Endpoint.Op Unit
  | frame opcode fin payload => Endpoint.writeFrame opcode fin payload
  | close code reason => Endpoint.sendClose code reason

theorem send_eq (out : Outgoing) : out.send = (do Endpoint.put (← out.prepare)) := by
  cases out with
  | frame opcode fin payload => exact Endpoint.writeFrame_eq opcode fin payload
  | close code reason => exact Endpoint.sendClose_eq_bind code reason

/-- A frame is made ready and moves the state, or nothing changes. -/
theorem prepare_cases (out : Outgoing) (e : Endpoint) :
    (∃ error, out.prepare.run.run e = (.error (.failed error), e)) ∨
      ∃ frame state, Endpoint.stateSent e.state frame.header.opcode = some state ∧
        out.prepare.run.run e = (.ok frame, { e with state }) := by
  cases out with
  | frame opcode fin payload =>
    rcases Endpoint.prepare_cases (e := e) opcode fin payload with
      hrefused | ⟨state, hstate, -, hrun⟩
    · exact .inl hrefused
    · exact .inr ⟨_, state, hstate, hrun⟩
  | close code reason =>
    rcases Endpoint.prepareClose_cases (e := e) code reason with
      hrefused | ⟨state, payload, hstate, -, hrun⟩
    · exact .inl hrefused
    · exact .inr ⟨_, state, hstate, hrun⟩

end Outgoing

/-- What a receiving half is about to do. -/
inductive Receiving where
  /-- Nothing. -/
  | idle
  /-- Take a frame off the wire, once it arrived. -/
  | taking
  /-- Note the frame that was taken, or why none could be. -/
  | noting (taken : Except Error Frame)

/-- What a sending half is about to do. -/
inductive Sending where
  /-- Nothing. -/
  | idle
  /-- Put a frame on the wire. It may be there to report a failure. -/
  | putting (frame : Frame) (reports : Bool)
  /-- See whether the peer can be told about a violation. -/
  | reporting (code : CloseCode) (reason : String)
  /-- Get the close ready that tells the peer. -/
  | parting (code : CloseCode) (reason : String)
  /-- Mark the connection as failed. -/
  | failing

namespace Sending

/-- The frame on its way to the wire. -/
def pending : Sending → List Frame
  | putting frame _ => [frame]
  | _ => []

/-- What follows when a frame was put on the wire, or was lost. -/
def afterPut (reports : Bool) : Sending := if reports then failing else idle

/-- What follows the look at a connection that is to fail. -/
def ofFailure (state : State) (error : Error) : Sending :=
  if state.isTerminal then idle
  else
    match error with
    | .violation code reason => reporting code reason
    | _ => failing

/-- What follows the look whether the peer can be told. -/
def ofReport (state : State) (code : CloseCode) (reason : String) : Sending :=
  if state.canSend && code.isSendable then parting code reason else failing

@[simp] theorem pending_afterPut (reports : Bool) : (afterPut reports).pending = [] := by
  cases reports <;> rfl

@[simp] theorem pending_ofFailure (state : State) (error : Error) :
    (ofFailure state error).pending = [] := by
  unfold ofFailure
  split
  · rfl
  · cases error <;> rfl

@[simp] theorem pending_ofReport (state : State) (code : CloseCode) (reason : String) :
    (ofReport state code reason).pending = [] := by
  unfold ofReport
  split <;> rfl

end Sending

/-- A connection whose halves act independently, with its history. -/
structure Halves where
  endpoint : Endpoint
  receiving : Receiving := .idle
  sending : Sending := .idle
  /-- How often a close that was to be sent moved the state. -/
  closings : Nat := 0
  /-- The frames that reads returned. -/
  received : List Frame := []

namespace Halves

/-- One access to the state, or to the wire. -/
inductive Step (s : Halves) : Halves → Prop
  | beginRead {e : Endpoint} (h : s.receiving = .idle)
      (hrun : Endpoint.beginRead.run.run s.endpoint = (.ok (), e)) :
      Step s { s with endpoint := e, receiving := .taking }
  | refuseRead {halt : Halt Error} {e : Endpoint} (h : s.receiving = .idle)
      (hrun : Endpoint.beginRead.run.run s.endpoint = (.error halt, e)) :
      Step s { s with endpoint := e }
  | take {frame : Frame} {feed : Feed} (h : s.receiving = .taking)
      (hrun : Feed.run s.endpoint.incoming (Frame.decode s.endpoint.role s.endpoint.limit) =
        (.ok frame, feed)) :
      Step s { s with endpoint.incoming := feed, receiving := .noting (.ok frame) }
  | misread {error : Error} {feed : Feed} (h : s.receiving = .taking)
      (hrun : Feed.run s.endpoint.incoming (Frame.decode s.endpoint.role s.endpoint.limit) =
        (.error (.failed error), feed)) :
      Step s { s with endpoint.incoming := feed, receiving := .noting (.error error) }
  | accept {frame : Frame} {e : Endpoint} (h : s.receiving = .noting (.ok frame))
      (hrun : (Endpoint.endRead frame).run.run s.endpoint = (.ok (), e)) :
      Step s { s with endpoint := e, receiving := .idle, received := s.received ++ [frame] }
  | reject {frame : Frame} {halt : Halt Error} {e : Endpoint}
      (h : s.receiving = .noting (.ok frame))
      (hrun : (Endpoint.endRead frame).run.run s.endpoint = (.error halt, e)) :
      Step s { s with endpoint := e, receiving := .idle }
  | breakRead {error : Error} (h : s.receiving = .noting (.error error)) :
      Step s { s with
        endpoint :=
          ((Endpoint.breakRead (.failed error) : Endpoint.Op Frame).run.run s.endpoint).2
        receiving := .idle }
  | ready {out : Outgoing} {frame : Frame} {e : Endpoint} (h : s.sending = .idle)
      (hrun : out.prepare.run.run s.endpoint = (.ok frame, e)) :
      Step s { s with
        endpoint := e
        sending := .putting frame false
        closings := s.closings + if frame.header.opcode = .close then 1 else 0 }
  | refuse {out : Outgoing} {halt : Halt Error} {e : Endpoint} (h : s.sending = .idle)
      (hrun : out.prepare.run.run s.endpoint = (.error halt, e)) :
      Step s { s with endpoint := e }
  | put {frame : Frame} {reports : Bool} (h : s.sending = .putting frame reports) :
      Step s { s with
        endpoint := ((Endpoint.put frame).run.run s.endpoint).2
        sending := .afterPut reports }
  | fail (error : Error) (h : s.sending = .idle) :
      Step s { s with sending := .ofFailure s.endpoint.state error }
  | report {code : CloseCode} {reason : String} (h : s.sending = .reporting code reason) :
      Step s { s with sending := .ofReport s.endpoint.state code reason }
  | part {code : CloseCode} {reason : String} {frame : Frame} {e : Endpoint}
      (h : s.sending = .parting code reason)
      (hrun : (Outgoing.close code reason).prepare.run.run s.endpoint = (.ok frame, e)) :
      Step s { s with
        endpoint := e
        sending := .putting frame true
        closings := s.closings + if frame.header.opcode = .close then 1 else 0 }
  | stay {code : CloseCode} {reason : String} {halt : Halt Error} {e : Endpoint}
      (h : s.sending = .parting code reason)
      (hrun : (Outgoing.close code reason).prepare.run.run s.endpoint = (.error halt, e)) :
      Step s { s with endpoint := e, sending := .failing }
  | fall (h : s.sending = .failing) :
      Step s { s with endpoint.state := .errored, sending := .idle }
  /-- Bytes arrive or are lost, the input ends, the peer goes away. -/
  | transport (incoming : Feed) (shut peerGone : Bool) :
      Step s { s with
        endpoint.incoming := incoming, endpoint.shut := shut, endpoint.peerGone := peerGone }
  /-- A read is given up while it waits. -/
  | abandonRead (h : s.receiving = .taking) : Step s { s with receiving := .idle }
  /-- A write is given up while it waits. -/
  | abandonWrite {frame : Frame} {reports : Bool} (h : s.sending = .putting frame reports) :
      Step s { s with sending := .idle }

/-- Any number of steps. -/
def Reaches : Halves → Halves → Prop := Relation.ReflTransGen Step

variable {s : Halves}

/-- A read that nothing overtakes. -/
theorem reaches_readFrame (hidle : s.receiving = .idle) {answer : Except (Halt Error) Frame}
    {e : Endpoint} (hrun : Endpoint.readFrame.run.run s.endpoint = (answer, e))
    (hanswer : answer ≠ .error .starved) :
    s.Reaches { s with endpoint := e, received := s.received ++ answer.toOption.toList } := by
  obtain ⟨endpoint, receiving, sending, closings, received⟩ := s
  dsimp only at hidle hrun ⊢
  subst hidle
  have hnone (halt : Halt Error) :
      received ++ (Except.error halt : Except (Halt Error) Frame).toOption.toList = received :=
    List.append_nil received
  rw [Endpoint.readFrame_eq] at hrun
  -- three accesses: to the state, to the wire and to the state again, each of which may end it
  by_cases hreceive : endpoint.state.canReceive = true
  · have hbegin := Endpoint.beginRead_run hreceive
    rw [run_bind_ok hbegin] at hrun
    refine .head (.beginRead rfl hbegin) ?_
    rcases hdecode : Feed.run endpoint.incoming (Frame.decode endpoint.role endpoint.limit) with
      ⟨halt | frame, feed⟩
    · cases halt with
      | starved =>
        -- a read that waits has not ended
        obtain ⟨e', hstarved⟩ := Endpoint.finishRead_starved (e := endpoint) (by rw [hdecode])
        rw [hstarved] at hrun
        exact absurd (Prod.mk.inj hrun).1.symm hanswer
      | failed error =>
        rw [Endpoint.finishRead, run_bind_ok (run_get endpoint)] at hrun
        obtain ⟨state, -, hbreak⟩ := Endpoint.breakRead_run { endpoint with incoming := feed } error
        have hrescue := (run_tryCatch_error (Endpoint.receive_eq hdecode)).trans hbreak
        rw [run_bind_error hrescue] at hrun
        obtain ⟨rfl, rfl⟩ := Prod.mk.inj hrun
        have hstep := @Step.breakRead
          ⟨{ endpoint with incoming := feed }, .noting (.error error), sending, closings, received⟩
          error rfl
        rw [hbreak] at hstep
        rw [hnone]
        exact .head (.misread rfl hdecode) (.single hstep)
    · refine .head (.take rfl hdecode) ?_
      rw [Endpoint.finishRead, run_bind_ok (run_get endpoint),
        run_bind_ok (run_tryCatch_ok (Endpoint.receive_eq hdecode))] at hrun
      rcases hend : (Endpoint.endRead frame).run.run { endpoint with incoming := feed } with
        ⟨halt | ⟨⟩, e'⟩
      · rw [run_bind_error hend] at hrun
        obtain ⟨rfl, rfl⟩ := Prod.mk.inj hrun
        rw [hnone]
        exact .single (.reject rfl hend)
      · rw [run_bind_ok hend] at hrun
        obtain ⟨rfl, rfl⟩ := Prod.mk.inj hrun
        exact .single (.accept rfl hend)
  · have hrefuse := Endpoint.beginRead_refused (Bool.eq_false_iff.mpr hreceive)
    rw [run_bind_error hrefuse] at hrun
    obtain ⟨rfl, rfl⟩ := Prod.mk.inj hrun
    rw [hnone]
    exact .single (.refuseRead rfl hrefuse)

/-- A send that nothing overtakes. -/
theorem reaches_send (out : Outgoing) (hidle : s.sending = .idle) :
    ∃ closings, s.Reaches { s with
      endpoint := (out.send.run.run s.endpoint).2, closings := closings } := by
  obtain ⟨endpoint, receiving, sending, closings, received⟩ := s
  dsimp only at hidle ⊢
  subst hidle
  rw [out.send_eq]
  rcases out.prepare_cases endpoint with ⟨error, hrun⟩ | ⟨frame, state, -, hrun⟩
  · rw [run_bind_error hrun]
    exact ⟨closings, .single (.refuse rfl hrun)⟩
  · -- what the wire makes of the frame is the same step
    rw [run_bind_ok hrun]
    exact ⟨_, .head (.ready rfl hrun) (.single (@Step.put _ frame false rfl))⟩

/-- A failure that nothing overtakes. -/
theorem reaches_failWith (error : Error) (hidle : s.sending = .idle) :
    ∃ closings, s.Reaches { s with
      endpoint := ((Endpoint.failWith error).run s.endpoint).2, closings := closings } := by
  obtain ⟨endpoint, receiving, sending, closings, received⟩ := s
  dsimp only at hidle ⊢
  subst hidle
  have hfail := @Step.fail { endpoint, receiving, closings, received } error rfl
  rw [Endpoint.failWith, StateT.run_bind, StateT.run_get]
  simp only [pure_bind]
  -- a connection that is over stays as it is; only a violation is worth a word to the peer
  by_cases hterminal : endpoint.state.isTerminal = true
  · simp only [Sending.ofFailure, hterminal, if_true] at hfail ⊢
    exact ⟨closings, .single hfail⟩
  simp only [Sending.ofFailure, hterminal, Bool.false_eq_true, if_false] at hfail ⊢
  cases error with
  | violation code reason =>
    have hreport := @Step.report
      ⟨endpoint, receiving, .reporting code reason, closings, received⟩ code reason rfl
    by_cases hsend : (endpoint.state.canSend && code.isSendable) = true
    · simp only [Sending.ofReport, hsend, if_true] at hreport ⊢
      have hsendClose := (Outgoing.close code reason).send_eq
      rw [Outgoing.send] at hsendClose
      rw [hsendClose, StateT.run_bind]
      rcases (Outgoing.close code reason).prepare_cases endpoint with
        ⟨error, hrun⟩ | ⟨frame, state, -, hrun⟩
      · rw [run_bind_error hrun]
        exact ⟨closings, .head hfail (.head hreport (.head (.stay rfl hrun) (.single (.fall rfl))))⟩
      · rw [run_bind_ok hrun]
        exact ⟨_, .head hfail (.head hreport (.head (.part rfl hrun)
          (.head (@Step.put _ frame true rfl) (.single (.fall rfl)))))⟩
    · simp only [Sending.ofReport, hsend, Bool.false_eq_true, if_false] at hreport ⊢
      exact ⟨closings, .head hfail (.head hreport (.single (.fall rfl)))⟩
  | _ => exact ⟨closings, .head hfail (.single (.fall rfl))⟩

end Halves

end HttpRelay.WebSocket
