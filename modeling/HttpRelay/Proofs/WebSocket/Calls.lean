import HttpRelay.Proofs.WebSocket.ReadOutcomes

/-!
# Calls that are refused

The owner of a connection may open it, read from it, send on it and close it. Each of these calls
is refused in some states. A refused call neither takes nor sends anything. It leaves the state
alone as well, unless it is a read of a connection that is not open yet or that is closing: such a
read is refused by ending the connection.

* `Connection.Call`: the calls;
* `Connection.Call.spoils`: the reads that end the connection they are refused by;
* `Connection.Call.run_notPermitted`: what a refused call leaves behind;
* `Connection.Call.run_errored`: a connection that has failed refuses every call.
-/

namespace HttpRelay.WebSocket

open Outcome

namespace Endpoint

variable {e e' : Endpoint} {state : State}

/-- What cannot be sent of a close is its code, whatever state the connection is in. -/
theorem payload_ne_notPermitted (code : CloseCode) (reason : String) :
    Close.payload code reason ≠ .error (.notPermitted state) := by
  rw [Close.payload]
  split
  · exact fun h => by cases h
  · split <;> exact fun h => by cases h

/-- A frame that may not be sent changes nothing. -/
theorem writeFrame_notPermitted {opcode : Opcode} {fin : Bool} {payload : Bytes}
    (h : (writeFrame opcode fin payload).run.run e = (.error (.failed (.notPermitted state)), e')) :
    state = e.state ∧ e' = e := by
  by_cases hlong : (opcode.isControl &&
      (decide (Close.maxControlPayload < payload.length) || !fin)) = true
  · rw [writeFrame, if_pos hlong] at h
    cases (Prod.mk.inj h).1
  · rw [writeFrame, if_neg hlong] at h
    cases hstate : stateSent e.state opcode with
    | none =>
      have hbegin := beginWrite_eq (e := e) opcode
      rw [hstate] at hbegin
      rw [run_bind_error hbegin] at h
      obtain ⟨herror, rfl⟩ := Prod.mk.inj h
      exact ⟨(Error.notPermitted.inj (Halt.failed.inj (Except.error.inj herror))).symm, rfl⟩
    | some next =>
      have hbegin := beginWrite_eq (e := e) opcode
      rw [hstate] at hbegin
      rw [run_bind_ok hbegin, run_bind_ok (run_get _)] at h
      -- what the wire refuses is a failure of the transport
      rcases put_cases (e := { e with state := next })
        (Frame.outgoing e.role (e.drawKey e.sent.length) opcode fin payload) with ⟨-, hput⟩ | hput
      · cases (Prod.mk.inj (hput.symm.trans h)).1
      · cases (Prod.mk.inj (hput.symm.trans h)).1

/-- A close that may not be sent changes nothing. -/
theorem sendClose_notPermitted {code : CloseCode} {reason : String}
    (h : (sendClose code reason).run.run e = (.error (.failed (.notPermitted state)), e')) :
    state = e.state ∧ e' = e := by
  rw [sendClose] at h
  cases hpayload : Close.payload code reason with
  | ok payload =>
    rw [hpayload] at h
    exact writeFrame_notPermitted h
  | error error =>
    rw [hpayload] at h
    obtain ⟨herror, rfl⟩ := Prod.mk.inj h
    obtain rfl := Halt.failed.inj (Except.error.inj herror)
    exact absurd hpayload (payload_ne_notPermitted code reason)

/-- An error that says nothing to the peer ends a connection that is not over. -/
theorem failWith_notPermitted (e : Endpoint) (state : State) :
    (failWith (.notPermitted state) e).2 =
      { e with state := if e.state.isTerminal then e.state else .errored } := by
  by_cases hterminal : e.state.isTerminal = true
  · rw [failWith_of_isTerminal hterminal, if_pos hterminal]
  · rw [if_neg hterminal]
    change ((if e.state.isTerminal = true then pure PUnit.unit
      else _ : StateM Endpoint Unit).run e).2 = _
    rw [if_neg hterminal]
    rfl

end Endpoint

namespace Connection

variable {c c' : Connection} {state : State}

/-- A call of a connection by its owner. -/
inductive Call where
  | opened
  | receive
  | send (message : Message)
  | close (code : CloseCode) (reason : String)

/-- The operation of a call, without the value that it gives. -/
def Call.op : Call → Op Unit
  | opened => Connection.opened
  | receive => do let _ ← Connection.receive
  | send message => Connection.send message
  | close code reason => Connection.close code reason

/-- A read as a call comes to what it comes to, but for the message. -/
theorem Call.run_receive (c : Connection) :
    c.run Call.receive.op =
      ((c.run Connection.receive).1.map fun _ => (), (c.run Connection.receive).2) := by
  rw [Connection.run, Connection.run, op, run_bind]
  rcases Connection.receive.run.run c with ⟨halt | message, behind⟩ <;> rfl

/-- An operation of the endpoint is refused as the endpoint refuses it. -/
theorem run_lift_notPermitted {op : Endpoint.Op Unit}
    (hop : ∀ e', op.run.run c.endpoint = (.error (.failed (.notPermitted state)), e') →
      state = c.endpoint.state ∧ e' = c.endpoint)
    (h : (lift op).run.run c = (.error (.failed (.notPermitted state)), c')) :
    state = c.endpoint.state ∧ c' = c := by
  rcases hrun : op.run.run c.endpoint with ⟨answer, endpoint⟩
  obtain ⟨rfl, rfl⟩ := Prod.mk.inj ((lift_eq hrun).symm.trans h)
  obtain ⟨hstate, rfl⟩ := hop endpoint hrun
  exact ⟨hstate, rfl⟩

theorem opened_notPermitted
    (h : opened.run.run c = (.error (.failed (.notPermitted state)), c')) :
    state = c.endpoint.state ∧ c' = c := by
  refine run_lift_notPermitted (fun e' hrun => ?_) h
  have htransition := Endpoint.transition_eq (e := c.endpoint) State.afterOpening
  split at htransition
  · cases (Prod.mk.inj (htransition.symm.trans hrun)).1
  · obtain ⟨herror, rfl⟩ := Prod.mk.inj (htransition.symm.trans hrun)
    exact ⟨(Error.notPermitted.inj (Halt.failed.inj (Except.error.inj herror))).symm, rfl⟩

/-- A message that may not be sent changes nothing. -/
theorem send_notPermitted {message : Message}
    (h : (send message).run.run c = (.error (.failed (.notPermitted state)), c')) :
    state = c.endpoint.state ∧ c' = c := by
  cases message with
  | close status =>
    cases status <;> simp only [send] at h <;>
      exact run_lift_notPermitted (fun _ hrun => Endpoint.sendClose_notPermitted hrun) h
  | _ =>
    simp only [send] at h
    exact run_lift_notPermitted (fun _ hrun => Endpoint.writeFrame_notPermitted hrun) h

/-- A read is refused where no frame may arrive, and only there. -/
theorem receive_notPermitted
    (h : receive.run.run c = (.error (.failed (.notPermitted state)), c')) :
    c.endpoint.state.canReceive = false ∧ state = c.endpoint.state ∧
      c' = { c with endpoint := { c.endpoint with
        state := if c.endpoint.state.isTerminal then c.endpoint.state else .errored } } := by
  have houtcome := c.readOutcome
  rw [run, h] at houtcome
  cases houtcome with
  | breaks _ hbreaks => cases hbreaks
  | refused hreceive => exact ⟨hreceive, rfl, by rw [Endpoint.failWith_notPermitted]⟩

/-- Whether a refused call ends the connection: a read does that to a connection which is not open
yet, or which still has a close to echo. -/
def Call.spoils : Call → State → Bool
  | .receive, .connecting => true
  | .receive, .closeReceived => true
  | _, _ => false

theorem Call.ne_errored_of_spoils {call : Call} (h : call.spoils state = true) :
    state ≠ .errored := by
  rintro rfl
  cases call <;> cases h

/-- A call that is refused on account of the state takes nothing and sends nothing. The state
behind it is the state before, except behind a read that ends the connection. -/
theorem Call.run_notPermitted {call : Call}
    (h : c.run call.op = (.error (.failed (.notPermitted state)), c')) :
    state = c.endpoint.state ∧
      c' = { c with endpoint := { c.endpoint with
        state := if call.spoils c.endpoint.state then .errored else c.endpoint.state } } ∧
      (c'.endpoint.state = c.endpoint.state ↔ call.spoils c.endpoint.state = false) := by
  have hleft : state = c.endpoint.state ∧
      c' = { c with endpoint := { c.endpoint with
        state := if call.spoils c.endpoint.state then .errored else c.endpoint.state } } := by
    cases call with
    | opened => exact opened_notPermitted h
    | send message => exact send_notPermitted h
    | close code reason =>
      exact run_lift_notPermitted (fun _ hrun => Endpoint.sendClose_notPermitted hrun) h
    | receive =>
      have hread : Connection.receive.run.run c =
          (.error (.failed (.notPermitted state)), c') := by
        rw [run_receive, Connection.run] at h
        rcases hread : Connection.receive.run.run c with ⟨halt | message, behind⟩ <;>
          rw [hread] at h
        · obtain ⟨hhalt, rfl⟩ := Prod.mk.inj h
          rw [Except.error.inj hhalt]
        · cases (Prod.mk.inj h).1
      obtain ⟨hreceive, hstate, rfl⟩ := receive_notPermitted hread
      refine ⟨hstate, ?_⟩
      -- of the states in which no frame may arrive, two are not final
      cases hbefore : c.endpoint.state <;> rw [hbefore] at hreceive <;> first | rfl | cases hreceive
  refine ⟨hleft.1, hleft.2, ?_⟩
  rw [hleft.2]
  cases hspoils : call.spoils c.endpoint.state with
  | false => exact ⟨fun _ => rfl, fun _ => rfl⟩
  | true =>
    exact ⟨fun hsame => absurd hsame.symm (ne_errored_of_spoils hspoils), fun h => by cases h⟩

/-- Behind a close of its own a connection refuses to send, and is left as it is. -/
theorem Call.run_notPermitted_closeSent :
    let c : Connection := { endpoint := { role := .client, state := .closeSent } }
    c.run (Call.send (.text "x")).op = (.error (.failed (.notPermitted .closeSent)), c) ∧
      (c.endpoint.state = .closeSent ↔ (Call.send (.text "x")).spoils .closeSent = false) := by
  intro c
  have hrefused : c.run (Call.send (.text "x")).op =
      (.error (.failed (.notPermitted .closeSent)), c) := rfl
  exact ⟨hrefused, (run_notPermitted hrefused).2.2⟩

/-- A read ends a connection whose opening handshake is still under way. -/
theorem Call.run_receive_connecting :
    let c : Connection := { endpoint := { role := .server, state := .connecting } }
    c.run Call.receive.op = (.error (.failed (.notPermitted .connecting)),
        { c with endpoint := { c.endpoint with state := .errored } }) ∧
      (c.run Call.receive.op).2.endpoint.state ≠ c.endpoint.state := by
  refine ⟨rfl, ?_⟩
  decide

end Connection

end HttpRelay.WebSocket
