import HttpRelay.Proofs.Proxy.PumpMoves

/-!
# Undisturbed pumps

A pump that no other one overtakes forwards one frame as `forwardFrame` does: its steps in a row are
the operations of which `forwardFrame` is made.

* `Wing.Advances`: the steps of an undisturbed pump;
* `Wing.advances_failing`, `Wing.advances_abandoning`: how a pump gives up;
* `Wing.advances_delivered`, `Wing.advances_refused`: what becomes of a frame that was read;
* `Wing.advances_forwardFrame`: the steps are one `forwardFrame`.
-/

namespace HttpRelay.Proxy

open WebSocket Outcome

/-- Steps of an undisturbed pump in a row. -/
inductive Wing.Advances : Wing → Endpoint → Wing → Endpoint → Prop
  | refl {w : Wing} {target : Endpoint} : Advances w target w target
  | head {w w' w'' : Wing} {target target' target'' : Endpoint}
      (h : w.advance target = (w', target')) (hrest : Advances w' target' w'' target'') :
      Advances w target w'' target''

/-- Where a pump is that came so far with a frame. -/
def Forwarding.stage : Forwarding → Stage
  | starved => .reading
  | forwarded _ => .resting
  | closed _ => .ended none
  | unreadable error | undelivered _ error => .ended (some error)

namespace Wing

variable {w : Wing} {target : Endpoint}

/-- A failure is reported. -/
theorem advances_failing {failure : Failure} (h : w.stage = .failing failure) :
    w.Advances target
      { w with
        endpoint := ((Endpoint.failWith failure.report).run w.endpoint).2
        stage := failure.next } target := by
  rw [Endpoint.failWith_run]
  rcases hbegin : (Endpoint.beginFail failure.report).run w.endpoint with ⟨_ | out, endpoint⟩
  · have hstep : w.advance target = ({ w with endpoint, stage := failure.next }, target) := by
      rw [advance, h]
      simp only [hbegin]
    exact .head hstep .refl
  · have hstep : w.advance target =
        ({ w with endpoint, stage := .reporting failure out }, target) := by
      rw [advance, h]
      simp only [hbegin]
    exact .head hstep (.head rfl .refl)

theorem Advances.trans {w' w'' : Wing} {target' target'' : Endpoint}
    (h : w.Advances target w' target') (hrest : w'.Advances target' w'' target'') :
    w.Advances target w'' target'' := by
  induction h with
  | refl => exact hrest
  | head hstep _ ih => exact .head hstep (ih hrest)

/-- The other peer is told about the end. -/
theorem advances_abandoning {cause : WebSocket.Error} (h : w.stage = .abandoning cause) :
    w.Advances target { w with stage := .ended (some cause) } (abandon target) := by
  rw [abandon]
  by_cases hsend : target.state.canSend = true
  · rw [if_pos hsend, Endpoint.run, Endpoint.sendClose_eq_bind]
    rcases hprepare : (Endpoint.prepareClose .goingAway "").run.run target with
      ⟨halt | out, target'⟩
    · have hstep : w.advance target = ({ w with stage := .ended (some cause) }, target') := by
        rw [advance, h]
        simp only [hsend, if_true, Endpoint.run, hprepare]
      rw [run_bind_error hprepare]
      exact .head hstep .refl
    · have hstep : w.advance target = ({ w with stage := .parting cause out }, target') := by
        rw [advance, h]
        simp only [hsend, if_true, Endpoint.run, hprepare]
      rw [run_bind_ok hprepare]
      exact .head hstep (.head rfl .refl)
  · have hstep : w.advance target = ({ w with stage := .ended (some cause) }, target) := by
      rw [advance, h]
      simp only [hsend]
      rfl
    rw [if_neg hsend]
    exact .head hstep .refl

/-- A frame that cannot be read ends the pump. -/
theorem advances_unreadable {error : WebSocket.Error} (h : w.stage = .failing (.unreadable error)) :
    w.Advances target
      { w with
        endpoint := ((Endpoint.failWith error).run w.endpoint).2
        stage := .ended (some error) } (abandon target) :=
  (advances_failing h).trans (advances_abandoning rfl)

/-- A frame that cannot be forwarded ends the pump. -/
theorem advances_undelivered {error : WebSocket.Error}
    (h : w.stage = .failing (.undelivered error)) :
    w.Advances target
      { w with
        endpoint := ((Endpoint.failWith (.violation .goingAway "peer unavailable")).run
          w.endpoint).2
        stage := .ended (some error) } target :=
  advances_failing h

/-- A frame that was read is put on the wire. -/
theorem advances_delivered {frame : Frame} {target' : Endpoint} (h : w.stage = .holding frame)
    (hwrite : target.run (Endpoint.writeFrame frame.header.opcode frame.header.fin frame.payload) =
      (.ok (), target')) :
    w.Advances target
      { w with stage := if frame.header.opcode = .close then .ended none else .resting }
      target' := by
  rw [Endpoint.run, Endpoint.writeFrame_eq] at hwrite
  rcases Endpoint.prepare_cases (e := target) frame.header.opcode frame.header.fin frame.payload
    with ⟨error, hprepare⟩ | ⟨state, hstate, hcontrol, hprepare⟩
  · rw [run_bind_error hprepare] at hwrite
    cases hwrite
  · rw [run_bind_ok hprepare] at hwrite
    have hstep : advance { w with
          stage := .writing (frame.reframe target.role (target.drawKey target.sent.length)) }
        { target with state } =
          ({ w with stage := if frame.header.opcode = .close then .ended none else .resting },
            target') := by
      simp only [advance, Endpoint.run, Frame.reframe, hwrite]
      rfl
    exact .head (advance_holding h hcontrol hstate) (.head hstep .refl)

/-- A frame that was read and cannot be put on the wire ends the pump. -/
theorem advances_refused {frame : Frame} {error : WebSocket.Error} {target' : Endpoint}
    (h : w.stage = .holding frame)
    (hwrite : target.run (Endpoint.writeFrame frame.header.opcode frame.header.fin frame.payload) =
      (.error (.failed error), target')) :
    w.Advances target
      { w with
        endpoint := ((Endpoint.failWith (.violation .goingAway "peer unavailable")).run
          w.endpoint).2
        stage := .ended (some error) } target' := by
  rw [Endpoint.run, Endpoint.writeFrame_eq] at hwrite
  rcases Endpoint.prepare_cases (e := target) frame.header.opcode frame.header.fin frame.payload
    with ⟨error', hprepare⟩ | ⟨state, hstate, hcontrol, hprepare⟩
  · rw [run_bind_error hprepare] at hwrite
    obtain ⟨rfl, rfl⟩ := by simpa only [Prod.mk.injEq, Except.error.injEq, Halt.failed.injEq]
      using hwrite
    exact .head (advance_unprepared h hprepare) (advances_undelivered rfl)
  · rw [run_bind_ok hprepare] at hwrite
    have hstep : advance { w with
          stage := .writing (frame.reframe target.role (target.drawKey target.sent.length)) }
        { target with state } = ({ w with stage := .failing (.undelivered error) }, target') := by
      simp only [advance, Endpoint.run, Frame.reframe, hwrite]
    exact .head (advance_holding h hcontrol hstate) (.head hstep (advances_undelivered rfl))

/-- The steps of an undisturbed pump are one `forwardFrame`. -/
theorem advances_forwardFrame (h : w.stage = .resting) {forwarding : Forwarding}
    {source target' : Endpoint}
    (hforward : forwardFrame w.endpoint target = (forwarding, source, target'))
    (hsome : forwarding ≠ .starved) :
    w.Advances target
      { w with
        endpoint := source
        stage := forwarding.stage
        received := w.received ++ forwarding.frame?.toList } target' := by
  rw [forwardFrame, Endpoint.run, Endpoint.readFrame_eq] at hforward
  by_cases hreceive : w.endpoint.state.canReceive = true
  · rw [run_bind_ok (Endpoint.beginRead_run hreceive)] at hforward
    refine .head (advance_resting h hreceive) ?_
    -- a frame that was found is forwarded or not, one that was not leaves nothing to forward
    rcases Endpoint.finishRead_cases (e := w.endpoint) with
      ⟨frame, feed, state, hread, hstate, hrun⟩ | ⟨-, _, hrun⟩ | ⟨error, feed, state, -, hrun⟩
    · refine .head (advance_reading rfl hread hstate) ?_
      rw [hrun] at hforward
      rcases hwrite : target.run
          (Endpoint.writeFrame frame.header.opcode frame.header.fin frame.payload) with
        ⟨(_ | error) | _, written⟩
      · simp only [hwrite, Prod.mk.injEq] at hforward
        exact absurd hforward.1.symm hsome
      · simp only [hwrite, Prod.mk.injEq] at hforward
        obtain ⟨rfl, rfl, rfl⟩ := hforward
        exact advances_refused rfl hwrite
      · simp only [hwrite, Prod.mk.injEq] at hforward
        obtain ⟨rfl, rfl, rfl⟩ := hforward
        have hdelivered := advances_delivered (w := { w with
          endpoint := { w.endpoint with incoming := feed, state }
          stage := .holding frame
          received := w.received ++ [frame] }) rfl hwrite
        by_cases hclose : frame.header.opcode = .close
        · rw [if_pos hclose] at hdelivered ⊢
          exact hdelivered
        · rw [if_neg hclose] at hdelivered ⊢
          exact hdelivered
    · rw [hrun] at hforward
      simp only [Prod.mk.injEq] at hforward
      exact absurd hforward.1.symm hsome
    · rw [hrun] at hforward
      simp only [Prod.mk.injEq] at hforward
      obtain ⟨rfl, rfl, rfl⟩ := hforward
      rw [show Forwarding.frame? (.unreadable error) = none from rfl, Option.toList_none,
        List.append_nil]
      exact .head (advance_unreadable rfl hrun) (advances_unreadable rfl)
  · -- nothing may be read any more, which is a failure like any other one
    have hrefused := Bool.eq_false_iff.mpr hreceive
    rw [run_bind_error (Endpoint.beginRead_refused hrefused)] at hforward
    obtain ⟨rfl, rfl, rfl⟩ := by simpa only [Prod.mk.injEq] using hforward
    rw [show Forwarding.frame? (.unreadable (.notPermitted w.endpoint.state)) = none from rfl,
      Option.toList_none, List.append_nil]
    exact .head (advance_refused h hrefused) (advances_unreadable rfl)

end Wing

end HttpRelay.Proxy
