import HttpRelay.Proofs.Proxy.Pumps
import HttpRelay.Proofs.WebSocket.ClosingHandshake

/-!
# What a pump does

Every step of a pump as one case of a list, with what it asks for and what it changes. Whatever is
kept by every case is kept by the pumps, and no other proof looks into a step.

* `Frame.reframe`: a frame as it is sent on;
* `Wing.Moves`: the cases;
* `Wing.moves_advance`: a step is one of them;
* `Wing.Keeps`: what stays as it is when something happens to a wing without its pump.
-/

namespace HttpRelay.WebSocket

/-- A frame as an end in a role sends it on. -/
def Frame.reframe (frame : Frame) (role : Role) (key : MaskKey) : Frame :=
  Frame.outgoing role key frame.header.opcode frame.header.fin frame.payload

/-- The close that an endpoint sends with a payload. -/
def Endpoint.closeWith (e : Endpoint) (payload : Bytes) : Frame :=
  Frame.outgoing e.role (e.drawKey e.sent.length) .close true payload

end HttpRelay.WebSocket

namespace HttpRelay.Proxy

open WebSocket

/-- What a pump may do, from its wing and the endpoint that it writes to, to those behind it. -/
inductive Wing.Moves (w : Wing) (target : Endpoint) : Wing → Endpoint → Prop
  | wait : Moves w target w target
  | begin (h : w.stage = .resting)
      (hreceive : w.endpoint.state.canReceive = true) :
      Moves w target { w with stage := .reading } target
  | read {frame : Frame} {feed : Feed} {state : State}
      (h : w.stage = .reading)
      (hread : Feed.run w.endpoint.incoming (Frame.decode w.endpoint.role w.endpoint.limit) =
        (.ok frame, feed))
      (hstate : Endpoint.stateReceived w.endpoint.state frame.header.opcode = some state) :
      Moves w target
        { w with
          endpoint := { w.endpoint with incoming := feed, state }
          stage := .holding frame
          received := w.received ++ [frame] } target
  | breakOff {error : WebSocket.Error} {feed : Feed}
      {state : State} (h : w.stage = .resting ∨ w.stage = .reading)
      (hstate : w.endpoint.state.Falls state) :
      Moves w target
        { w with
          endpoint := { w.endpoint with incoming := feed, state }
          stage := .failing (.unreadable error) } target
  | begun {frame : Frame} {state : State}
      (h : w.stage = .holding frame)
      (hstate : Endpoint.stateSent target.state frame.header.opcode = some state) :
      Moves w target
        { w with
          stage := .writing (frame.reframe target.role (target.drawKey target.sent.length)) }
        { target with state }
  | refused {frame : Frame} {error : WebSocket.Error}
      (h : w.stage = .holding frame) :
      Moves w target { w with stage := .failing (.undelivered error) } target
  | put {out : Frame} (h : w.stage = .writing out) :
      Moves w target
        { w with stage := if out.header.opcode = .close then .ended none else .resting }
        { target with sent := target.sent ++ [out] }
  | lost {out : Frame} {error : WebSocket.Error}
      (h : w.stage = .writing out) :
      Moves w target { w with stage := .failing (.undelivered error) }
        { target with state := .errored }
  | told {failure : Failure} {state : State} {code : CloseCode}
      {reason : String} {payload : Bytes} (h : w.stage = .failing failure)
      (hstate : Endpoint.stateSent w.endpoint.state .close = some state)
      (hpayload : Close.payload code reason = .ok payload) :
      Moves w target
        { w with
          endpoint := { w.endpoint with state }
          stage := .reporting failure (w.endpoint.closeWith payload) } target
  | untold {failure : Failure} {state : State}
      (h : w.stage = .failing failure) (hstate : w.endpoint.state.Falls state) :
      Moves w target { w with endpoint := { w.endpoint with state }, stage := failure.next } target
  | reported {failure : Failure} {out : Frame}
      (h : w.stage = .reporting failure out) :
      Moves w target
        { w with
          endpoint := { w.endpoint with sent := w.endpoint.sent ++ [out], state := .errored }
          stage := failure.next } target
  | unreported {failure : Failure} {out : Frame}
      (h : w.stage = .reporting failure out) :
      Moves w target
        { w with endpoint := { w.endpoint with state := .errored }, stage := failure.next } target
  | parting {cause : WebSocket.Error} {state : State}
      {payload : Bytes} (h : w.stage = .abandoning cause)
      (hstate : Endpoint.stateSent target.state .close = some state)
      (hpayload : Close.payload .goingAway "" = .ok payload) :
      Moves w target { w with stage := .parting cause (target.closeWith payload) }
        { target with state }
  | silent {cause : WebSocket.Error}
      (h : w.stage = .abandoning cause) :
      Moves w target { w with stage := .ended (some cause) } target
  | parted {cause : WebSocket.Error} {out : Frame}
      (h : w.stage = .parting cause out) :
      Moves w target { w with stage := .ended (some cause) }
        { target with sent := target.sent ++ [out] }
  | unparted {cause : WebSocket.Error} {out : Frame}
      (h : w.stage = .parting cause out) :
      Moves w target { w with stage := .ended (some cause) } { target with state := .errored }

namespace Wing

variable {w : Wing} {target : Endpoint}

theorem advance_resting (h : w.stage = .resting) (hreceive : w.endpoint.state.canReceive = true) :
    w.advance target = ({ w with stage := .reading }, target) := by
  rw [advance, h]
  simp only [Endpoint.run, Endpoint.beginRead_run hreceive]

theorem advance_refused (h : w.stage = .resting)
    (hreceive : w.endpoint.state.canReceive = false) :
    w.advance target =
      ({ w with stage := .failing (.unreadable (.notPermitted w.endpoint.state)) }, target) := by
  rw [advance, h]
  simp only [Endpoint.run, Endpoint.beginRead_refused hreceive]

theorem advance_reading {frame : Frame} {feed : Feed} {state : State} (h : w.stage = .reading)
    (hread : Feed.run w.endpoint.incoming (Frame.decode w.endpoint.role w.endpoint.limit) =
      (.ok frame, feed))
    (hstate : Endpoint.stateReceived w.endpoint.state frame.header.opcode = some state) :
    w.advance target =
      ({ w with
          endpoint := { w.endpoint with incoming := feed, state }
          stage := .holding frame
          received := w.received ++ [frame] }, target) := by
  rw [advance, h]
  simp only [Endpoint.run, Endpoint.finishRead_run hread hstate]

theorem advance_starved (h : w.stage = .reading)
    (hread : (Feed.run w.endpoint.incoming (Frame.decode w.endpoint.role w.endpoint.limit)).1 =
      .error .starved) : w.advance target = (w, target) := by
  obtain ⟨e', hrun⟩ := Endpoint.finishRead_starved hread
  rw [advance, h]
  simp only [Endpoint.run, hrun]

theorem advance_unreadable {error : WebSocket.Error} {source : Endpoint} (h : w.stage = .reading)
    (hread : Endpoint.finishRead.run.run w.endpoint = (.error (.failed error), source)) :
    w.advance target =
      ({ w with endpoint := source, stage := .failing (.unreadable error) }, target) := by
  rw [advance, h]
  simp only [Endpoint.run, hread]

theorem advance_holding {frame : Frame} {state : State} (h : w.stage = .holding frame)
    (hcontrol : frame.header.opcode.isControl = true →
      frame.header.fin = true ∧ frame.payload.length ≤ Close.maxControlPayload)
    (hstate : Endpoint.stateSent target.state frame.header.opcode = some state) :
    w.advance target =
      ({ w with
          stage := .writing (frame.reframe target.role (target.drawKey target.sent.length)) },
        { target with state }) := by
  rw [advance, h]
  simp only [Endpoint.run, Endpoint.prepare_run hcontrol hstate]
  rfl

theorem advance_unprepared {frame : Frame} {error : WebSocket.Error} {target' : Endpoint}
    (h : w.stage = .holding frame)
    (hprepare : (Endpoint.prepare frame.header.opcode frame.header.fin frame.payload).run.run
      target = (.error (.failed error), target')) :
    w.advance target = ({ w with stage := .failing (.undelivered error) }, target') := by
  rw [advance, h]
  simp only [Endpoint.run, hprepare]

theorem advance_writing {out : Frame} (h : w.stage = .writing out) (htarget : target.Connected) :
    w.advance target =
      ({ w with stage := if out.header.opcode = .close then .ended none else .resting },
        { target with sent := target.sent ++ [out] }) := by
  rw [advance, h]
  simp only [Endpoint.run, Endpoint.put_run htarget]

theorem moves_advance_resting (h : w.stage = .resting) :
    w.Moves target (w.advance target).1 (w.advance target).2 := by
  by_cases hreceive : w.endpoint.state.canReceive = true
  · rw [advance_resting h hreceive]
    exact .begin h hreceive
  · rw [advance_refused h (Bool.eq_false_iff.mpr hreceive)]
    exact .breakOff (.inl h) (.inl rfl)

theorem moves_advance_reading (h : w.stage = .reading) :
    w.Moves target (w.advance target).1 (w.advance target).2 := by
  rcases Endpoint.finishRead_cases (e := w.endpoint) with
    ⟨frame, feed, state, hread, hstate, -⟩ | ⟨hstarved, -⟩ | ⟨error, feed, state, hstate, hrun⟩
  · rw [advance_reading h hread hstate]
    exact .read h hread hstate
  · rw [advance_starved h hstarved]
    exact .wait
  · rw [advance_unreadable h hrun]
    exact .breakOff (.inr h) hstate

theorem moves_advance_holding {frame : Frame} (h : w.stage = .holding frame) :
    w.Moves target (w.advance target).1 (w.advance target).2 := by
  rcases Endpoint.prepare_cases (e := target) frame.header.opcode frame.header.fin frame.payload
    with ⟨error, hrun⟩ | ⟨state, hstate, hcontrol, -⟩
  · rw [advance_unprepared h hrun]
    exact .refused h
  · rw [advance_holding h hcontrol hstate]
    exact .begun h hstate

theorem moves_advance_writing {out : Frame} (h : w.stage = .writing out) :
    w.Moves target (w.advance target).1 (w.advance target).2 := by
  rw [advance, h]
  simp only [Endpoint.run]
  rcases Endpoint.put_cases (e := target) out with ⟨-, hrun⟩ | hrun
  · rw [hrun]
    exact .put h
  · rw [hrun]
    exact .lost h

theorem moves_advance_failing {failure : Failure} (h : w.stage = .failing failure) :
    w.Moves target (w.advance target).1 (w.advance target).2 := by
  rw [advance, h]
  rcases Endpoint.beginFail_cases (e := w.endpoint) failure.report with
    ⟨state, hstate, hrun⟩ | ⟨state, code, reason, payload, -, hstate, hpayload, hrun⟩
  · simp only [hrun]
    exact .untold h hstate
  · simp only [hrun]
    exact .told h hstate hpayload

theorem moves_advance_reporting {failure : Failure} {out : Frame}
    (h : w.stage = .reporting failure out) :
    w.Moves target (w.advance target).1 (w.advance target).2 := by
  rw [advance, h]
  rcases Endpoint.endFail_cases (e := w.endpoint) out with hrun | hrun
  · simp only [hrun]
    exact .reported h
  · simp only [hrun]
    exact .unreported h

theorem moves_advance_abandoning {cause : WebSocket.Error} (h : w.stage = .abandoning cause) :
    w.Moves target (w.advance target).1 (w.advance target).2 := by
  rw [advance, h]
  simp only [Endpoint.run]
  by_cases hsend : target.state.canSend = true
  · rw [if_pos hsend]
    rcases Endpoint.prepareClose_cases (e := target) .goingAway "" with
      ⟨error, hrun⟩ | ⟨state, payload, hstate, hpayload, hrun⟩
    · rw [hrun]
      exact .silent h
    · rw [hrun]
      exact .parting h hstate hpayload
  · rw [if_neg hsend]
    exact .silent h

theorem moves_advance_parting {cause : WebSocket.Error} {out : Frame}
    (h : w.stage = .parting cause out) :
    w.Moves target (w.advance target).1 (w.advance target).2 := by
  rw [advance, h]
  simp only [Endpoint.run]
  rcases Endpoint.put_cases (e := target) out with ⟨-, hrun⟩ | hrun
  · rw [hrun]
    exact .parted h
  · rw [hrun]
    exact .unparted h

/-- A pump does one of these things. -/
theorem moves_advance (w : Wing) (target : Endpoint) :
    w.Moves target (w.advance target).1 (w.advance target).2 := by
  cases h : w.stage with
  | resting => exact moves_advance_resting h
  | reading => exact moves_advance_reading h
  | holding frame => exact moves_advance_holding h
  | writing out => exact moves_advance_writing h
  | failing failure => exact moves_advance_failing h
  | reporting failure out => exact moves_advance_reporting h
  | abandoning cause => exact moves_advance_abandoning h
  | parting cause out => exact moves_advance_parting h
  | ended failure =>
    have hsame : w.advance target = (w, target) := by rw [advance, h]
    rw [hsame]
    exact .wait

/-- A wing to which something happened without its pump: only the arrival of bytes, and what ends a
connection. -/
structure Keeps (w w' : Wing) : Prop where
  plays : w'.endpoint.role = w.endpoint.role
  accepts : w'.endpoint.limit = w.endpoint.limit
  draws : w'.endpoint.drawKey = w.endpoint.drawKey
  state : w'.endpoint.state = w.endpoint.state
  sent : w'.endpoint.sent = w.endpoint.sent
  stage : w'.stage = w.stage
  received : w'.received = w.received
  unread : w'.endpoint.incoming.arrived ++ w'.flight = w.endpoint.incoming.arrived ++ w.flight
  /-- Bytes are never on their way again. -/
  flight : w.flight = [] → w'.flight = []

theorem keeps_arrive (n : Nat) : w.Keeps (w.arrive n) := by
  rw [arrive]
  split
  · exact ⟨rfl, rfl, rfl, rfl, rfl, rfl, rfl, rfl, id⟩
  next hopen =>
    refine ⟨rfl, rfl, rfl, rfl, rfl, rfl, rfl, ?_, fun hflight => by rw [hflight, List.drop_nil]⟩
    rw [Feed.push, if_neg hopen, List.append_assoc, List.take_append_drop]

theorem keeps_finish : w.Keeps w.finish :=
  ⟨rfl, rfl, rfl, rfl, rfl, rfl, rfl, rfl, id⟩

theorem keeps_leave : w.Keeps w.leave :=
  ⟨rfl, rfl, rfl, rfl, rfl, rfl, rfl, rfl, id⟩

theorem keeps_hangUp : w.Keeps w.hangUp :=
  ⟨rfl, rfl, rfl, rfl, rfl, rfl, rfl, rfl, id⟩

end Wing

end HttpRelay.Proxy
