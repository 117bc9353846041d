import HttpRelay.Proofs.WebSocket.ClosingHandshake
import HttpRelay.Proofs.WebSocket.SplitHalves

/-!
# The state of a connection and its history

However the two halves of a connection overtake each other, and whatever happens to the transport,
the state of a connection that did not fail tells which closes went over it, and nothing goes over
it in a direction behind a close.

* `Halves.Effect`: what a step may do to the history;
* `Halves.Consistent`: state and history in step with each other, kept by every effect;
* `Halves.reflects_of_reaches`: what this says about every state that is reached.
-/

namespace HttpRelay.WebSocket

/-- Two states of the closing handshake are the same only with the same closes. -/
theorem State.ofCloses_eq_iff {received sent received' sent' : Bool} :
    State.ofCloses received sent = .ofCloses received' sent' ↔
      received = received' ∧ sent = sent' := by
  cases received <;> cases sent <;> cases received' <;> cases sent' <;> simp [State.ofCloses]

/-- An end that has received a close receives nothing more. -/
theorem State.canReceive_ofCloses_eq (received sent : Bool) :
    (State.ofCloses received sent).canReceive = !received := by
  cases received <;> cases sent <;> rfl

/-- An end that has sent a close sends nothing more. -/
theorem State.canSend_ofCloses_eq (received sent : Bool) :
    (State.ofCloses received sent).canSend = !sent := by
  cases received <;> cases sent <;> rfl

/-- A frame that is read from a connection that has failed does not mend it. -/
theorem State.eq_errored_of_stateReceived {opcode : Opcode} {state : State}
    (h : Endpoint.stateReceived .errored opcode = some state) : state = .errored := by
  unfold Endpoint.stateReceived at h
  split at h
  · cases h
  · exact (Option.some.inj h).symm

/-- A close is the last one of some frames, if there is one. -/
def ClosesLast (frames : List Frame) : Prop :=
  ∀ front frame back, frames = front ++ frame :: back → frame.IsClose → back = []

theorem closesLast_of_dropLast {frames : List Frame}
    (h : ∀ frame ∈ frames.dropLast, ¬ frame.IsClose) : ClosesLast frames := by
  rintro front frame back rfl hclose
  refine Classical.byContradiction fun hback => h frame ?_ hclose
  rw [List.dropLast_append_of_ne_nil (List.cons_ne_nil frame back),
    List.dropLast_cons_of_ne_nil hback]
  exact List.mem_append_right _ List.mem_cons_self

/-- If a close is the last one, there is no other. -/
theorem ClosesLast.countP_le {frames : List Frame} (h : ClosesLast frames) :
    frames.countP (·.IsClose) ≤ 1 := by
  induction frames with
  | nil => exact Nat.zero_le 1
  | cons frame frames ih =>
    rw [List.countP_cons]
    split
    next hclose =>
      rw [h [] frame frames rfl (by simpa using hclose)]
      exact Nat.le_refl 1
    next =>
      refine ih fun front other back hsplit => ?_
      exact h (frame :: front) other back (by rw [hsplit, List.cons_append])

namespace Halves

/-- What a step may do to the state and to the history. -/
inductive Effect (s s' : Halves) : Prop
  /-- Nothing goes over the connection. A frame that got ready may be lost. -/
  | silent (state : s.endpoint.state.Falls s'.endpoint.state)
      (sent : s'.endpoint.sent = s.endpoint.sent)
      (pending : s'.sending.pending = s.sending.pending ∨ s'.sending.pending = [])
      (closings : s'.closings = s.closings) (received : s'.received = s.received)
      (receiving : s'.receiving ≠ .idle →
        s.receiving ≠ .idle ∨ s.endpoint.state.canReceive = true)
  /-- A frame is put on the wire. -/
  | wrote {frame : Frame} (state : s'.endpoint.state = s.endpoint.state)
      (ready : s.sending.pending = [frame]) (sent : s'.endpoint.sent = s.endpoint.sent ++ [frame])
      (pending : s'.sending.pending = []) (closings : s'.closings = s.closings)
      (received : s'.received = s.received) (receiving : s'.receiving = s.receiving)
  /-- A frame gets ready. -/
  | prepared {frame : Frame}
      (state : Endpoint.stateSent s.endpoint.state frame.header.opcode = some s'.endpoint.state)
      (idle : s.sending.pending = []) (sent : s'.endpoint.sent = s.endpoint.sent)
      (pending : s'.sending.pending = [frame])
      (closings : s'.closings = s.closings + if frame.header.opcode = .close then 1 else 0)
      (received : s'.received = s.received) (receiving : s'.receiving = s.receiving)
  /-- A frame is read. -/
  | read {frame : Frame}
      (state : Endpoint.stateReceived s.endpoint.state frame.header.opcode =
        some s'.endpoint.state)
      (sent : s'.endpoint.sent = s.endpoint.sent) (sending : s'.sending = s.sending)
      (closings : s'.closings = s.closings) (received : s'.received = s.received ++ [frame])
      (taken : s.receiving ≠ .idle) (receiving : s'.receiving = .idle)

variable {s s' : Halves}

/-- The sending half goes on without a frame. -/
theorem Effect.of_sending {state : State} {sending : Sending}
    (hstate : s.endpoint.state.Falls state) (hnext : sending.pending = []) :
    s.Effect { s with endpoint.state := state, sending } :=
  .silent hstate rfl (.inr hnext) rfl rfl .inl

/-- The receiving half comes to its end without a frame. -/
theorem Effect.of_receiving {state : State} (hstate : s.endpoint.state.Falls state) :
    s.Effect { s with endpoint.state := state, receiving := .idle } :=
  .silent hstate rfl (.inl rfl) rfl rfl fun hbusy => absurd rfl hbusy

/-- A step that does not change anything. -/
theorem Effect.refl (s : Halves) : s.Effect s := .silent (.inl rfl) rfl (.inl rfl) rfl rfl .inl

/-- A frame gets ready, or nothing happens. -/
theorem Effect.of_prepare {out : Outgoing} {answer : Except (Halt Error) Frame} {e : Endpoint}
    (hpending : s.sending.pending = [])
    (hrun : out.prepare.run.run s.endpoint = (answer, e)) :
    match answer with
    | .ok frame => ∀ reports, s.Effect { s with
        endpoint := e
        sending := .putting frame reports
        closings := s.closings + if frame.header.opcode = .close then 1 else 0 }
    | .error _ => e = s.endpoint := by
  rcases out.prepare_cases s.endpoint with ⟨error, hsame⟩ | ⟨frame, state, hstate, hready⟩
  · obtain ⟨rfl, rfl⟩ := Prod.mk.inj (hrun.symm.trans hsame)
    rfl
  · obtain ⟨rfl, rfl⟩ := Prod.mk.inj (hrun.symm.trans hready)
    exact fun reports => .prepared hstate hpending rfl rfl rfl rfl rfl

/-- A step does one of these things. -/
theorem Step.effect (h : s.Step s') : s.Effect s' := by
  cases h with
  -- the receiving half: only a frame that is accepted goes into the history
  | beginRead hidle hrun =>
    rw [Endpoint.beginRead_eq] at hrun
    split at hrun
    next hreceive =>
      obtain ⟨-, rfl⟩ := Prod.mk.inj hrun
      exact .silent (.inl rfl) rfl (.inl rfl) rfl rfl fun _ => .inr hreceive
    next => cases hrun
  | refuseRead hidle hrun =>
    rw [Endpoint.beginRead_eq] at hrun
    split at hrun <;> obtain ⟨-, rfl⟩ := Prod.mk.inj hrun <;> exact .refl s
  | take htaking hrun | misread htaking hrun =>
    exact .silent (.inl rfl) rfl (.inl rfl) rfl rfl fun _ => .inl (by simp [htaking])
  | accept hnoting hrun =>
    rw [Endpoint.endRead_eq] at hrun
    split at hrun
    next state hstate =>
      obtain ⟨-, rfl⟩ := Prod.mk.inj hrun
      exact .read hstate rfl rfl rfl rfl (by simp [hnoting]) rfl
    next => cases hrun
  | reject hnoting hrun =>
    rw [Endpoint.endRead_eq] at hrun
    split at hrun
    next => cases hrun
    next =>
      obtain ⟨-, rfl⟩ := Prod.mk.inj hrun
      exact .of_receiving (.inl rfl)
  | @breakRead error hnoting =>
    obtain ⟨state, hstate, hrun⟩ := Endpoint.breakRead_run s.endpoint error
    rw [hrun]
    exact .of_receiving hstate
  -- the sending half: a frame is in the history once it is on the wire
  | ready hidle hrun => exact Effect.of_prepare (by rw [hidle]; rfl) hrun false
  | @refuse out halt e hidle hrun =>
    have hsame : e = s.endpoint := Effect.of_prepare (by rw [hidle]; rfl) hrun
    rw [hsame]
    exact .refl s
  | @put frame reports hputting =>
    rcases Endpoint.put_cases (e := s.endpoint) frame with ⟨-, hrun⟩ | hrun
    · rw [hrun]
      exact .wrote rfl (by rw [hputting]; rfl) rfl (Sending.pending_afterPut reports) rfl rfl rfl
    · rw [hrun]
      exact .of_sending (.inr rfl) (Sending.pending_afterPut reports)
  | fail error hidle => exact .of_sending (.inl rfl) (Sending.pending_ofFailure _ error)
  | report hreporting => exact .of_sending (.inl rfl) (Sending.pending_ofReport _ _ _)
  | part hparting hrun => exact Effect.of_prepare (by rw [hparting]; rfl) hrun true
  | @stay code reason halt e hparting hrun =>
    have hsame : e = s.endpoint := Effect.of_prepare (by rw [hparting]; rfl) hrun
    rw [hsame]
    exact .of_sending (.inl rfl) rfl
  | fall hfailing => exact .of_sending (.inr rfl) rfl
  -- what happens to the halves: a frame that got ready may never come to the wire
  | transport incoming shut peerGone =>
    exact .silent (.inl rfl) rfl (.inl rfl) rfl rfl .inl
  | abandonRead htaking => exact .of_receiving (.inl rfl)
  | abandonWrite hputting => exact .of_sending (.inl rfl) rfl

/-- The state and the history of a connection in step with each other. -/
structure Consistent (s : Halves) : Prop where
  /-- A connection that did not fail is in the state that its closes make. -/
  state : s.endpoint.state = .errored ∨
    s.endpoint.state = .ofCloses (hasClose s.received) (decide (s.closings ≠ 0))
  closings : s.closings ≤ 1
  /-- Nothing is sent behind a close, what is on its way included. -/
  sent : Closing s.endpoint.state (s.endpoint.sent ++ s.sending.pending)
  /-- Nothing was received behind a close. -/
  received : ∀ frame ∈ s.received.dropLast, ¬ frame.IsClose
  /-- No read goes on behind a close. -/
  receiving : s.receiving ≠ .idle → hasClose s.received = false

/-- A frame may get ready only in front of any close, and a close moves the state. -/
theorem Consistent.prepared (h : s.Consistent) {opcode : Opcode} {state : State}
    (hstate : Endpoint.stateSent s.endpoint.state opcode = some state) :
    s.closings = 0 ∧ state = .ofCloses (hasClose s.received) (decide (opcode = .close)) := by
  have hsend := (State.canSend_of_stateSent hstate).1
  rcases h.state with herrored | hcloses
  · rw [herrored] at hsend
    cases hsend
  · rw [hcloses, State.canSend_ofCloses_eq] at hsend
    have hnone : decide (s.closings ≠ 0) = false := by simpa using hsend
    rw [hcloses, hnone, State.stateSent_ofCloses] at hstate
    exact ⟨by simpa using hnone, (Option.some.inj hstate).symm⟩

/-- A frame may be read only in front of any close, and a close moves the state, unless the
connection has failed. -/
theorem Consistent.read (h : s.Consistent) (hbusy : s.receiving ≠ .idle) {opcode : Opcode}
    {state : State} (hstate : Endpoint.stateReceived s.endpoint.state opcode = some state) :
    state = .errored ∨
      state = .ofCloses (decide (opcode = .close)) (decide (s.closings ≠ 0)) := by
  rcases h.state with herrored | hcloses
  · rw [herrored] at hstate
    exact .inl (State.eq_errored_of_stateReceived hstate)
  · rw [hcloses, h.receiving hbusy, State.stateReceived_ofCloses] at hstate
    exact .inr (Option.some.inj hstate).symm

/-- Each step keeps state and history in step. -/
theorem Consistent.step (h : s.Consistent) (hstep : s.Step s') : s'.Consistent := by
  cases hstep.effect with
  | silent state sent pending closings received receiving =>
    refine ⟨?_, closings ▸ h.closings, ?_, received ▸ h.received, fun hbusy => ?_⟩
    · rw [closings, received]
      rcases state with hsame | herrored
      · exact hsame ▸ h.state
      · exact .inl herrored
    · -- the line of sent frames stays, or loses the frame that was to come last
      have hline := h.sent.mono fun hsend => state.canSend hsend
      rw [sent]
      rcases pending with hsame | hnone
      · exact hsame ▸ hline
      · rw [hnone, List.append_nil]
        exact hline.of_append
    · rw [received]
      rcases receiving hbusy with hbusy | hreceive
      · exact h.receiving hbusy
      · -- a read begins only in front of a close
        rcases h.state with herrored | hcloses
        · rw [herrored] at hreceive
          cases hreceive
        · rw [hcloses, State.canReceive_ofCloses_eq] at hreceive
          simpa using hreceive
  | wrote state ready sent pending closings received receiving =>
    refine ⟨?_, closings ▸ h.closings, ?_, received ▸ h.received, ?_⟩
    · rw [state, closings, received]
      exact h.state
    · -- the frame was in the line already
      rw [state, sent, pending, List.append_nil, ← ready]
      exact h.sent
    · rw [receiving, received]
      exact h.receiving
  | @prepared frame state idle sent pending closings received receiving =>
    -- no close had moved the state, so this frame may be the one
    obtain ⟨hnone, hcloses⟩ := h.prepared state
    have hline := h.sent
    rw [idle, List.append_nil] at hline
    rw [hnone, Nat.zero_add] at closings
    refine ⟨.inr ?_, ?_, ?_, received ▸ h.received, ?_⟩
    · rw [hcloses, closings, received]
      by_cases hclose : frame.header.opcode = .close <;> simp [hclose]
    · rw [closings]
      split <;> omega
    · rw [sent, pending]
      exact hline.concat state
    · rw [receiving, received]
      exact h.receiving
  | @read frame state sent sending closings received taken receiving =>
    -- the read was under way, so nothing received so far is a close
    have hopen := h.receiving taken
    refine ⟨?_, closings ▸ h.closings, ?_, ?_, fun hbusy => absurd receiving hbusy⟩
    · rw [received, hasClose_append, hopen, Bool.false_or, hasClose_singleton, closings]
      exact h.read taken state
    · rw [sent, sending]
      exact h.sent.mono fun hsend => State.canSend_of_stateReceived state hsend
    · rw [received, List.dropLast_concat]
      exact hasClose_eq_false.mp hopen

/-- A connection that has failed stays failed. -/
theorem Step.errored (hstep : s.Step s') (herrored : s.endpoint.state = .errored) :
    s'.endpoint.state = .errored := by
  cases hstep.effect with
  | silent state => exact state.elim (fun hsame => hsame.trans herrored) id
  | wrote state => exact state.trans herrored
  | prepared state =>
    have hsend := (State.canSend_of_stateSent state).1
    rw [herrored] at hsend
    cases hsend
  | read state =>
    rw [herrored] at state
    exact State.eq_errored_of_stateReceived state

/-- What the state says about the frames that went over a connection. -/
structure Reflects (s : Halves) : Prop where
  /-- At most one close that was to be sent moved the state. -/
  closings : s.closings ≤ 1
  /-- No frame is written behind a close. -/
  written : ClosesLast s.endpoint.sent
  /-- At most one close was accepted. -/
  accepted : s.received.countP (·.IsClose) ≤ 1
  /-- No frame was read behind a close, and none is being read. -/
  read : ClosesLast s.received ∧ (hasClose s.received = true → s.receiving = .idle)
  open_iff : s.endpoint.state ≠ .errored →
    (s.endpoint.state = .open ↔ s.closings = 0 ∧ hasClose s.received = false)
  closeSent_iff : s.endpoint.state ≠ .errored →
    (s.endpoint.state = .closeSent ↔ s.closings = 1 ∧ hasClose s.received = false)
  closeReceived_iff : s.endpoint.state ≠ .errored →
    (s.endpoint.state = .closeReceived ↔ s.closings = 0 ∧ hasClose s.received = true)
  closed_iff : s.endpoint.state ≠ .errored →
    (s.endpoint.state = .closed ↔ s.closings = 1 ∧ hasClose s.received = true)

theorem Consistent.reflects (h : s.Consistent) : s.Reflects := by
  have hread := closesLast_of_dropLast h.received
  -- each of the four states stands for one pair of answers: was a close received, was one sent
  have hcloses (hstate : s.endpoint.state ≠ .errored) (received sent : Bool) :
      s.endpoint.state = .ofCloses received sent ↔
        decide (s.closings ≠ 0) = sent ∧ hasClose s.received = received := by
    rw [h.state.resolve_left hstate, State.ofCloses_eq_iff, and_comm]
  have hone := h.closings
  refine ⟨hone, ?_, hread.countP_le, ⟨hread, fun hclose => ?_⟩, ?_, ?_, ?_, ?_⟩
  · exact closesLast_of_dropLast h.sent.of_append.last
  · refine Classical.byContradiction fun hbusy => ?_
    rw [h.receiving hbusy] at hclose
    cases hclose
  · intro hstate
    refine (hcloses hstate false false).trans (and_congr_left' ?_)
    simp
  · intro hstate
    refine (hcloses hstate false true).trans (and_congr_left' ?_)
    simp
    omega
  · intro hstate
    refine (hcloses hstate true false).trans (and_congr_left' ?_)
    simp
  · intro hstate
    refine (hcloses hstate true true).trans (and_congr_left' ?_)
    simp
    omega

/-- A connection that was just opened, and over which nothing went yet. -/
def Opened (s : Halves) : Prop :=
  ∃ e : Endpoint, s = { endpoint := e } ∧ e.sent = [] ∧
    (e.state = .open ∨
      ∃ before, before.state = .connecting ∧ Endpoint.opened.run.run before = (.ok (), e))

theorem Opened.consistent (h : s.Opened) : s.Consistent := by
  obtain ⟨e, rfl, hsent, hopen⟩ := h
  have hstate : e.state = .open := by
    rcases hopen with hopen | ⟨before, hbefore, hrun⟩
    · exact hopen
    · rw [Endpoint.opened, Endpoint.transition_eq, hbefore] at hrun
      obtain ⟨-, rfl⟩ := Prod.mk.inj hrun
      rfl
  refine ⟨.inr hstate, Nat.zero_le 1, ?_, by simp, fun _ => rfl⟩
  have hline : e.sent ++ Sending.idle.pending = [] := by rw [hsent]; rfl
  rw [hline]
  exact ⟨by simp, fun _ => by simp⟩

theorem Consistent.reaches (h : s.Consistent) (hreach : s.Reaches s') : s'.Consistent := by
  induction hreach with
  | refl => exact h
  | tail _ hstep ih => exact ih.step hstep

/-- The state of a connection reflects what went over it, whatever its halves do and however they
overtake each other, and a failure is never left. -/
theorem reflects_of_reaches (hopened : s.Opened) (hreach : s.Reaches s') :
    s'.Reflects ∧ ∀ s'', s'.Reaches s'' → s'.endpoint.state = .errored →
      s''.endpoint.state = .errored := by
  refine ⟨(hopened.consistent.reaches hreach).reflects, fun s'' hreach' herrored => ?_⟩
  -- by the steps from the failure on
  induction hreach' with
  | refl => exact herrored
  | tail _ hstep ih => exact hstep.errored ih

/-- The end of a connection whose peer closes it. -/
def metByClose : Halves :=
  { endpoint := { role := .client, incoming := .complete [0x88, 0x00] } }

/-- Both ends close at once: the close that was sent overtakes the read that is under way. -/
theorem reflects_of_reaches_crossing :
    ∃ s, metByClose.Reaches s ∧ s.endpoint.state = .closed ∧ s.endpoint.sent.length = 1 ∧
      s.received.length = 1 ∧ s.Reflects := by
  have hreach : metByClose.Reaches _ :=
    .head (.beginRead rfl rfl)
      (.head (@Step.ready _ (.close .normal "") _ _ rfl rfl)
        (.head (.take rfl rfl) (.head (.accept rfl rfl) (.single (.put rfl)))))
  refine ⟨_, hreach, ?_, ?_, ?_, ?_⟩
  · decide +kernel
  · decide +kernel
  · decide +kernel
  · exact (reflects_of_reaches ⟨_, rfl, rfl, .inl rfl⟩ hreach).1

end Halves

end HttpRelay.WebSocket
