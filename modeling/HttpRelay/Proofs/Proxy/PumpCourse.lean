import HttpRelay.Proofs.Proxy.PumpSafety

/-!
# A pump between peers in good order

What a pump does whose peers keep to the protocol and whose connections last: it goes through the
frames of its peer one by one, it never fails, and each step brings it nearer to its end.

* `Speaks`: what a peer sends that keeps to the protocol;
* `Speaks.of_encode`: any frames that an end accepts, and a close behind them;
* `Course`: what holds of a pump between two such peers;
* `Course.stride`: a step keeps it, and there is one step less to make.
-/

namespace HttpRelay.WebSocket

@[simp] theorem hasClose_reframed (role : Role) (keys : Nat → MaskKey) (frames : List Frame) :
    hasClose (reframed role keys frames) = hasClose frames := by
  induction frames generalizing keys with
  | nil => rfl
  | cons frame frames ih =>
    rw [reframed, List.mapIdx_cons]
    exact congrArg (decide frame.IsClose || ·) (ih fun i => keys (i + 1))

/-- What a peer sends that keeps to the protocol: frames, and a close behind them. -/
structure Speaks (role : Role) (limit : Nat) (stream : Bytes) (frames : List Frame) : Prop where
  decodes : ∃ rest, Decodes role limit stream frames rest
  closes : ∃ said close, frames = said ++ [close] ∧ close.IsClose ∧ hasClose said = false

/-- Control frames that are read may be sent on. -/
theorem Decodes.control {role : Role} {limit : Nat} {bytes rest : Bytes} {frames : List Frame}
    (h : Decodes role limit bytes frames rest) :
    ∀ frame ∈ frames, frame.header.opcode.isControl = true →
      frame.header.fin = true ∧ frame.payload.length ≤ Close.maxControlPayload := by
  induction h with
  | nil => exact List.forall_mem_nil _
  | cons hframe _ ih =>
    exact List.forall_mem_cons.mpr ⟨Frame.ensures_decode _ _ _ _ _ hframe, ih⟩

namespace Speaks

variable {role : Role} {limit : Nat} {stream : Bytes} {frames received todo : List Frame}

theorem hasClose_eq_true (h : Speaks role limit stream frames) : hasClose frames = true := by
  obtain ⟨said, close, hframes, hclose, -⟩ := h.closes
  simp [hframes, hclose]

/-- Until the close is read, there is more to read. -/
theorem exists_cons (h : Speaks role limit stream frames) (hsplit : frames = received ++ todo)
    (hopen : hasClose received = false) : ∃ frame more, todo = frame :: more := by
  cases todo with
  | cons frame more => exact ⟨frame, more, rfl⟩
  | nil =>
    rw [List.append_nil] at hsplit
    rw [← hsplit, h.hasClose_eq_true] at hopen
    cases hopen

/-- In front of a frame there is no close, and behind a close there is no frame. -/
theorem split {past more : List Frame} {frame : Frame} (h : Speaks role limit stream frames)
    (hsplit : frames = past ++ frame :: more) :
    hasClose past = false ∧ (frame.IsClose → more = []) := by
  obtain ⟨said, close, hframes, hclose, hsaid⟩ := h.closes
  rw [hframes] at hsplit
  rcases List.eq_nil_or_concat more with rfl | ⟨middle, last, rfl⟩
  · obtain ⟨rfl, -⟩ := List.append_inj' hsplit rfl
    exact ⟨hsaid, fun _ => rfl⟩
  · rw [List.concat_eq_append, ← List.cons_append, ← List.append_assoc] at hsplit
    obtain ⟨rfl, -⟩ := List.append_inj' hsplit rfl
    rw [hasClose_eq_false] at hsaid
    refine ⟨hasClose_eq_false.mpr fun other hother => hsaid other (List.mem_append_left _ hother),
      fun hframe => absurd hframe (hsaid frame (by simp))⟩

/-- Any frames that an end accepts, with a close behind them, keep to the protocol. -/
theorem of_encode {role : Role} {limit : Nat} {said : List Frame} {close : Frame}
    (hsaid : ∀ frame ∈ said, frame.Acceptable role limit) (hopen : hasClose said = false)
    (hlast : close.Acceptable role limit) (hclose : close.IsClose) (rest : Bytes) :
    Speaks role limit ((said ++ [close]).flatMap Frame.encode ++ rest) (said ++ [close]) where
  decodes := by
    refine ⟨rest, .of_encode (fun frame hframe => ?_) rest⟩
    rcases List.mem_append.mp hframe with hframe | hframe
    · exact hsaid frame hframe
    · exact List.mem_singleton.mp hframe ▸ hlast
  closes := ⟨said, close, rfl, hclose, hopen⟩

end Speaks

end HttpRelay.WebSocket

namespace HttpRelay.Proxy

open WebSocket

/-- What a pump between two peers in good order is doing, by the frames that its peer sends, those
that it read, and those that were sent on. -/
def Stage.Conveys (peer : Role) (keys : Nat → MaskKey) (frames received sent : List Frame) :
    Stage → Prop
  | resting | reading => sent = reframed peer keys received ∧ hasClose received = false
  | holding frame => ∃ past, received = past ++ [frame] ∧ sent = reframed peer keys past
  | writing out => ∃ past frame, received = past ++ [frame] ∧
    out = frame.reframe peer (keys past.length) ∧ sent = reframed peer keys past
  | ended none => received = frames ∧ sent = reframed peer keys frames
  | _ => False

/-- Whatever a pump between two peers in good order is doing, it sent on a beginning of what it
read. -/
theorem Stage.Conveys.sent_eq {peer : Role} {keys : Nat → MaskKey}
    {frames received sent : List Frame} {stage : Stage}
    (h : stage.Conveys peer keys frames received sent) :
    ∃ forwarded, forwarded <+: received ∧ sent = reframed peer keys forwarded := by
  cases stage with
  | resting | reading => exact ⟨received, List.prefix_rfl, h.1⟩
  | holding frame =>
    obtain ⟨past, rfl, hsent⟩ := h
    exact ⟨past, List.prefix_append _ _, hsent⟩
  | writing out =>
    obtain ⟨past, frame, rfl, -, hsent⟩ := h
    exact ⟨past, List.prefix_append _ _, hsent⟩
  | ended failure =>
    cases failure with
    | none => exact ⟨received, List.prefix_rfl, h.1 ▸ h.2⟩
    | some error => exact h.elim
  | _ => exact h.elim

/-- A pump that conveys frames has not failed. -/
theorem Stage.Conveys.isFailed_eq_false {peer : Role} {keys : Nat → MaskKey}
    {frames received sent : List Frame} {stage : Stage}
    (h : stage.Conveys peer keys frames received sent) : stage.isFailed = false := by
  cases stage with
  | resting | reading | holding _ | writing _ => rfl
  | ended failure =>
    cases failure with
    | none => rfl
    | some error => exact h.elim
  | _ => exact h.elim

/-- What holds of a pump between two peers in good order, by its wing and the other one. -/
structure Course (role : Role) (limit : Nat) (keys : Nat → MaskKey) (frames : List Frame)
    (w other : Wing) : Prop where
  plays : w.endpoint.role = role
  accepts : w.endpoint.limit = limit
  draws : other.endpoint.drawKey = keys
  unread : ∃ todo rest, frames = w.received ++ todo ∧
    Decodes role limit (w.endpoint.incoming.arrived ++ w.flight) todo rest
  /-- The input does not end before all of it arrived. -/
  lasting : w.endpoint.incoming.closed = true → w.flight = []
  conveys : w.stage.Conveys role.peer keys frames w.received other.endpoint.sent
  state : w.endpoint.state =
    .ofCloses (hasClose w.received) (hasClose (w.endpoint.sent ++ other.stage.toTarget))
  /-- The peer does not go away before it was sent a close. -/
  present : w.endpoint.peerGone = true → hasClose w.endpoint.sent = true

/-- How many steps a pump has still to make. -/
def Wing.remaining (w : Wing) (frames : List Frame) : Nat :=
  let todo := frames.length - w.received.length
  match w.stage with
  | .resting => 4 * todo
  | .reading => 4 * todo - 1
  | .holding _ => 4 * todo + 2
  | .writing _ => 4 * todo + 1
  | _ => 0

/-- A step of a pump in good order: both wings behind it, and one step less to make, unless bytes
are still on their way. -/
structure Stride (role : Role) (limit : Nat) (keys keys' : Nat → MaskKey)
    (frames frames' : List Frame) (w w' other' : Wing) : Prop where
  near : Course role limit keys frames w' other'
  far : Course role.peer limit keys' frames' other' w'
  fewer : w.flight ≠ [] ∧ w' = w ∨ w'.remaining frames = w.remaining frames - 1

namespace Course

variable {role : Role} {limit : Nat} {keys keys' : Nat → MaskKey} {stream : Bytes}
  {frames frames' : List Frame} {w w' other : Wing}

/-- A step that does not touch what a pump writes to keeps that pump in good order. -/
theorem kept_other (h : Course role limit keys frames other w)
    (hkeys : w'.endpoint.drawKey = w.endpoint.drawKey) (hsent : w'.endpoint.sent = w.endpoint.sent)
    (hstage : w'.stage.toTarget = w.stage.toTarget) : Course role limit keys frames other w' where
  plays := h.plays
  accepts := h.accepts
  draws := hkeys.trans h.draws
  unread := h.unread
  lasting := h.lasting
  conveys := by rw [hsent]; exact h.conveys
  state := by rw [hstage]; exact h.state
  present := h.present

variable (h : Course role limit keys frames w other)
  (h' : Course role.peer limit keys' frames' other w)

include h h'

theorem stride_resting (hstage : w.stage = .resting) :
    Stride role limit keys keys' frames frames' w (w.advance other.endpoint).1
      { other with endpoint := (w.advance other.endpoint).2 } := by
  have hconveys := h.conveys
  rw [hstage] at hconveys
  have hreceive : w.endpoint.state.canReceive = true := by
    rw [h.state, hconveys.2]
    exact State.canReceive_ofCloses _
  rw [Wing.advance_resting hstage hreceive]
  refine ⟨?_, h'.kept_other rfl rfl (by rw [hstage]; rfl), .inr (by simp [Wing.remaining, hstage])⟩
  exact ⟨h.plays, h.accepts, h.draws, h.unread, h.lasting, hconveys, h.state, h.present⟩

theorem stride_reading (hspeaks : Speaks role limit stream frames) (hstage : w.stage = .reading) :
    Stride role limit keys keys' frames frames' w (w.advance other.endpoint).1
      { other with endpoint := (w.advance other.endpoint).2 } := by
  have hconveys := h.conveys
  rw [hstage] at hconveys
  obtain ⟨todo, rest, hsplit, hdecodes⟩ := h.unread
  obtain ⟨frame, more, rfl⟩ := hspeaks.exists_cons hsplit hconveys.2
  rcases hdecodes.read_cases h.lasting with ⟨hflight, hstarved⟩ | ⟨left, hread, hleft⟩
  · -- a part of the frame is still on its way
    rw [← h.plays, ← h.accepts] at hstarved
    rw [Wing.advance_starved hstage hstarved]
    exact ⟨h, h', .inl ⟨hflight, rfl⟩⟩
  · rw [← h.plays, ← h.accepts] at hread
    -- no close was read before, so any frame may be read
    have hstate := State.stateReceived_ofCloses frame.header.opcode
      (hasClose (w.endpoint.sent ++ other.stage.toTarget))
    rw [← hconveys.2, ← h.state] at hstate
    rw [Wing.advance_reading hstage hread hstate]
    refine ⟨?_, h'.kept_other rfl rfl (by rw [hstage]; rfl), .inr ?_⟩
    · refine ⟨h.plays, h.accepts, h.draws, ⟨more, rest, ?_, hleft⟩, h.lasting,
        ⟨w.received, rfl, hconveys.1⟩, ?_, h.present⟩
      · rw [hsplit, List.append_assoc, List.singleton_append]
      · have hclose : hasClose (w.received ++ [frame]) = decide frame.IsClose := by
          rw [hasClose_append, hconveys.2, hasClose_singleton, Bool.false_or]
        exact congrArg (State.ofCloses · _) hclose.symm
    · simp only [Wing.remaining, hstage, hsplit, List.length_append, List.length_cons,
        List.length_nil]
      omega

theorem stride_holding (hspeaks : Speaks role limit stream frames) {frame : Frame}
    (hstage : w.stage = .holding frame) :
    Stride role limit keys keys' frames frames' w (w.advance other.endpoint).1
      { other with endpoint := (w.advance other.endpoint).2 } := by
  have hconveys := h.conveys
  rw [hstage] at hconveys
  obtain ⟨past, hreceived, hsent⟩ := hconveys
  obtain ⟨todo, rest, hsplit, hdecodes⟩ := h.unread
  rw [hreceived, List.append_assoc, List.singleton_append] at hsplit
  have hpast := (hspeaks.split hsplit).1
  obtain ⟨_, hall⟩ := hspeaks.decodes
  have hcontrol := hall.control frame (by rw [hsplit]; simp)
  -- Nothing that was sent was a close, so the frame may be sent whatever it is.
  have hbefore := h'.state
  rw [hstage, hsent, show Stage.toTarget (.holding frame) = [] from rfl, List.append_nil,
    hasClose_reframed, hpast] at hbefore
  have hstate := State.stateSent_ofCloses frame.header.opcode (hasClose other.received)
  rw [← hbefore] at hstate
  rw [Wing.advance_holding hstage hcontrol hstate]
  refine ⟨?_, ?_, .inr ?_⟩
  · refine ⟨h.plays, h.accepts, h.draws, h.unread, h.lasting, ⟨past, frame, hreceived, ?_, hsent⟩,
      h.state, h.present⟩
    rw [h'.plays, h.draws, hsent, length_reframed]
  · refine ⟨h'.plays, h'.accepts, h'.draws, h'.unread, h'.lasting, h'.conveys, ?_, h'.present⟩
    change _ = State.ofCloses _ (hasClose (other.endpoint.sent ++ [_]))
    rw [hasClose_append, hsent, hasClose_reframed, hpast, hasClose_singleton, Bool.false_or]
    rfl
  · simp [Wing.remaining, hstage]

theorem stride_writing (hspeaks : Speaks role limit stream frames) {out : Frame}
    (hstage : w.stage = .writing out) (hshut : other.endpoint.shut = false) :
    Stride role limit keys keys' frames frames' w (w.advance other.endpoint).1
      { other with endpoint := (w.advance other.endpoint).2 } := by
  have hconveys := h.conveys
  rw [hstage] at hconveys
  obtain ⟨past, frame, hreceived, hout, hsent⟩ := hconveys
  obtain ⟨todo, rest, hsplit, hdecodes⟩ := h.unread
  rw [hreceived, List.append_assoc, List.singleton_append] at hsplit
  obtain ⟨hpast, hlast⟩ := hspeaks.split hsplit
  -- A peer that was not sent a close is still there.
  have hconnected : other.endpoint.Connected := by
    refine ⟨hshut, Bool.eq_false_iff.mpr fun hgone => ?_⟩
    have hclose := h'.present hgone
    rw [hsent, hasClose_reframed, hpast] at hclose
    cases hclose
  have hsent' : other.endpoint.sent ++ [out] = reframed role.peer keys w.received := by
    rw [hreceived, reframed_concat, hsent, hout]
  -- For the other pump the frame is on the wire, whether it was the close or not.
  have hfar (stage : Stage) (hnone : stage.toTarget = []) :
      Course role.peer limit keys' frames'
        { other with endpoint := { other.endpoint with sent := other.endpoint.sent ++ [out] } }
        { w with stage } := by
    have hstate := h'.state
    rw [hstage, show Stage.toTarget (.writing out) = [out] from rfl] at hstate
    refine ⟨h'.plays, h'.accepts, h'.draws, h'.unread, h'.lasting, h'.conveys, ?_, fun hgone => ?_⟩
    · rw [hnone, List.append_nil]
      exact hstate
    · rw [hasClose_append, h'.present hgone, Bool.true_or]
  have hopcode : out.header.opcode = frame.header.opcode := by rw [hout]; rfl
  rw [Wing.advance_writing hstage hconnected, hopcode]
  by_cases hclose : frame.header.opcode = .close
  · -- the close is the last frame of the peer
    have hall : w.received = frames := by rw [hreceived, hsplit, hlast hclose]
    rw [if_pos hclose]
    refine ⟨?_, hfar _ rfl, .inr (by simp [Wing.remaining, hstage, hall])⟩
    exact ⟨h.plays, h.accepts, h.draws, h.unread, h.lasting, ⟨hall, hall ▸ hsent'⟩, h.state,
      h.present⟩
  · have hopen : hasClose w.received = false := by
      rw [hreceived, hasClose_append, hpast, hasClose_singleton, Bool.false_or]
      exact decide_eq_false hclose
    rw [if_neg hclose]
    refine ⟨?_, hfar _ rfl, .inr (by simp [Wing.remaining, hstage])⟩
    exact ⟨h.plays, h.accepts, h.draws, h.unread, h.lasting, ⟨hsent', hopen⟩, h.state, h.present⟩

/-- A pump in good order goes on in good order. -/
theorem stride (hspeaks : Speaks role limit stream frames)
    (hshut : w.stage.isDone = false → other.endpoint.shut = false) :
    Stride role limit keys keys' frames frames' w (w.advance other.endpoint).1
      { other with endpoint := (w.advance other.endpoint).2 } := by
  have hconveys := h.conveys
  cases hstage : w.stage with
  | resting => exact stride_resting h h' hstage
  | reading => exact stride_reading h h' hspeaks hstage
  | holding frame => exact stride_holding h h' hspeaks hstage
  | writing out =>
    exact stride_writing h h' hspeaks hstage (hshut (by rw [hstage]; rfl))
  | ended failure =>
    have hsame : w.advance other.endpoint = (w, other.endpoint) := by rw [Wing.advance, hstage]
    rw [hsame]
    exact ⟨h, h', .inr (by simp [Wing.remaining, hstage])⟩
  | failing _ | reporting _ _ | abandoning _ | parting _ _ =>
    rw [hstage] at hconveys
    exact hconveys.elim

end Course

end HttpRelay.Proxy
