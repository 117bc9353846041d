import HttpRelay.Proofs.WebSocket.ClosingHandshake
import HttpRelay.Proofs.WebSocket.ReadOutcomes
import HttpRelay.Proofs.WebSocket.Reassembly

/-!
# Frames are read in their order

The reads of a connection take frames in the order in which they may come, and refuse the first one
that may not come where it does.

* `Connection.Took`: what reads took;
* `Connection.Refuses`: what a read refuses on account of its order;
* `Connection.checks_messageWithin`: every read does one or the other;
* `Connection.receives_refuses`: what was taken before a frame is refused.
-/

namespace HttpRelay.WebSocket

open Outcome

/-- A frame that may not come where it does is no close. -/
theorem Frame.not_isClose_of_openBehind? {frame : Frame} {isOpen : Bool}
    (h : frame.openBehind? isOpen = none) : ¬ frame.IsClose := by
  intro hclose
  rw [openBehind?_control (by rw [hclose]; rfl)] at h
  cases h

namespace Connection

variable {c c' : Connection} {frames more past : List Frame} {frame : Frame} {rest : Bytes}

/-- What reads took of the bytes that arrived: frames in order, and no close if more can follow. -/
structure Took (c : Connection) (frames : List Frame) (c' : Connection) : Prop where
  role : c'.endpoint.role = c.endpoint.role
  limit : c'.endpoint.limit = c.endpoint.limit
  decodes : Decodes c.endpoint.role c.endpoint.limit c.endpoint.incoming.arrived frames
    c'.endpoint.incoming.arrived
  order : openBehind? c.fragments.isSome frames = some c'.fragments.isSome
  unclosed : c'.endpoint.state.canReceive = true → hasClose frames = false

/-- What a connection finds behind some frames: a frame that may not come there. -/
structure Refuses (c : Connection) (past : List Frame) (frame : Frame) (rest : Bytes) : Prop where
  decodes : Decodes c.endpoint.role c.endpoint.limit c.endpoint.incoming.arrived (past ++ [frame])
    rest
  order : ∃ isOpen, openBehind? c.fragments.isSome past = some isOpen ∧
    frame.openBehind? isOpen = none
  unclosed : hasClose (past ++ [frame]) = false

theorem took_nil (c : Connection) : c.Took [] c := ⟨rfl, rfl, .nil _, rfl, fun _ => rfl⟩

theorem Took.append {c₁ : Connection} (h : c.Took frames c₁)
    (hreceive : c₁.endpoint.state.canReceive = true) (hmore : c₁.Took more c') :
    c.Took (frames ++ more) c' := by
  have hdecodes := hmore.decodes
  rw [h.role, h.limit] at hdecodes
  refine ⟨hmore.role.trans h.role, hmore.limit.trans h.limit, h.decodes.append hdecodes, ?_,
    fun hlast => ?_⟩
  · rw [openBehind?_append, h.order]
    exact hmore.order
  · rw [hasClose_append, h.unclosed hreceive, hmore.unclosed hlast]
    rfl

/-- A frame that is refused behind what reads took. -/
theorem Took.refuses {c₁ : Connection} (h : c.Took frames c₁)
    (hreceive : c₁.endpoint.state.canReceive = true) (hrefuses : c₁.Refuses past frame rest) :
    c.Refuses (frames ++ past) frame rest := by
  have hdecodes := hrefuses.decodes
  rw [h.role, h.limit] at hdecodes
  obtain ⟨isOpen, hpast, hframe⟩ := hrefuses.order
  refine ⟨?_, ⟨isOpen, ?_, hframe⟩, ?_⟩
  · rw [List.append_assoc]
    exact h.decodes.append hdecodes
  · rw [openBehind?_append, h.order]
    exact hpast
  · rw [List.append_assoc, hasClose_append, h.unclosed hreceive, hrefuses.unclosed]
    rfl

/-- A frame that is refused from a fresh connection on is out of order. -/
theorem Refuses.not_inOrder (h : c.Refuses past frame rest) (hnone : c.fragments = none) :
    InOrder past ∧ ¬ InOrder (past ++ [frame]) := by
  obtain ⟨isOpen, hpast, hframe⟩ := h.order
  rw [hnone] at hpast
  exact not_inOrder_concat hpast hframe

/-- A read takes frames up to the one that completes a message, or refuses one. -/
inductive Checks (c : Connection) : Except (Halt Error) Message × Connection → Prop
  | message {message : Message} {frames : List Frame} {c' : Connection}
      (htook : c.Took frames c') : Checks c (.ok message, c')
  | halt {halt : Halt Error} {c' : Connection}
      (hrefuses : OutOfTurn halt → ∃ past frame rest, c.Refuses past frame rest) :
      Checks c (.error halt, c')

/-- Frames that completed no message come first of what a read takes. -/
theorem Took.checks {c₁ : Connection} {result : Except (Halt Error) Message × Connection}
    (h : c.Took frames c₁) (hreceive : c₁.endpoint.state.canReceive = true)
    (hchecks : c₁.Checks result) : c.Checks result := by
  cases hchecks with
  | message htook => exact .message (h.append hreceive htook)
  | halt hrefuses =>
    refine .halt fun hturn => ?_
    obtain ⟨past, frame, rest, hfound⟩ := hrefuses hturn
    exact ⟨frames ++ past, frame, rest, h.refuses hreceive hfound⟩

/-- Every read takes frames in their order. -/
theorem checks_messageWithin (h : c.endpoint.state.canReceive = true) (frames : Nat) :
    c.Checks ((messageWithin frames).run.run c) := by
  -- what completes no message is taken in front of what the rest of the read comes to
  induction frames generalizing c with
  | zero => exact .halt fun hturn => absurd hturn (by decide)
  | succ frames ih =>
    rw [messageWithin]
    rcases frame_cases h with ⟨frame, feed, state, hdecode, hstate, hread⟩ |
      ⟨halt, c', -, hturn, hread⟩
    · have hframe := Decodes.of_read hdecode []
      rw [List.append_nil, List.append_nil] at hframe
      rw [run_bind_ok hread]
      have haccepts := accepts_of_sensible (Frame.sensible_of_decode hdecode) hstate feed
      generalize haccept : (accept frame).run.run (c.heard feed state) = result at haccepts
      cases haccepts with
      | @message message fragments hcarries hclose =>
        rw [run_bind_ok haccept, run_pure]
        have horder : openBehind? c.fragments.isSome [frame] = some fragments.isSome := by
          rw [openBehind?_singleton]
          exact hcarries.order
        refine .message ⟨rfl, rfl, hframe, horder, fun hlast => ?_⟩
        -- behind a close nothing is read any more
        rw [hasClose_singleton]
        refine decide_eq_false fun hisClose => ?_
        cases message <;> first | cases hlast | cases hclose hisClose
      | @fragment fragments hcarries hclose =>
        have htook : c.Took [frame] (c.moved feed fragments) := by
          refine ⟨rfl, rfl, hframe, ?_, fun _ => ?_⟩
          · rw [openBehind?_singleton]
            exact hcarries.order
          · rw [hasClose_singleton]
            exact decide_eq_false hclose
        rw [run_bind_ok haccept]
        exact htook.checks h (ih h)
      | @halt halt c' _ hrefused =>
        rw [run_bind_error haccept]
        refine .halt fun hturn => ⟨[], frame, _, hframe, ⟨_, rfl, hrefused hturn⟩, ?_⟩
        rw [List.nil_append, hasClose_singleton]
        exact decide_eq_false (Frame.not_isClose_of_openBehind? (hrefused hturn))
    · rw [run_bind_error hread]
      exact .halt fun hrefused => absurd hrefused hturn

/-- A connection that may not be read takes nothing, and refuses nothing on account of its order. -/
theorem receive_checks (c : Connection) :
    c.Checks (c.run receive) ∧ (c.endpoint.state.canReceive = true ∨
      ∃ state, (c.run receive).1 = .error (.failed (.notPermitted state))) := by
  rw [run]
  by_cases h : c.endpoint.state.canReceive = true
  · rw [receive, run_bind_ok (run_get c)]
    exact ⟨checks_messageWithin h _, .inl h⟩
  · rw [receive_of_not_canReceive (Bool.eq_false_iff.mpr h)]
    refine ⟨.halt fun hturn => ?_, .inr ⟨_, rfl⟩⟩
    rcases hturn with hturn | hturn <;> cases hturn

/-- The reads that give messages take frames in their order. -/
theorem receives_took {messages : List Message} {before : Connection}
    (hreads : c.receives messages.length = (messages.map .ok, before))
    (hreceive : before.endpoint.state.canReceive = true) :
    c.endpoint.state.canReceive = true ∧ ∃ frames, c.Took frames before := by
  induction messages generalizing c with
  | nil =>
    obtain ⟨-, rfl⟩ := Prod.mk.inj hreads
    exact ⟨hreceive, [], took_nil c⟩
  | cons message messages ih =>
    rw [List.length_cons, receives, List.map_cons] at hreads
    obtain ⟨hchecks, hpermitted⟩ := receive_checks c
    rcases hrun : c.run receive with ⟨answer, next⟩
    rcases hmore : next.receives messages.length with ⟨answers, last⟩
    rw [hrun] at hchecks hpermitted
    simp only [hrun, hmore] at hreads
    obtain ⟨hanswers, rfl⟩ := Prod.mk.inj hreads
    obtain ⟨rfl, rfl⟩ := List.cons.inj hanswers
    -- behind the first message there is another read, or the state that is asked for
    obtain ⟨hnext, frames, htook⟩ := ih hmore
    refine ⟨hpermitted.resolve_right (by rintro ⟨state, hrefused⟩; cases hrefused), ?_⟩
    cases hchecks with
    | message hfirst => exact ⟨_, hfirst.append hnext htook⟩

/-- Reads that come to a frame that may not come where it does took others before it, in their
order. -/
theorem receives_refuses {messages : List Message} {before after : Connection} {halt : Halt Error}
    (hreads : c.receives messages.length = (messages.map .ok, before))
    (hhalt : before.run receive = (.error halt, after)) (hturn : OutOfTurn halt) :
    ∃ past frame rest, c.Refuses past frame rest := by
  obtain ⟨hchecks, hpermitted⟩ := receive_checks before
  rw [hhalt] at hchecks hpermitted
  have hreceive : before.endpoint.state.canReceive = true := by
    refine hpermitted.resolve_right ?_
    rintro ⟨state, hrefused⟩
    obtain rfl := Except.error.inj hrefused
    rcases hturn with hturn | hturn <;> cases hturn
  -- the frame is refused behind all that the reads before took
  obtain ⟨-, frames, htook⟩ := receives_took hreads hreceive
  cases hchecks with
  | halt hrefuses =>
    obtain ⟨past, frame, rest, hfound⟩ := hrefuses hturn
    exact ⟨frames ++ past, frame, rest, htook.refuses hreceive hfound⟩

end Connection

end HttpRelay.WebSocket
