import HttpRelay.Proofs.WebSocket.AtomicSteps

/-!
# The closing handshake

What the state of a connection says about the closes that went over it, and what it allows.

* `Frame.IsClose`, `hasClose`: closes among frames;
* `State.ofCloses`: the state of a connection that did not fail, by its closes;
* `Closing`: a sending half is used up by its close.
-/

namespace HttpRelay.WebSocket

/-- Whether a frame is a close. -/
def Frame.IsClose (frame : Frame) : Prop := frame.header.opcode = .close

instance (frame : Frame) : Decidable frame.IsClose :=
  inferInstanceAs (Decidable (frame.header.opcode = .close))

/-- Whether there is a close among some frames. -/
def hasClose (frames : List Frame) : Bool := frames.any fun frame => decide frame.IsClose

@[simp] theorem hasClose_append (frames more : List Frame) :
    hasClose (frames ++ more) = (hasClose frames || hasClose more) := List.any_append

@[simp] theorem hasClose_singleton (frame : Frame) :
    hasClose [frame] = decide frame.IsClose := by simp [hasClose]

theorem hasClose_eq_false {frames : List Frame} :
    hasClose frames = false ↔ ∀ frame ∈ frames, ¬ frame.IsClose := by
  simp [hasClose]

/-- A state of the closing handshake, by whether a close was received and one was sent. -/
def State.ofCloses (received sent : Bool) : State :=
  match received, sent with
  | false, false => .open
  | true, false => .closeReceived
  | false, true => .closeSent
  | true, true => .closed

theorem State.stateReceived_ofCloses (opcode : Opcode) (sent : Bool) :
    Endpoint.stateReceived (.ofCloses false sent) opcode =
      some (.ofCloses (decide (opcode = .close)) sent) := by
  cases opcode <;> cases sent <;> rfl

theorem State.stateSent_ofCloses (opcode : Opcode) (received : Bool) :
    Endpoint.stateSent (.ofCloses received false) opcode =
      some (.ofCloses received (decide (opcode = .close))) := by
  cases opcode <;> cases received <;> rfl

theorem State.canReceive_ofCloses (sent : Bool) :
    (State.ofCloses false sent).canReceive = true := by
  cases sent <;> rfl

/-- A state stays as it is, or the connection is over. -/
def State.Falls (state state' : State) : Prop := state' = state ∨ state' = .errored

theorem State.Falls.canSend {state state' : State} (h : state.Falls state')
    (hsend : state'.canSend = true) : state.canSend = true := by
  rcases h with rfl | rfl
  · exact hsend
  · cases hsend

/-- To read a frame does not open a sending half. -/
theorem State.canSend_of_stateReceived {state state' : State} {opcode : Opcode}
    (h : Endpoint.stateReceived state opcode = some state') (hsend : state'.canSend = true) :
    state.canSend = true := by
  unfold Endpoint.stateReceived at h
  split at h
  · cases state <;> first | rfl | cases h <;> cases hsend
  · rw [Option.some.inj h]
    exact hsend

/-- Only an end that may send gets a frame ready, and a close is the last one. -/
theorem State.canSend_of_stateSent {state state' : State} {opcode : Opcode}
    (h : Endpoint.stateSent state opcode = some state') :
    state.canSend = true ∧ (opcode = .close → state'.canSend = false) := by
  unfold Endpoint.stateSent at h
  split at h
  · cases state <;> cases h <;> exact ⟨rfl, fun _ => rfl⟩
  next hclose =>
    obtain ⟨hsend, -⟩ := Option.ite_none_right_eq_some.mp h
    exact ⟨hsend, fun hopcode => absurd hopcode hclose⟩

/-- To get a frame ready does not undo the opening handshake. -/
theorem State.ne_connecting_of_stateSent {state state' : State} {opcode : Opcode}
    (h : Endpoint.stateSent state opcode = some state') : state' ≠ .connecting := by
  rintro rfl
  unfold Endpoint.stateSent at h
  split at h
  · cases state <;> cases h
  · obtain ⟨hsend, hsame⟩ := Option.ite_none_right_eq_some.mp h
    rw [Option.some.inj hsame] at hsend
    cases hsend

/-- The sending half of an endpoint in a state, by the frames that were sent or are about to be: a
close is the last one, and nothing is sent behind it. -/
structure Closing (state : State) (line : List Frame) : Prop where
  last : ∀ frame ∈ line.dropLast, ¬ frame.IsClose
  open_ : state.canSend = true → ∀ frame ∈ line, ¬ frame.IsClose

namespace Closing

variable {state state' : State} {line : List Frame}

theorem mono (h : Closing state line) (hsend : state'.canSend = true → state.canSend = true) :
    Closing state' line :=
  ⟨h.last, fun hopen => h.open_ (hsend hopen)⟩

/-- One more frame is got ready. -/
theorem concat (h : Closing state line) {out : Frame}
    (hstate : Endpoint.stateSent state out.header.opcode = some state') :
    Closing state' (line ++ [out]) := by
  obtain ⟨hsend, hclose⟩ := State.canSend_of_stateSent hstate
  refine ⟨?_, fun hopen frame hframe => ?_⟩
  · -- the end could still send, so there was no close before
    rw [List.dropLast_concat]
    exact h.open_ hsend
  · rcases List.mem_append.mp hframe with hframe | hframe
    · exact h.open_ hsend frame hframe
    · obtain rfl := List.mem_singleton.mp hframe
      intro hout
      rw [hclose hout] at hopen
      cases hopen

/-- A frame that got ready may not come to the wire. -/
theorem of_append {more : List Frame} (h : Closing state (line ++ more)) : Closing state line := by
  refine ⟨fun frame hframe => ?_, fun hopen frame hframe =>
    h.open_ hopen frame (List.mem_append_left _ hframe)⟩
  cases more with
  | nil =>
    rw [List.append_nil] at h
    exact h.last frame hframe
  | cons out more =>
    refine h.last frame ?_
    rw [List.dropLast_append_of_ne_nil (List.cons_ne_nil out more)]
    exact List.mem_append_left _ (List.dropLast_subset _ hframe)

/-- A frame that got ready may be lost with the connection. -/
theorem lost {more : List Frame} (h : Closing state (line ++ more)) : Closing .errored line :=
  h.of_append.mono fun hopen => by cases hopen

/-- In front of a frame there is no close. -/
theorem not_isClose {out : Frame} (h : Closing state (line ++ [out])) :
    ∀ frame ∈ line, ¬ frame.IsClose := by
  have hlast := h.last
  rwa [List.dropLast_concat] at hlast

end Closing

end HttpRelay.WebSocket
