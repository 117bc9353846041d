import HttpRelay.Proofs.WebSocket.FrameStream

/-!
# The order of fragments

A data message may come in fragments. A continuation may only come while a message is open, and the
first frame of a message only while none is. Control frames may come anywhere.

* `Frame.openBehind?`: what a frame does to the message that is open;
* `InOrder`: frames that may come one after the other;
* `OutOfTurn`: how a read ends at a frame that may not come where it does.
-/

namespace HttpRelay.WebSocket

/-- Whether a message is open behind a frame, by whether one is open in front of it. There is none
if the frame may not come there. -/
def Frame.openBehind? (isOpen : Bool) (frame : Frame) : Option Bool :=
  match frame.header.opcode with
  | .continuation => if isOpen then some !frame.header.fin else none
  | .text | .binary => if isOpen then none else some !frame.header.fin
  | .close | .ping | .pong => some isOpen

/-- Whether a message is open behind some frames. -/
def openBehind? (isOpen : Bool) (frames : List Frame) : Option Bool :=
  frames.foldlM Frame.openBehind? isOpen

/-- Frames that may come one after the other, from the first one of a connection on. -/
def InOrder (frames : List Frame) : Prop := (openBehind? false frames).isSome = true

instance : DecidablePred InOrder := fun frames =>
  inferInstanceAs (Decidable ((openBehind? false frames).isSome = true))

variable {isOpen : Bool} {frames more : List Frame}

theorem Frame.openBehind?_control {frame : Frame} (h : frame.header.opcode.isControl = true) :
    frame.openBehind? isOpen = some isOpen := by
  unfold openBehind?
  cases hopcode : frame.header.opcode <;> rw [hopcode] at h <;> first | rfl | cases h

theorem openBehind?_append (isOpen : Bool) (frames more : List Frame) :
    openBehind? isOpen (frames ++ more) =
      (openBehind? isOpen frames).bind (openBehind? · more) := List.foldlM_append

theorem openBehind?_singleton (isOpen : Bool) (frame : Frame) :
    openBehind? isOpen [frame] = frame.openBehind? isOpen := by
  rw [openBehind?, List.foldlM_cons]
  cases frame.openBehind? isOpen <;> rfl

/-- Control frames leave a message as it is. -/
theorem openBehind?_of_control (h : ∀ frame ∈ frames, frame.header.opcode.isControl = true) :
    openBehind? isOpen frames = some isOpen := by
  induction frames with
  | nil => rfl
  | cons frame frames ih =>
    obtain ⟨hframe, hframes⟩ := List.forall_mem_cons.mp h
    rw [openBehind?, List.foldlM_cons, Frame.openBehind?_control hframe]
    exact ih hframes

/-- What comes first of frames in order is in order. -/
theorem InOrder.of_prefix {past : List Frame} (h : InOrder frames) (hpast : past <+: frames) :
    InOrder past := by
  obtain ⟨rest, rfl⟩ := hpast
  rw [InOrder, openBehind?_append] at h
  exact Option.isSome_of_isSome_bind h

/-- Control frames behind some frames make no difference to their order. -/
theorem inOrder_append_control (h : ∀ frame ∈ more, frame.header.opcode.isControl = true) :
    InOrder (frames ++ more) ↔ InOrder frames := by
  rw [InOrder, InOrder, openBehind?_append]
  cases openBehind? false frames with
  | none => exact Iff.rfl
  | some isOpen =>
    rw [Option.bind_some, openBehind?_of_control h]

/-- Behind frames in order, a frame that may not come there. -/
theorem not_inOrder_concat {frame : Frame} (h : openBehind? false frames = some isOpen)
    (hframe : frame.openBehind? isOpen = none) :
    InOrder frames ∧ ¬ InOrder (frames ++ [frame]) := by
  constructor
  · rw [InOrder, h]
    rfl
  · rw [InOrder, openBehind?_append, h, Option.bind_some, openBehind?_singleton, hframe]
    exact Bool.false_ne_true

/-- A read that ends with a frame that may not come where it does. -/
def OutOfTurn (halt : Halt Error) : Prop :=
  halt = .failed (.peer "new data frame while a fragmented message is open") ∨
    halt = .failed (.peer "continuation frame without a message in progress")

instance : DecidablePred OutOfTurn := fun _ => inferInstanceAs (Decidable (_ ∨ _))

/-- Only violations are matters of order. -/
theorem not_outOfTurn_io (failure : IoFailure) : ¬ OutOfTurn (.failed (.io failure)) := by
  rintro (h | h) <;> cases h

end HttpRelay.WebSocket
