import HttpRelay.Proofs.Throttle.StreamSteps
import Mathlib.Logic.Function.Basic

/-!
# Throttled streams in use

A `Usage` is a throttled stream with the call that each of its two directions has under way, and with
a record of what happened so far. Calls may take their steps in any order, and between any two steps
the scheduler and the far side may do anything.

* `Usage.Event`, `Usage.meet`, `Usage.follow`: what may happen while calls are under way;
* `Usage.call`, `Usage.serve`: calls, one after the other or one beside the other;
* `Usage.meet_cases`: what happens elsewhere leaves a direction alone;
* `Usage.exists_follow_eq_resume`: a call that is resumed takes steps, and nothing else.
-/

namespace HttpRelay.Throttle

namespace Stream

variable {α : Type} {direction : Direction} {w : World α}

/-- The bookkeeping of one direction. -/
def pacing (st : Stream α) : Direction → Pacing α
  | .read => st.read
  | .write => st.write

theorem pacing_behind_self (st : Stream α) (h : w.transfer.mode.direction = direction) :
    (st.behind w).pacing direction = w.pacing := by
  subst h
  unfold behind pacing
  cases w.transfer.mode.direction <;> rfl

theorem pacing_behind_of_ne (st : Stream α) (h : w.transfer.mode.direction ≠ direction) :
    (st.behind w).pacing direction = st.pacing direction := by
  unfold behind pacing
  cases hmode : w.transfer.mode.direction <;> cases direction <;> simp_all

@[simp] theorem inner_behind (st : Stream α) : (st.behind w).inner = w.inner := by
  unfold behind
  cases w.transfer.mode.direction <;> rfl

@[simp] theorem peer_behind (st : Stream α) : (st.behind w).peer = st.peer := by
  unfold behind
  cases w.transfer.mode.direction <;> rfl

end Stream

/-- A call on a stream. -/
structure Call where
  mode : Mode
  /-- Bytes to be written. -/
  rest : Bytes := []
  /-- Number of bytes to be read. -/
  want : Nat := 0

/-- A call that has not begun. -/
def Call.transfer (call : Call) : Transfer :=
  { mode := call.mode, rest := call.rest, want := call.want }

/-- Whether a stream failed below. -/
def Deed.isFailure {α : Type} : Deed α → Bool
  | .fails _ => true
  | _ => false

/-- Whether a call is at its end. -/
def Phase.isEnd : Phase → Bool
  | .returns _ => true
  | _ => false

/-- One direction of a stream in use. -/
structure Side (α : Type) where
  /-- The call under way, or the last one. -/
  transfer : Transfer
  /-- What calls did so far. -/
  deeds : List (Deed α) := []
  /-- Calls that were stopped short, each as it stood then: the stream failed it below, or its caller
  dropped it. -/
  stopped : List Transfer := []

namespace Side

variable {α : Type}

/-- A call begins. One that is still under way is dropped. -/
def begin (side : Side α) (call : Call) : Side α :=
  { side with
    transfer := call.transfer
    stopped :=
      if side.transfer.phase.isEnd then side.stopped else side.stopped ++ [side.transfer] }

/-- A call takes a step. -/
def record (side : Side α) (deed : Deed α) (transfer : Transfer) : Side α :=
  { transfer
    deeds := side.deeds ++ [deed]
    stopped := if deed.isFailure then side.stopped ++ [side.transfer] else side.stopped }

end Side

/-- A stream in use. -/
structure Usage (α : Type) where
  stream : Stream α
  scheduler : Scheduler α
  mail : Mail α
  side : Direction → Side α
  /-- All bytes that arrived so far. -/
  received : Bytes := []
  /-- Each direction has its own calls. -/
  aligned : ∀ direction, (side direction).transfer.mode.direction = direction

namespace Usage

variable {α : Type} [Quantity α]

/-- A stream that was not used so far. -/
def idle (stream : Stream α) (scheduler : Scheduler α) (mail : Mail α) : Usage α :=
  { stream, scheduler, mail
    side := fun
      | .read => { transfer := { mode := .readOnce, phase := .returns .done } }
      | .write => { transfer := { mode := .writeOnce, phase := .returns .done } }
    aligned := fun direction => by cases direction <;> rfl }

/-- What the call of a direction works on. -/
def world (u : Usage α) (direction : Direction) : World α :=
  u.stream.world (u.side direction).transfer u.scheduler u.mail

omit [Quantity α] in
theorem world_eq (u : Usage α) (direction : Direction) :
    u.world direction =
      { peer := u.stream.peer
        pacing := u.stream.pacing direction
        inner := u.stream.inner
        transfer := (u.side direction).transfer
        scheduler := u.scheduler
        mail := u.mail } := by
  unfold world Stream.world
  rw [u.aligned direction]
  cases direction <;> rfl

omit [Quantity α] in
theorem pacing_world (u : Usage α) (direction : Direction) :
    (u.world direction).pacing = u.stream.pacing direction :=
  congrArg World.pacing (u.world_eq direction)

/-- The call of a direction takes a step. Its caller may have given up. -/
def step (u : Usage α) (direction : Direction) (cancelled : Bool) : Usage α :=
  let move := (u.world direction).advance cancelled
  { u with
    stream := u.stream.behind move.2
    scheduler := move.2.scheduler
    mail := move.2.mail
    side := Function.update u.side direction ((u.side direction).record move.1 move.2.transfer)
    aligned := fun other => by
      by_cases h : other = direction
      · subst h
        rw [Function.update_self]
        exact (congrArg _ (World.step_advance cancelled _).mode_eq).trans (u.aligned other)
      · rw [Function.update_of_ne h]
        exact u.aligned other }

/-- A call begins, in place of the last one of its direction. -/
def call (u : Usage α) (call : Call) : Usage α :=
  { u with
    side := Function.update u.side call.mode.direction ((u.side call.mode.direction).begin call)
    aligned := fun direction => by
      by_cases h : direction = call.mode.direction
      · subst h
        rw [Function.update_self]
        rfl
      · rw [Function.update_of_ne h]
        exact u.aligned direction }

/-- Something that may happen while calls are under way. -/
inductive Event (α : Type) where
  /-- A call takes a step. -/
  | step (direction : Direction) (cancelled : Bool)
  /-- The scheduler goes on: budgets change, ticks fire, other streams park requests, it is shut down
  or dropped, and something comes of tickets. -/
  | schedule (scheduler : Scheduler α) (mail : Mail α)
  /-- Bytes arrive. -/
  | arrive (bytes : Bytes)
  /-- The far side sends no more. -/
  | hangUp
  /-- The stream below will take so many bytes before a write has to wait. -/
  | drain (room : Option Nat)
  /-- The stream below takes no more bytes. -/
  | breaks

/-- A stream in use once something happened. -/
def meet (u : Usage α) : Event α → Usage α
  | .step direction cancelled => u.step direction cancelled
  | .schedule scheduler mail => { u with scheduler, mail }
  | .arrive bytes =>
    { u with
      stream.inner.incoming := u.stream.inner.incoming.push bytes
      received := u.received ++ if u.stream.inner.incoming.closed then [] else bytes }
  | .hangUp => { u with stream.inner.incoming := u.stream.inner.incoming.close }
  | .drain room => { u with stream.inner.room := room }
  | .breaks => { u with stream.inner.broken := true }

/-- A stream in use once things happened, one after the other. -/
def follow (u : Usage α) (events : List (Event α)) : Usage α := events.foldl meet u

/-- A stream in use once calls were made, each with what happened before the next one. -/
def serve (u : Usage α) (calls : List (Call × List (Event α))) : Usage α :=
  calls.foldl (fun u entry => (u.call entry.1).follow entry.2) u

section Frame

variable {u : Usage α} {direction : Direction} {cancelled : Bool}

theorem side_step_self :
    (u.step direction cancelled).side direction =
      (u.side direction).record ((u.world direction).advance cancelled).1
        ((u.world direction).advance cancelled).2.transfer :=
  Function.update_self _ _ _

theorem side_step_of_ne {other : Direction} (h : other ≠ direction) :
    (u.step direction cancelled).side other = u.side other :=
  Function.update_of_ne h _ _

omit [Quantity α] in
theorem side_call_self {call : Call} (h : call.mode.direction = direction) :
    (u.call call).side direction = (u.side direction).begin call := by
  subst h
  exact Function.update_self _ _ _

omit [Quantity α] in
theorem side_call_of_ne {call : Call} (h : call.mode.direction ≠ direction) :
    (u.call call).side direction = u.side direction :=
  Function.update_of_ne h.symm _ _

/-- A step leaves its call with what it made of it. -/
theorem world_step_self :
    (u.step direction cancelled).world direction = ((u.world direction).advance cancelled).2 := by
  have hstep := World.step_advance cancelled (u.world direction)
  have hdirection : ((u.world direction).advance cancelled).2.transfer.mode.direction = direction :=
    (congrArg _ hstep.mode_eq).trans (u.aligned direction)
  have hpeer : ((u.world direction).advance cancelled).2.peer = u.stream.peer := hstep.peer_eq
  rw [world_eq, side_step_self]
  change World.mk (u.stream.behind _).peer ((u.stream.behind _).pacing direction)
    (u.stream.behind _).inner _ _ _ = _
  rw [Stream.peer_behind, ← hpeer, Stream.pacing_behind_self _ hdirection, Stream.inner_behind]
  rfl

/-- What happens elsewhere leaves the call and the bookkeeping of a direction alone. -/
theorem meet_cases (u : Usage α) (direction : Direction) (e : Event α) :
    (∃ cancelled, e = .step direction cancelled) ∨
      (u.meet e).side direction = u.side direction ∧
        (u.meet e).stream.pacing direction = u.stream.pacing direction := by
  cases e with
  | step other cancelled =>
    by_cases h : direction = other
    · exact .inl ⟨cancelled, by rw [h]⟩
    · -- A call puts back the bookkeeping of its own direction only.
      have hstep := World.step_advance cancelled (u.world other)
      have hother : ((u.world other).advance cancelled).2.transfer.mode.direction ≠ direction := by
        rw [hstep.mode_eq]
        exact fun hsame => h (hsame.symm.trans (u.aligned other))
      exact .inr ⟨side_step_of_ne h, Stream.pacing_behind_of_ne _ hother⟩
  | schedule | arrive | hangUp | drain | breaks => exact .inr ⟨rfl, by cases direction <;> rfl⟩

/-- What happens elsewhere leaves what was written alone. -/
theorem meet_write_cases (u : Usage α) (e : Event α) :
    (∃ cancelled, e = .step .write cancelled) ∨
      (u.meet e).side .write = u.side .write ∧ (u.meet e).stream.output = u.stream.output := by
  cases e with
  | step other cancelled =>
    cases other with
    | write => exact .inl ⟨cancelled, rfl⟩
    | read =>
      have houtput := (World.step_advance cancelled (u.world .read)).output_eq (u.aligned .read)
      have hinner : (u.step .read cancelled).stream.inner =
          ((u.world .read).advance cancelled).2.inner := Stream.inner_behind _
      exact .inr ⟨side_step_of_ne (by decide), (congrArg Inner.output hinner).trans houtput⟩
  | schedule | arrive | hangUp | drain | breaks => exact .inr ⟨rfl, rfl⟩

/-- What happens elsewhere puts bytes behind those that arrived, and leaves these alone. -/
theorem meet_read_cases (u : Usage α) (e : Event α) :
    (∃ cancelled, e = .step .read cancelled) ∨
      (u.meet e).side .read = u.side .read ∧
        ∃ bytes, (u.meet e).received = u.received ++ bytes ∧
          (u.meet e).stream.inner.incoming.arrived = u.stream.inner.incoming.arrived ++ bytes := by
  cases e with
  | step other cancelled =>
    cases other with
    | read => exact .inl ⟨cancelled, rfl⟩
    | write =>
      have hincoming :=
        (World.step_advance cancelled (u.world .write)).incoming_eq (u.aligned .write)
      have hinner : (u.step .write cancelled).stream.inner =
          ((u.world .write).advance cancelled).2.inner := Stream.inner_behind _
      refine .inr ⟨side_step_of_ne (by decide), [], (List.append_nil _).symm, ?_⟩
      rw [List.append_nil, show (u.meet (.step .write cancelled)) = u.step .write cancelled from rfl,
        hinner, hincoming]
      rfl
  | arrive bytes =>
    refine .inr ⟨rfl, _, rfl, ?_⟩
    change (u.stream.inner.incoming.push bytes).arrived = _
    unfold Feed.push
    split
    · exact (List.append_nil _).symm
    · rfl
  | schedule | hangUp | drain | breaks =>
    exact .inr ⟨rfl, [], (List.append_nil _).symm, (List.append_nil _).symm⟩

end Frame

section Soundness

omit [Quantity α] in
/-- What is true of a call throughout depends on the call and on its bookkeeping. -/
theorem sound_congr {u u' : Usage α} {direction : Direction}
    (hside : (u'.side direction).transfer = (u.side direction).transfer)
    (hpacing : u'.stream.pacing direction = u.stream.pacing direction)
    (h : (u.world direction).Sound) : (u'.world direction).Sound := by
  rw [world_eq] at h ⊢
  rw [hside, hpacing]
  exact h

/-- What is true of a call throughout is kept by everything that may happen. -/
theorem sound_meet {direction : Direction} (u : Usage α) (e : Event α)
    (h : (u.world direction).Sound) : ((u.meet e).world direction).Sound := by
  obtain ⟨cancelled, rfl⟩ | ⟨hside, hpacing⟩ := u.meet_cases direction e
  · have hstep := (World.step_advance cancelled (u.world direction)).sound h
    rwa [← world_step_self] at hstep
  · exact sound_congr (congrArg Side.transfer hside) hpacing h

omit [Quantity α] in
/-- What is true of a call throughout is true of one that begins. -/
theorem sound_call_self {direction : Direction} (u : Usage α) {call : Call}
    (h : call.mode.direction = direction) : ((u.call call).world direction).Sound := by
  rw [world_eq, side_call_self h]
  trivial

omit [Quantity α] in
/-- What is true of a call throughout stays true when a call begins, of either direction. -/
theorem sound_call {direction : Direction} (u : Usage α) (call : Call)
    (h : (u.world direction).Sound) : ((u.call call).world direction).Sound := by
  by_cases hdirection : call.mode.direction = direction
  · exact u.sound_call_self hdirection
  · exact sound_congr (congrArg Side.transfer (side_call_of_ne hdirection)) rfl h

end Soundness

section Resuming

/-- A call that is resumed takes steps, and nothing else. -/
theorem exists_follow_eq_resumeWithin (direction : Direction) (cancelled : Bool) (steps : Nat) :
    ∀ u : Usage α, ∃ count,
      (u.follow (List.replicate count (.step direction cancelled))).world direction =
        ((u.world direction).resumeWithin cancelled steps).2 := by
  induction steps with
  | zero => intro u; exact ⟨0, rfl⟩
  | succ steps ih =>
    intro u
    unfold World.resumeWithin
    dsimp only
    split
    next => exact ⟨1, world_step_self⟩
    next =>
      obtain ⟨count, hcount⟩ := ih (u.step direction cancelled)
      rw [world_step_self] at hcount
      exact ⟨count + 1, hcount⟩

/-- A call that is resumed takes steps, and nothing else: what is true behind any steps is true of
it. -/
theorem exists_follow_eq_resume (u : Usage α) (direction : Direction) (cancelled : Bool) :
    ∃ count,
      (u.follow (List.replicate count (.step direction cancelled))).world direction =
        ((u.world direction).resume cancelled).2 :=
  exists_follow_eq_resumeWithin direction cancelled _ u

end Resuming

section Histories

/-- What every event keeps is true behind any events. -/
theorem follow_induction {P : Usage α → Prop} (hmeet : ∀ u e, P u → P (u.meet e)) {u : Usage α}
    (h : P u) (events : List (Event α)) : P (u.follow events) := by
  unfold follow
  induction events generalizing u with
  | nil => exact h
  | cons e events ih => exact ih (hmeet u e h)

/-- What every event and every new call keeps is true behind any calls. -/
theorem serve_induction {P : Usage α → Prop} (hmeet : ∀ u e, P u → P (u.meet e))
    (hcall : ∀ u call, P u → P (Usage.call u call)) {u : Usage α} (h : P u)
    (calls : List (Call × List (Event α))) : P (u.serve calls) := by
  unfold serve
  induction calls generalizing u with
  | nil => exact h
  | cons entry calls ih => exact ih (follow_induction hmeet (hcall u entry.1 h) entry.2)

end Histories

end Usage

end HttpRelay.Throttle
