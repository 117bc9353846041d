import HttpRelay.Throttle.Scheduler
import Mathlib.Logic.Relation

/-!
# Interleaved scheduling

A `Machine` is a scheduler in use: any number of callers park requests and set budgets, the loop
makes one pass over the rule sets after another, and a shutdown makes a pass of its own. What
happens under the lock of one queue is one step, and so is each access to what no lock protects.
Between two steps any other party may act.

* `Pass`: a visit of every slot under way, with the batch it took and has not answered;
* `Machine.Step`: what can happen next;
* `Machine.Reachable`: every state that some interleaving leads to.
-/

namespace HttpRelay.Throttle

/-- What a pass over the rule sets is for. -/
inductive Purpose (α : Type) where
  /-- Share the budgets for a length of time. -/
  | tick (elapsed : α)
  /-- Let everything go without limit. -/
  | release
  deriving DecidableEq, Repr

namespace Purpose

variable {α : Type} [Quantity α]

/-- The answers to a batch taken from a slot. -/
def replies (purpose : Purpose α) (s : Scheduler α) (slot : Nat) (batch : List (Parked α)) :
    List (Reply α) :=
  match purpose with
  | tick elapsed => s.answers slot elapsed batch
  | release => batch.map fun p => (p.ticket, .unlimited)

/-- A visit of one slot on its own. -/
def visitSlot (purpose : Purpose α) (s : Scheduler α) (slot : Nat) :
    List (Reply α) × Scheduler α :=
  match purpose with
  | tick elapsed => s.tickSlot elapsed slot
  | release => s.releaseSlot slot

end Purpose

/-- Something that happened. -/
inductive Event (α : Type) where
  /-- A request was parked in a slot. -/
  | accepted (slot : Nat) (parked : Parked α)
  /-- A request was turned away: its transfer need not wait. -/
  | refused
  /-- The loop began a pass. -/
  | began
  /-- The loop ended a pass. -/
  | ended
  /-- A batch was taken from a slot. -/
  | drained (purpose : Purpose α) (slot : Nat) (batch : List (Parked α))
  /-- A batch taken from a slot was answered, when the slot had some budget. -/
  | answered (purpose : Purpose α) (slot budget : Nat) (batch : List (Parked α))
      (replies : List (Reply α))

namespace Event

variable {α : Type}

/-- The requests that an event parks. -/
def parks : Event α → List (Parked α)
  | accepted _ parked => [parked]
  | _ => []

/-- The requests that an event takes from a slot. -/
def takes : Event α → List (Parked α)
  | drained _ _ batch => batch
  | _ => []

/-- The answers that an event hands out. -/
def handsOut : Event α → List (Reply α)
  | answered _ _ _ _ replies => replies
  | _ => []

/-- Whether the loop begins a pass. -/
def isBegan : Event α → Bool
  | began => true
  | _ => false

/-- Whether the loop ends a pass. -/
def isEnded : Event α → Bool
  | ended => true
  | _ => false

end Event

/-- What happened, in order. -/
abbrev Log (α : Type) := List (Event α)

namespace Log

variable {α : Type}

/-- The requests parked so far. -/
def parks (log : Log α) : List (Parked α) := log.flatMap Event.parks

/-- The requests taken from their slots so far. -/
def takes (log : Log α) : List (Parked α) := log.flatMap Event.takes

/-- The answers handed out so far. -/
def handsOut (log : Log α) : List (Reply α) := log.flatMap Event.handsOut

/-- Number of passes that the loop began. -/
def begun (log : Log α) : Nat := log.countP Event.isBegan

/-- Number of passes that the loop ended. -/
def ended (log : Log α) : Nat := log.countP Event.isEnded

variable (log : Log α) (e : Event α)

@[simp] theorem parks_append : parks (log ++ [e]) = log.parks ++ e.parks := by simp [parks]

@[simp] theorem takes_append : takes (log ++ [e]) = log.takes ++ e.takes := by simp [takes]

@[simp] theorem handsOut_append : handsOut (log ++ [e]) = log.handsOut ++ e.handsOut := by
  simp [handsOut]

@[simp] theorem begun_append : begun (log ++ [e]) = log.begun + if e.isBegan then 1 else 0 := by
  simp [begun, List.countP_append, List.countP_cons]

@[simp] theorem ended_append : ended (log ++ [e]) = log.ended + if e.isEnded then 1 else 0 := by
  simp [ended, List.countP_append, List.countP_cons]

end Log

/-- A pass over the rule sets under way. -/
structure Pass (α : Type) where
  purpose : Purpose α
  /-- The slots still to be visited. -/
  ahead : List Nat
  /-- A slot with the batch that was taken from it and has no answers yet. -/
  hand : Option (Nat × List (Parked α)) := none

namespace Pass

variable {α : Type}

/-- The requests taken from their slot and without an answer. -/
def held (pass : Pass α) : List (Parked α) := (pass.hand.map Prod.snd).getD []

/-- Whether nothing is left to do. -/
def IsOver (pass : Pass α) : Prop := pass.ahead = [] ∧ pass.hand = none

variable [Quantity α]

/-- One step of a pass on a scheduler: to take what waits in the next slot, or to answer what was
taken. -/
inductive Advance : Pass α → Scheduler α → Pass α → Scheduler α → Event α → Prop
  | take {purpose : Purpose α} {slot : Nat} {ahead : List Nat} {s : Scheduler α} :
      Advance { purpose, ahead := slot :: ahead } s
        { purpose, ahead, hand := some (slot, (s.drain slot).1) } (s.drain slot).2
        (.drained purpose slot (s.drain slot).1)
  | answer {purpose : Purpose α} {slot : Nat} {ahead : List Nat} {batch : List (Parked α)}
      {s : Scheduler α} :
      Advance { purpose, ahead, hand := some (slot, batch) } s { purpose, ahead } s
        (.answered purpose slot ((s.budget? ⟨slot⟩).getD 0) batch (purpose.replies s slot batch))

end Pass

/-- What the loop is doing. -/
inductive LoopState (α : Type) where
  /-- The loop was never started. -/
  | absent
  /-- The loop waits for its next tick. -/
  | idle
  | passing (pass : Pass α)
  | ended

/-- How far a shutdown has come. -/
inductive ShutdownState (α : Type) where
  | notCalled
  | releasing (pass : Pass α)
  | completed

/-- The requests that the loop took and did not answer yet. -/
def LoopState.held {α : Type} : LoopState α → List (Parked α)
  | passing pass => pass.held
  | _ => []

/-- The requests that a shutdown took and did not answer yet. -/
def ShutdownState.held {α : Type} : ShutdownState α → List (Parked α)
  | releasing pass => pass.held
  | _ => []

/-- What the loop does behind a pass: a release is its last one. -/
def Purpose.next {α : Type} : Purpose α → LoopState α
  | tick _ => .idle
  | release => .ended

/-- A scheduler in use. -/
structure Machine (α : Type) where
  scheduler : Scheduler α
  loop : LoopState α
  shutdown : ShutdownState α := .notCalled
  log : Log α := []

namespace Machine

variable {α : Type}

/-- A machine with `count` rule sets, and a loop or none. -/
def init (count : Nat) (looping : Bool) : Machine α :=
  if looping then { scheduler := (Scheduler.ofCount count).start, loop := .idle }
  else { scheduler := Scheduler.ofCount count, loop := .absent }

/-- Note what happened. -/
def note (m : Machine α) (e : Event α) : Machine α := { m with log := m.log ++ [e] }

variable [Quantity α]

/-- What can happen next. -/
inductive Step : Machine α → Machine α → Prop
  /-- A caller parks a request. -/
  | accept {m : Machine α} {id : RuleSetId} {request : Request α} {ticket : Nat}
      {s : Scheduler α} (h : m.scheduler.enqueue? id request = some (ticket, s)) :
      Step m ({ m with scheduler := s }.note (.accepted id.slot ⟨ticket, request⟩))
  /-- A caller is turned away. -/
  | refuse {m : Machine α} {id : RuleSetId} {request : Request α}
      (h : m.scheduler.enqueue? id request = none) : Step m (m.note .refused)
  /-- Someone sets a budget. -/
  | setBudget {m : Machine α} {id : RuleSetId} {value : Int} {s : Scheduler α}
      (h : m.scheduler.setBudget? id value = some s) : Step m { m with scheduler := s }
  /-- The loop begins a tick. -/
  | wake {m : Machine α} (elapsed : α) (h : m.loop = .idle) :
      Step m ({ m with loop := .passing ⟨.tick elapsed, m.scheduler.slots, none⟩ }.note .began)
  /-- The loop finds the scheduler stopped and begins its last pass. -/
  | breakOff {m : Machine α} (h : m.loop = .idle) (hstop : m.scheduler.shutDown = true) :
      Step m ({ m with loop := .passing ⟨.release, m.scheduler.slots, none⟩ }.note .began)
  /-- The loop goes on with its pass. -/
  | advance {m : Machine α} {pass pass' : Pass α} {s : Scheduler α} {e : Event α}
      (h : m.loop = .passing pass) (hadvance : pass.Advance m.scheduler pass' s e) :
      Step m ({ m with scheduler := s, loop := .passing pass' }.note e)
  /-- The loop ends its pass. -/
  | settle {m : Machine α} {pass : Pass α} (h : m.loop = .passing pass) (hended : pass.IsOver) :
      Step m ({ m with loop := pass.purpose.next }.note .ended)
  /-- Someone calls for a shutdown. -/
  | stop {m : Machine α} (h : m.shutdown = .notCalled) :
      Step m { m with
        scheduler := m.scheduler.stop
        shutdown := .releasing ⟨.release, m.scheduler.slots, none⟩ }
  /-- The shutdown goes on with its pass. -/
  | release {m : Machine α} {pass pass' : Pass α} {s : Scheduler α} {e : Event α}
      (h : m.shutdown = .releasing pass) (hadvance : pass.Advance m.scheduler pass' s e) :
      Step m ({ m with scheduler := s, shutdown := .releasing pass' }.note e)
  /-- The shutdown ends, once the loop is gone. -/
  | complete {m : Machine α} {pass : Pass α} (h : m.shutdown = .releasing pass)
      (hended : pass.IsOver) (hloop : m.loop = .absent ∨ m.loop = .ended) :
      Step m { m with shutdown := .completed }

/-- Some interleaving leads from one state to another. -/
abbrev Reaches : Machine α → Machine α → Prop := Relation.ReflTransGen Step

/-- Some interleaving leads to a state. -/
def Reachable (m : Machine α) : Prop := ∃ count looping, Reaches (init count looping) m

/-- What follows a reachable state is reachable. -/
theorem Reachable.reaches {m m' : Machine α} (h : Reachable m) (h' : Reaches m m') :
    Reachable m' := by
  obtain ⟨count, looping, hinit⟩ := h
  exact ⟨count, looping, hinit.trans h'⟩

/-- What holds at the start and is kept by every step holds in every reachable state. -/
theorem Reachable.induct {P : Machine α → Prop} {m : Machine α} (h : Reachable m)
    (hinit : ∀ count looping, P (init count looping))
    (hstep : ∀ m m', P m → Step m m' → P m') : P m := by
  obtain ⟨count, looping, hreaches⟩ := h
  induction hreaches with
  | refl => exact hinit count looping
  | tail _ hlast ih => exact hstep _ _ ih hlast

end Machine

end HttpRelay.Throttle
