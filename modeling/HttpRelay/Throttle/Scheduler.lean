import HttpRelay.Throttle.Plan

/-!
# Scheduler

Requests park on a rule set until a tick answers them. A request is known by its ticket, and
answers are handed out by ticket. Callers may act between any two of the small operations: to
park, to set a budget, to drain one slot and to stop are one step each, and a tick or a shutdown
is a sequence of such steps.
-/

namespace HttpRelay.Throttle

/-- A rule set by its slot. -/
structure RuleSetId where
  slot : Nat
  deriving DecidableEq, Repr

namespace RuleSetId

/-- The identifier that matches no rule set. -/
def none : RuleSetId := ⟨UInt64.size - 1⟩

/-- The text of an identifier. -/
def display (id : RuleSetId) : String := toString id.slot

end RuleSetId

/-- A request in a queue. -/
structure Parked (α : Type) where
  ticket : Nat
  request : Request α
  deriving DecidableEq, Repr

/-- A budget and the requests that wait for it. -/
structure RuleSet (α : Type) where
  /-- Bytes per second, or zero for no limit. -/
  budget : Nat := 0
  parked : List (Parked α) := []
  deriving DecidableEq, Repr

/-- A rule set behind a drain of its queue. -/
def RuleSet.drained {α : Type} (r : RuleSet α) : RuleSet α := { r with parked := [] }

/-- The answer to a ticket. -/
abbrev Reply (α : Type) := Nat × Allowance α

/-- The scheduler. -/
structure Scheduler (α : Type) where
  ruleSets : List (RuleSet α)
  /-- Milliseconds between ticks. -/
  burst : Nat := 100
  /-- Ticks have begun. -/
  started : Bool := false
  /-- Nothing parks any more. -/
  shutDown : Bool := false
  nextTicket : Nat := 0
  deriving DecidableEq, Repr

namespace Scheduler

variable {α : Type}

/-- Shortest time between ticks, in milliseconds. -/
def minBurst : Nat := 1

/-- Longest time between ticks, in milliseconds. -/
def maxBurst : Nat := 1000

/-- A scheduler with `count` rule sets without limit. -/
def ofCount (count : Nat) : Scheduler α := { ruleSets := List.replicate count {} }

/-- The rule set in a slot. -/
def ruleSet? (s : Scheduler α) (id : RuleSetId) : Option (RuleSet α) := s.ruleSets[id.slot]?

/-- The budget in a slot. -/
def budget? (s : Scheduler α) (id : RuleSetId) : Option Nat := (s.ruleSet? id).map RuleSet.budget

/-- Number of requests that wait in a slot. -/
def pending? (s : Scheduler α) (id : RuleSetId) : Option Nat :=
  (s.ruleSet? id).map (·.parked.length)

/-- Change the rule set in a slot. -/
def modifySlot (s : Scheduler α) (slot : Nat) (f : RuleSet α → RuleSet α) : Scheduler α :=
  { s with ruleSets := s.ruleSets.modify slot f }

/-- Set a budget, negative values counting as zero. There is no result if the slot is empty. -/
def setBudget? (s : Scheduler α) (id : RuleSetId) (value : Int) : Option (Scheduler α) :=
  if id.slot < s.ruleSets.length then
    some (s.modifySlot id.slot ({ · with budget := value.toNat }))
  else none

/-- Set the time between ticks, kept within its bounds. -/
def setBurst (s : Scheduler α) (ms : Nat) : Scheduler α :=
  { s with burst := max minBurst (min ms maxBurst) }

/-- Begin to tick. -/
def start (s : Scheduler α) : Scheduler α := { s with started := true }

/-- Whether transfers on a rule set wait for the scheduler. -/
def isThrottled (s : Scheduler α) (id : RuleSetId) : Bool :=
  !s.shutDown && (s.budget? id).any (0 < ·)

/-- Park a request. There is no result if the transfer need not wait. -/
def enqueue? (s : Scheduler α) (id : RuleSetId) (request : Request α) :
    Option (Nat × Scheduler α) :=
  if s.isThrottled id then
    let parked : Parked α := { ticket := s.nextTicket, request }
    let s := s.modifySlot id.slot fun r => { r with parked := r.parked ++ [parked] }
    some (parked.ticket, { s with nextTicket := s.nextTicket + 1 })
  else none

/-- Take what waits in a slot. -/
def drain (s : Scheduler α) (slot : Nat) : List (Parked α) × Scheduler α :=
  (((s.ruleSets[slot]?).map RuleSet.parked).getD [], s.modifySlot slot RuleSet.drained)

/-- The answers to a batch that was taken from a slot, by the budget of the slot as it is now. -/
def answers [Quantity α] (s : Scheduler α) (slot : Nat) (elapsed : α) (batch : List (Parked α)) :
    List (Reply α) :=
  let budget := (s.budget? ⟨slot⟩).getD 0
  (batch.map Parked.ticket).zip (planTick budget elapsed (batch.map Parked.request))

/-- Take what waits in a slot and answer it by plan. -/
def tickSlot [Quantity α] (elapsed : α) (s : Scheduler α) (slot : Nat) :
    List (Reply α) × Scheduler α :=
  let (batch, s) := s.drain slot
  (s.answers slot elapsed batch, s)

/-- Take what waits in a slot and answer it without limit. -/
def releaseSlot (s : Scheduler α) (slot : Nat) : List (Reply α) × Scheduler α :=
  let (batch, s) := s.drain slot
  (batch.map fun p => (p.ticket, .unlimited), s)

/-- Visit slots in turn, and gather the answers. -/
def visit (s : Scheduler α) (f : Scheduler α → Nat → List (Reply α) × Scheduler α) :
    List Nat → List (Reply α) × Scheduler α
  | [] => ([], s)
  | slot :: slots =>
    let (replies, s) := f s slot
    let (more, s) := s.visit f slots
    (replies ++ more, s)

/-- Every slot. -/
def slots (s : Scheduler α) : List Nat := List.range s.ruleSets.length

/-- One pass over every rule set: take what waits and answer it. -/
def tick [Quantity α] (s : Scheduler α) (elapsed : α) : List (Reply α) × Scheduler α :=
  s.visit (tickSlot elapsed) s.slots

/-- Answer everything that waits without limit. -/
def releaseAll (s : Scheduler α) : List (Reply α) × Scheduler α := s.visit releaseSlot s.slots

/-- Let nothing park any more. -/
def stop (s : Scheduler α) : Scheduler α := { s with shutDown := true }

/-- Stop for good, and release everything that waits. Nothing parks behind the release, since the
scheduler was stopped before it. -/
def shutdown (s : Scheduler α) : List (Reply α) × Scheduler α := s.stop.releaseAll

end Scheduler

end HttpRelay.Throttle
