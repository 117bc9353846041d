import HttpRelay.Throttle.Scheduler

/-!
# Pacing

One direction of a throttled stream keeps the bytes it was granted and has not transferred, the
fraction it carries, and the ticket of a request that still waits.
-/

namespace HttpRelay.Throttle

/-- The bookkeeping of one direction. -/
structure Pacing (α : Type) where
  ruleSet : RuleSetId
  /-- Bytes granted and not transferred. -/
  allowance : Nat := 0
  /-- The fraction carried to the next request. -/
  carry : α
  /-- Size of the request made last. -/
  requested : Nat := 0
  /-- The ticket of the request that waits. -/
  waiting : Option Nat := none
  deriving DecidableEq, Repr

/-- What comes of a ticket. -/
inductive Receipt (α : Type) where
  /-- The request is answered. -/
  | grant (allowance : Allowance α)
  /-- No answer will come. -/
  | lost
  deriving DecidableEq, Repr

/-- What came of tickets and was not taken yet. -/
abbrev Mail (α : Type) := List (Nat × Receipt α)

namespace Pacing

variable {α : Type} [Quantity α]

/-- The bookkeeping of a direction that has not begun. -/
def start (ruleSet : RuleSetId) : Pacing α := { ruleSet, carry := Quantity.ofNat 0 }

/-- Take a grant. One without limit covers the request made last. -/
def apply (p : Pacing α) : Allowance α → Pacing α
  | .bytes count carry => { p with allowance := count, carry }
  | .unlimited => { p with allowance := max p.requested 1, carry := Quantity.ofNat 0 }

/-- Take what came of a ticket. A request that was lost goes through freely. -/
def receive (p : Pacing α) : Receipt α → Pacing α
  | .grant allowance => p.apply allowance
  | .lost => p.apply .unlimited

/-- Transfer bytes of the allowance. -/
def spend (p : Pacing α) (count : Nat) : Pacing α := { p with allowance := p.allowance - count }

/-- Park a request for `wanted` bytes. There is no ticket if the transfer need not wait. -/
def park (p : Pacing α) (peer : Peer) (wanted : Nat) (s : Scheduler α) :
    Option Nat × Pacing α × Scheduler α :=
  match s.enqueue? p.ruleSet { peer, remaining := wanted, carry := p.carry } with
  | some (ticket, s) => (some ticket, { p with requested := wanted }, s)
  | none => (none, p, s)

end Pacing

end HttpRelay.Throttle
