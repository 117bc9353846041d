import HttpRelay.Net.Address

/-!
# Sharing a Budget

One tick of the scheduler splits what the budget allows evenly across the peers that wait, and
each peer's share evenly across its requests. Only whole bytes are granted; the fraction is
carried to the peer's next request.

Quantities are those of a number type with the operations of `Quantity`. The relay runs on binary
floating point; exact rationals satisfy the same equations.
-/

namespace HttpRelay.Throttle

/-- The arithmetic of shares. -/
class Quantity (α : Type) extends Add α, Sub α, Mul α, Div α where
  /-- The quantity of that many units. -/
  ofNat : Nat → α
  /-- The largest whole quantity that is no larger. -/
  floor : α → α
  /-- The number of units in a whole quantity. -/
  toNat : α → Nat
  /-- Whether a quantity is zero or less. -/
  isNonpositive : α → Bool
  /-- The lesser of two quantities, or the one that is a number. -/
  least : α → α → α

/-- Binary floating point. -/
instance : Quantity Float where
  ofNat n := (UInt64.ofNat n).toFloat
  floor := Float.floor
  toNat x := x.toUInt64.toNat
  isNonpositive x := x ≤ 0.0
  least x y := if x.isNaN then y else if y.isNaN then x else if x < y then x else y

/-- A length of time in seconds, from whole seconds and nanoseconds. -/
def elapsed {α : Type} [Quantity α] (seconds nanoseconds : Nat) : α :=
  Quantity.ofNat seconds + Quantity.ofNat nanoseconds / Quantity.ofNat 1000000000

/-- A length of time in seconds, from milliseconds. -/
def elapsedMillis {α : Type} [Quantity α] (ms : Nat) : α :=
  elapsed (ms / 1000) (ms % 1000 * 1000000)

/-- The unit of fairness. -/
inductive Peer where
  | ip (address : Net.IpAddress)
  | named (name : String)
  deriving DecidableEq, Repr

/-- The text of a peer. -/
def Peer.display : Peer → String
  | ip address => address.display
  | named name => name

/-- A wish to transfer. -/
structure Request (α : Type) where
  peer : Peer
  /-- Bytes the caller still wants to transfer. -/
  remaining : Nat
  /-- The fraction left over from earlier grants. -/
  carry : α
  deriving DecidableEq, Repr

/-- What a request is granted in one tick. -/
inductive Allowance (α : Type) where
  /-- Some bytes, and the fraction to bring to the next tick. -/
  | bytes (count : Nat) (carry : α)
  | unlimited
  deriving DecidableEq, Repr

/-- The distinct peers of some requests. -/
def peersOf {α : Type} (requests : List (Request α)) : List Peer :=
  requests.foldr (fun r peers => if r.peer ∈ peers then peers else r.peer :: peers) []

/-- Number of requests of a peer. -/
def siblings {α : Type} (requests : List (Request α)) (peer : Peer) : Nat :=
  requests.countP (·.peer = peer)

/-- The grant to a request whose exact share, with what it brought, is `exact`. -/
def grant {α : Type} [Quantity α] (exact : α) (remaining : Nat) : Allowance α :=
  let whole := Quantity.floor exact
  .bytes (Quantity.toNat (Quantity.least whole (Quantity.ofNat remaining))) (exact - whole)

/-- The grants to requests, in their order. A budget of zero, or a share of nothing, grants
without limit, so that no caller stalls. -/
def planTick {α : Type} [Quantity α] (budget : Nat) (elapsed : α) (requests : List (Request α)) :
    List (Allowance α) :=
  if budget = 0 then requests.map fun _ => .unlimited
  else
    let allowed : α := Quantity.ofNat budget * elapsed
    let peerShare : α := allowed / Quantity.ofNat (peersOf requests).length
    requests.map fun r =>
      if Quantity.isNonpositive peerShare then .unlimited
      else
        let share : α := peerShare / Quantity.ofNat (siblings requests r.peer)
        grant (share + r.carry) r.remaining

end HttpRelay.Throttle
