import HttpRelay.Net.Address
import HttpRelay.Transport.IoFailure

/-!
# Listener

Connections are accepted in the order they come, as long as there are permits. A permit is held
until its connection ends.
-/

namespace HttpRelay.Service

/-- Why a listener could not be set up. -/
inductive BindError where
  /-- The text is no socket address. -/
  | badAddress
  deriving DecidableEq, Repr

namespace BindError

/-- The failure behind an error. -/
def failure : BindError → IoFailure
  | badAddress => .invalidInput

/-- The text shown for an error. -/
def message : BindError → String
  | badAddress => "Failed to bind: invalid socket address syntax"

end BindError

/-- A listener. -/
structure Listener where
  address : Net.SocketAddress
  /-- Most connections at one time. -/
  limit : Nat
  /-- Number of permits that are not held. -/
  available : Nat
  /-- Connections not accepted yet, the first one first. -/
  waiting : List Nat := []
  deriving DecidableEq, Repr

namespace Listener

/-- Listen at an address. -/
def bind (address : String) (limit : Nat) : Except BindError Listener :=
  match Net.SocketAddress.parse? address with
  | some address => .ok { address, limit, available := limit }
  | none => .error .badAddress

/-- A connection comes in. -/
def arrive (l : Listener) (connection : Nat) : Listener :=
  { l with waiting := l.waiting ++ [connection] }

/-- Accept a connection. There is none as long as no one connects or no permit is left. -/
def accept? (l : Listener) : Option (Nat × Listener) :=
  match l.waiting with
  | connection :: waiting =>
    if l.available = 0 then none
    else some (connection, { l with waiting, available := l.available - 1 })
  | [] => none

/-- Give a permit back, if one is held. -/
def release (l : Listener) : Listener := { l with available := min l.limit (l.available + 1) }

end Listener

end HttpRelay.Service
