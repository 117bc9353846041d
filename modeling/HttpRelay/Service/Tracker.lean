/-!
# Connection Tracker

Open connections hold a guard each. Draining waits until all guards are gone, but not longer than
a given time.
-/

namespace HttpRelay.Service

/-- The guards of the open connections. -/
structure Tracker where
  /-- The numbers of the guards held. -/
  held : List Nat := []
  /-- The number of the next guard. -/
  next : Nat := 0
  deriving DecidableEq, Repr

namespace Tracker

/-- Number of open connections. -/
def active (t : Tracker) : Nat := t.held.length

/-- The text of a connection's number. -/
def display (connection : Nat) : String := s!"conn-{connection}"

/-- Open a connection. The result is its number. -/
def track (t : Tracker) : Nat × Tracker :=
  (t.next, { held := t.held ++ [t.next], next := t.next + 1 })

/-- Close connections. -/
def release (t : Tracker) (connections : List Nat) : Tracker :=
  { t with held := t.held.filter (!connections.contains ·) }

/-- Wait for the last connection to close, where some close after `delay` milliseconds. The
result tells whether all were closed in time and how long that took. -/
def drain (t : Tracker) (closing : List Nat) (delay limit : Nat) : Bool × Nat :=
  if t.held.isEmpty then (true, 0)
  else if (t.release closing).held.isEmpty && delay < limit then (true, delay)
  else (false, limit)

end Tracker

end HttpRelay.Service
