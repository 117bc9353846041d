/-!
# Shutdown Signal

A signal is sent to everyone who listens at that time. Only the last one sent is kept: a listener
who missed others is told how many before it is given that one.
-/

namespace HttpRelay.Service

/-- What a listener finds. -/
inductive Reception where
  | signal
  /-- So many signals were missed. -/
  | missed (count : Nat)
  deriving DecidableEq, Repr

/-- The text of what a listener finds. -/
def Reception.display : Reception → String
  | signal => "signal"
  | missed count => s!"Lagged({count})"

/-- A signal and its listeners. -/
structure Signal where
  /-- How many signals were sent. -/
  sent : Nat := 0
  /-- For every listener, how many signals lie behind it, until it goes away. -/
  listeners : List (Option Nat) := []
  deriving DecidableEq, Repr

namespace Signal

/-- Number of listeners. -/
def listenerCount (s : Signal) : Nat := s.listeners.countP Option.isSome

/-- Listen to the signals sent from now on. -/
def subscribe (s : Signal) : Signal := { s with listeners := s.listeners ++ [some s.sent] }

/-- Send a signal. Without listeners it is lost. -/
def trigger (s : Signal) : Signal :=
  if s.listenerCount = 0 then s else { s with sent := s.sent + 1 }

/-- A listener goes away. -/
def drop (s : Signal) (listener : Nat) : Signal :=
  { s with listeners := s.listeners.set listener none }

/-- What a listener finds, `none` if it has to wait. -/
def receive (s : Signal) (listener : Nat) : Option Reception × Signal :=
  match s.listeners[listener]?.join with
  | none => (none, s)
  | some seen =>
    if s.sent ≤ seen then (none, s)
    else if seen + 1 = s.sent then
      (some .signal, { s with listeners := s.listeners.set listener (some s.sent) })
    else
      (some (.missed (s.sent - 1 - seen)),
        { s with listeners := s.listeners.set listener (some (s.sent - 1)) })

end Signal

end HttpRelay.Service
