import HttpRelay.Config.Basic

/-!
# Backoff

Attempts to connect are spaced by delays that double from one to the next up to a limit. Each is
lengthened by a random jitter of less than a tenth. Words of 64 bits saturate.
-/

namespace HttpRelay.Service

/-- A number cut to 64 bits. -/
def saturate (n : Nat) : Nat := min n (UInt64.size - 1)

namespace Backoff

/-- The factor of the delay behind an attempt. -/
def growth (attempt : Nat) : Nat :=
  if attempt ≤ 64 then saturate (1 <<< (attempt - 1)) else UInt64.size - 1

/-- The delay behind an attempt without its jitter, in milliseconds. -/
def shortest (attempt base max : Nat) : Nat :=
  if attempt = 0 then 0 else min (saturate (base * growth attempt)) max

/-- The jitter stays below this bound, if it is positive, and is zero otherwise. -/
def jitterBound (attempt base max : Nat) : Nat := shortest attempt base max / 10

/-- The delay behind an attempt, given a random number. -/
def delay (attempt base max random : Nat) : Nat :=
  let bound := jitterBound attempt base max
  shortest attempt base max + if bound = 0 then 0 else random % bound

end Backoff

/-- The attempts made under a retry policy. -/
structure Backoff where
  retries : Config.Retries
  attempts : Nat := 0
  deriving DecidableEq, Repr

namespace Backoff

/-- Most attempts. There is always one. -/
def limit (b : Backoff) : Nat := max 1 b.retries.maxAttempts

/-- Go on to the next attempt. The result is the delay in front of it, without one once the
attempts are used up. -/
def next (b : Backoff) (random : Nat) : Option Nat × Backoff :=
  if b.attempts < b.limit then
    (some (delay b.attempts b.retries.baseDelay b.retries.maxDelay random),
      { b with attempts := b.attempts + 1 })
  else (none, b)

end Backoff

end HttpRelay.Service
