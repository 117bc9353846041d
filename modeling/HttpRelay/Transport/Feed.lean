import HttpRelay.Bytes.Basic
import HttpRelay.Transport.IoFailure

/-!
# Incoming Bytes

A `Feed` is the receiving end of a connection: the bytes that arrived and were not yet read, and
whether the sender closed its side. A read that cannot be answered from these is `starved`: only
the arrival of more bytes, or the close, can decide it.
-/

namespace HttpRelay

/-- The receiving end of a connection. -/
structure Feed where
  /-- Bytes that arrived and were not read. -/
  arrived : Bytes := []
  /-- No byte will arrive after these. -/
  closed : Bool := false
  deriving DecidableEq, Repr

/-- Why a read gave no value. -/
inductive Halt (ε : Type) where
  /-- The bytes that arrived do not decide the read. -/
  | starved
  /-- The read failed. -/
  | failed (error : ε)
  deriving DecidableEq, Repr

namespace Halt

/-- The same halt with its error put into another error type. -/
def map {ε ε' : Type} (f : ε → ε') : Halt ε → Halt ε'
  | starved => starved
  | failed e => failed (f e)

end Halt

namespace Feed

/-- A read: its value or halt, and the feed where it stopped in both cases. -/
abbrev Read (ε α : Type) := ExceptT (Halt ε) (StateM Feed) α

/-- A feed that holds `bytes` and is closed behind them. -/
def complete (bytes : Bytes) : Feed := { arrived := bytes, closed := true }

/-- More bytes arrive. Nothing arrives after the close. -/
def push (feed : Feed) (bytes : Bytes) : Feed :=
  if feed.closed then feed else { feed with arrived := feed.arrived ++ bytes }

/-- The sender closes its side. -/
def close (feed : Feed) : Feed := { feed with closed := true }

/-- Read at most `n` bytes, as many as are there. No bytes are the answer at the end of
input. -/
def readSome (feed : Feed) (n : Nat) : Except (Halt ε) Bytes × Feed :=
  if feed.arrived.isEmpty then
    if feed.closed then (.ok [], feed) else (.error .starved, feed)
  else (.ok (feed.arrived.take n), { feed with arrived := feed.arrived.drop n })

/-- Read exactly `n` bytes. A read that halts has taken every byte there was. -/
def readExact (n : Nat) : Read IoFailure Bytes :=
  ExceptT.mk fun feed =>
    if n ≤ feed.arrived.length then
      (.ok (feed.arrived.take n), { feed with arrived := feed.arrived.drop n })
    else
      (.error (if feed.closed then .failed .unexpectedEof else .starved),
        { feed with arrived := [] })

/-- The same read with its failures put into another error type. -/
def orFail {ε ε' α : Type} (read : Read ε α) (f : ε → ε') : Read ε' α :=
  ExceptT.mk do
    match ← read.run with
    | .ok a => return .ok a
    | .error halt => return .error (halt.map f)

/-- A read that fails. -/
def fail {ε α : Type} (error : ε) : Read ε α :=
  throw (.failed error)

/-- Run a read on a feed. -/
def run {ε α : Type} (feed : Feed) (read : Read ε α) : Except (Halt ε) α × Feed :=
  (ExceptT.run read).run feed

end Feed

end HttpRelay
