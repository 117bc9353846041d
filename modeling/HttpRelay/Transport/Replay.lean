import HttpRelay.Transport.Buffered

/-!
# Replayed Input

A `Replay` hands back bytes that were already taken off a connection before it reads on. It
stands behind both hand-overs of the relay: the sniffed client hello on the way into the TLS
handshake, and the read-ahead of a connection that is upgraded.
-/

namespace HttpRelay

/-- A feed with bytes to deliver first. -/
structure Replay where
  /-- Bytes still to be replayed. -/
  held : Bytes
  /-- The connection behind them. -/
  inner : Feed
  deriving DecidableEq, Repr

namespace Replay

/-- The bytes still to be delivered, as far as they have arrived. -/
def pending (r : Replay) : Bytes := r.held ++ r.inner.arrived

/-- Read at most `n` bytes: of the held ones as long as there are any. -/
def readSome (r : Replay) (n : Nat) : Except (Halt ε) Bytes × Replay :=
  if r.held.isEmpty then
    let (answer, inner) := r.inner.readSome n
    (answer, { r with inner })
  else (.ok (r.held.take n), { r with held := r.held.drop n })

/-- Take off the buffer of an input, keeping its read-ahead in front. -/
def ofBuffered (b : Buffered) : Replay := { held := b.buffer, inner := b.feed }

/-- The replay as one feed. -/
def toFeed (r : Replay) : Feed := { r.inner with arrived := r.pending }

/-- Taking off the buffer loses nothing. -/
@[simp] theorem pending_ofBuffered (b : Buffered) : (ofBuffered b).pending = b.pending := rfl

end Replay

end HttpRelay
