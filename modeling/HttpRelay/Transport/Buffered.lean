import HttpRelay.Transport.Feed

/-!
# Buffered Input

A `Buffered` input reads ahead from a feed, up to its capacity at a time. What it still has to
deliver is `pending`: the read-ahead, then the feed. Reading ahead never changes `pending`;
reading takes bytes off its front.

A capacity is positive. A buffer that could hold nothing would be empty behind every read-ahead,
which is how the end of the input shows.
-/

namespace HttpRelay

/-- How much a buffer holds. -/
structure Buffered.Capacity where
  /-- Most bytes that are read ahead at a time. -/
  size : Nat
  pos : 0 < size
  deriving DecidableEq, Repr

instance (n : Nat) : OfNat Buffered.Capacity (n + 1) := ⟨⟨n + 1, n.succ_pos⟩⟩

/-- A feed with a read-ahead buffer. -/
structure Buffered where
  /-- How far it reads ahead. -/
  capacity : Buffered.Capacity
  /-- Bytes read ahead and not yet delivered. -/
  buffer : Bytes := []
  /-- Where the bytes come from. -/
  feed : Feed
  deriving DecidableEq, Repr

namespace Buffered

/-- The read-ahead that a connection gets. -/
def defaultCapacity : Capacity := 8192

/-- An input with an empty buffer. -/
def ofFeed (feed : Feed) (capacity : Capacity) : Buffered := { capacity, feed }

/-- The bytes still to be delivered, as far as they have arrived. -/
def pending (b : Buffered) : Bytes := b.buffer ++ b.feed.arrived

/-- More bytes arrive. -/
def push (b : Buffered) (bytes : Bytes) : Buffered := { b with feed := b.feed.push bytes }

/-- The sender closes its side. -/
def close (b : Buffered) : Buffered := { b with feed := b.feed.close }

/-- Read ahead if the buffer is empty. -/
def fill (b : Buffered) : Buffered :=
  if b.buffer.isEmpty then
    { b with
      buffer := b.feed.arrived.take b.capacity.size
      feed := { b.feed with arrived := b.feed.arrived.drop b.capacity.size } }
  else b

/-- Whether the buffer is empty for good, as opposed to for now. -/
def atEnd (b : Buffered) : Bool :=
  b.buffer.isEmpty && b.feed.closed

/-- Read at most `n` bytes. An empty buffer is passed by when it could not hold that many. No
bytes are the answer at the end of input. -/
def readSome (b : Buffered) (n : Nat) : Except (Halt ε) Bytes × Buffered :=
  if b.buffer.isEmpty && b.capacity.size ≤ n then
    let (answer, feed) := b.feed.readSome n
    (answer, { b with feed })
  else
    let b := b.fill
    if b.buffer.isEmpty && !b.atEnd then (.error .starved, b)
    else (.ok (b.buffer.take n), { b with buffer := b.buffer.drop n })

/-- Filling the buffer delivers nothing. -/
@[simp] theorem pending_fill (b : Buffered) : b.fill.pending = b.pending := by
  unfold fill
  split
  · simp_all [pending]
  · rfl

/-- Take bytes off the buffer, through its first line feed, but no more than `limit`. -/
def takeLine (b : Buffered) (limit : Nat) : Bytes × Buffered :=
  let taken := (Bytes.splitLine (b.buffer.take limit)).1
  (taken, { b with buffer := b.buffer.drop taken.length })

/-- Read through the next line feed, but no more than `limit` bytes, behind those that
`reversed` holds last byte first. Fewer bytes without a line feed mean that the input ended. -/
def readLineFrom (limit : Nat) (reversed : Bytes) (b : Buffered) :
    Except (Halt ε) Bytes × Buffered :=
  if limit = 0 then (.ok reversed.reverse, b)
  else if b.fill.buffer.isEmpty then
    (if b.fill.atEnd then .ok reversed.reverse else .error .starved, b.fill)
  else
    match b.fill.takeLine limit with
    | (taken, b') =>
      let reversed' := taken.reverse ++ reversed
      if taken.getLast? = some Bytes.lf then (.ok reversed'.reverse, b')
      else if _h : limit ≤ limit - taken.length then (.ok reversed'.reverse, b')
      else readLineFrom (limit - taken.length) reversed' b'
termination_by limit

/-- Read through the next line feed, but no more than `limit` bytes. -/
def readLine (b : Buffered) (limit : Nat) : Except (Halt ε) Bytes × Buffered :=
  readLineFrom limit [] b

end Buffered

end HttpRelay
