import HttpRelay.Bytes.Word

/-!
# Forward-Only Cursor

A `Cursor` walks over a byte string without going back. Reads that ask for more than is left
fail with `UnexpectedEnd` and do not move; a length-prefixed read that fails on its body has
already moved past the length.
-/

namespace HttpRelay

/-- The input ended before the requested number of bytes. -/
structure UnexpectedEnd where
  /-- How many bytes the read asked for. -/
  needed : Nat
  /-- How many were left. -/
  remaining : Nat
  deriving DecidableEq, Repr

/-- The text shown for a short input. -/
def UnexpectedEnd.message (e : UnexpectedEnd) : String :=
  s!"unexpected end of input: needed {e.needed} bytes, {e.remaining} remaining"

/-- A position inside a byte string. -/
structure Cursor where
  /-- The whole input. -/
  input : Bytes
  /-- Offset of the next unread byte. -/
  position : Nat := 0
  /-- The position never passes the end. -/
  position_le : position ≤ input.length := by simp
  deriving Repr

namespace Cursor

/-- A read: it may fail, and leaves the cursor where it stopped in both cases. -/
abbrev Read (ε α : Type) := ExceptT ε (StateM Cursor) α

/-- A cursor at the start of `input`. -/
def ofBytes (input : Bytes) : Cursor := { input }

/-- Number of unread bytes. -/
def remaining (c : Cursor) : Nat := c.input.length - c.position

/-- Whether everything was read. -/
def isEmpty (c : Cursor) : Bool := c.remaining == 0

/-- The unread bytes. -/
def rest (c : Cursor) : Bytes := c.input.drop c.position

/-- The next `n` bytes and the cursor past them. -/
def take (c : Cursor) (n : Nat) : Except UnexpectedEnd Bytes × Cursor :=
  if h : n ≤ c.remaining then
    (.ok (c.rest.take n),
      { c with
        position := c.position + n
        position_le := by
          have := c.position_le
          simp only [remaining] at h
          omega })
  else (.error ⟨n, c.remaining⟩, c)

/-- Read the next `n` bytes. -/
def bytes (n : Nat) : Read UnexpectedEnd Bytes :=
  ExceptT.mk fun c => c.take n

/-- Pass over `n` bytes. -/
def skip (n : Nat) : Read UnexpectedEnd Unit := do
  let _ ← bytes n

/-- Read one octet. -/
def octet : Read UnexpectedEnd UInt8 := do
  return (← bytes 1).headD 0

/-- Read a `width`-octet number, most significant octet first. -/
def be (width : Nat) : Read UnexpectedEnd Nat := do
  return Word.ofBe (← bytes width)

/-- Read a `width`-octet number, least significant octet first. -/
def le (width : Nat) : Read UnexpectedEnd Nat := do
  return Word.ofLe (← bytes width)

/-- Read a byte string that a `width`-octet length precedes. -/
def vector (width : Nat) : Read UnexpectedEnd Bytes := do
  bytes (← be width)

/-- Whether everything was read, as a read that changes nothing. -/
def atEnd {ε : Type} : Read ε Bool := do
  return (← get).isEmpty

/-- Number of unread bytes, as a read that changes nothing. -/
def left {ε : Type} : Read ε Nat := do
  return (← get).remaining

/-- The same read with its failures put into another error type. -/
def orFail {ε ε' α : Type} (read : Read ε α) (f : ε → ε') : Read ε' α :=
  ExceptT.mk do
    match ← read.run with
    | .ok a => return .ok a
    | .error e => return .error (f e)

/-- Run a read on a cursor. -/
def run {ε α : Type} (c : Cursor) (read : Read ε α) : Except ε α × Cursor :=
  (ExceptT.run read).run c

/-- Read items up to the end, behind those that `done` holds last item first. -/
def manyFrom {ε α : Type} (item : Read ε α) (done : List α) (c : Cursor) :
    Except ε (List α) × Cursor :=
  if c.isEmpty then (.ok done.reverse, c)
  else
    match c.run item with
    | (.error e, c') => (.error e, c')
    | (.ok a, c') =>
      if _h : c'.remaining < c.remaining then manyFrom item (a :: done) c'
      else (.ok (a :: done).reverse, c')
termination_by c.remaining

/-- Read items up to the end. An item that takes no bytes is the last one. -/
def many {ε α : Type} (item : Read ε α) : Read ε (List α) :=
  ExceptT.mk (manyFrom item [])

end Cursor

end HttpRelay
