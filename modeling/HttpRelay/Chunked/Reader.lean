import HttpRelay.Chunked.Basic

/-!
# Chunked Reader

A `Reader` delivers the data of a chunked body in pieces of any size, from as many chunks as a
piece needs, and stops right behind the body.
-/

namespace HttpRelay.Chunked

/-- A body being read. -/
structure Reader where
  /-- Where the body comes from. -/
  input : Buffered
  /-- Data bytes left in the current chunk. -/
  remaining : Nat := 0
  /-- The closing chunk and its trailers were read. -/
  ended : Bool := false
  deriving DecidableEq, Repr

namespace Reader

/-- A read: its value or halt, and the reader where it stopped in both cases. -/
abbrev Read (α : Type) := ExceptT (Halt Error) (StateM Reader) α

/-- A read of the input below. -/
def lift {α : Type} (read : Buffered → Except (Halt IoFailure) α × Buffered) : Read α :=
  ExceptT.mk fun r =>
    let (answer, input) := read r.input
    (answer.mapError (·.map .io), { r with input })

/-- A read that fails. -/
def fail {α : Type} (error : Error) : Read α :=
  throw (.failed error)

/-- Read one line, without its terminator. -/
def line : Read Bytes := do
  let line ← lift (·.readLine lineReadLimit)
  if line.getLast? = some Bytes.lf then return Bytes.chomp line
  else if lineReadLimit ≤ line.length then fail (.lineTooLong maxLineLength)
  else fail .unexpectedEof

/-- Read a size line. -/
def sizeLine : Read Nat := do
  let line ← tryCatch line fun
    | .failed (.lineTooLong limit) => fail (.invalidSize s!"size line longer than {limit} bytes")
    | halt => throw halt
  match parseSize line with
  | .ok size => return size
  | .error error => fail error

/-- Read trailer lines, at most `budget` with the empty one that ends them. -/
def trailersWithin : (budget : Nat) → Read Unit
  | 0 => fail (.tooManyTrailers maxTrailerLines)
  | budget + 1 => do
    if (← line).isEmpty then return
    else trailersWithin budget

/-- Read the trailers. -/
def trailers : Read Unit := trailersWithin maxTrailerLines

/-- At a chunk boundary, read the next size line, and the trailers if it closes the body. -/
def openChunk : Read Unit := do
  if (← get).remaining = 0 then
    let size ← sizeLine
    if size = 0 then
      trailers
      modify ({ · with ended := true })
    else modify ({ · with remaining := size })

/-- At the end of a chunk's data, read the empty line behind it. -/
def closeChunk : Read Unit := do
  if (← get).remaining = 0 then
    unless (← line).isEmpty do fail .invalidTrailer

/-- Read some data of the current chunk, at most `want` bytes and at least one. -/
def chunkData (want : Nat) : Read Bytes := do
  let limit := min want (← get).remaining
  let data ← lift (·.readSome limit)
  if data.isEmpty then fail .unexpectedEof
  modify fun r => { r with remaining := r.remaining - data.length }
  closeChunk
  return data

/-- Read `want` more bytes, or all that the body still has, behind those that `reversed` holds
last byte first. -/
def readFrom (want : Nat) (reversed : Bytes) (r : Reader) : Except (Halt Error) Bytes × Reader :=
  if want = 0 || r.ended then (.ok reversed.reverse, r)
  else
    match openChunk.run.run r with
    | (.error halt, r) => (.error halt, r)
    | (.ok (), r) =>
      if r.ended then (.ok reversed.reverse, r)
      else
        match (chunkData want).run.run r with
        | (.error halt, r) => (.error halt, r)
        | (.ok data, r) =>
          let reversed' := data.reverse ++ reversed
          if _h : want ≤ want - data.length then (.ok reversed'.reverse, r)
          else readFrom (want - data.length) reversed' r
termination_by want

/-- Read `n` bytes. Fewer are the answer only when the body is complete. -/
def read (r : Reader) (n : Nat) : Except (Halt Error) Bytes × Reader :=
  readFrom n [] r

end Reader

end HttpRelay.Chunked
