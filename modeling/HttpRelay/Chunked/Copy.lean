import HttpRelay.Chunked.Reader
import HttpRelay.Chunked.Writer

/-!
# Copying a Chunked Body

A body is decoded and coded anew in pieces of up to `copyLength` bytes; chunk boundaries and
extensions of the sender are lost. A copy goes pass by pass, so that it can wait for input
between passes.
-/

namespace HttpRelay.Chunked

/-- Most bytes that one pass carries. -/
def copyLength : Nat := 16384

/-- A copy under way. -/
structure Copy where
  reader : Reader
  writer : Writer := {}
  deriving DecidableEq, Repr

/-- What one pass of a copy did. -/
structure Copy.Pass where
  /-- The copy behind the pass. -/
  next : Copy
  /-- Decoded data, as the observer saw it. -/
  seen : Bytes := []
  /-- Bytes put on the wire. -/
  wire : Bytes := []
  /-- Whether the body is complete, or why the pass halted. -/
  status : Except (Halt Error) Bool

namespace Copy

/-- Carry one piece over, and close the body behind its last piece. -/
def pass (copy : Copy) : Pass :=
  match copy.reader.read copyLength with
  | (.error halt, reader) => { next := { copy with reader }, status := .error halt }
  | (.ok data, reader) =>
    match if data.isEmpty then .ok [] else copy.writer.write data with
    | .error error =>
      { next := { copy with reader }, seen := data, status := .error (.failed error) }
    | .ok wire =>
      if reader.ended then
        match copy.writer.finish with
        | (.ok closing, writer) =>
          { next := { reader, writer }, seen := data, wire := wire ++ closing, status := .ok true }
        | (.error error, writer) =>
          { next := { reader, writer }, seen := data, wire, status := .error (.failed error) }
      else { next := { copy with reader }, seen := data, wire, status := .ok false }

/-- What a whole copy did. -/
structure Report where
  /-- The copy where it stopped. -/
  final : Copy
  /-- The data of each pass that had some. -/
  slices : List Bytes
  /-- Bytes put on the wire. -/
  wire : Bytes
  /-- Number of data bytes carried over, or why the copy halted. -/
  result : Except (Halt Error) Nat

/-- Make at most `passes` passes, behind those whose outcome is given last pass first. -/
def runWithin (slices wires : List Bytes) (copy : Copy) : (passes : Nat) → Report
  | 0 => { final := copy, slices := slices.reverse, wire := wires.reverse.flatten,
           result := .error .starved }
  | passes + 1 =>
    let p := copy.pass
    let slices := if p.seen.isEmpty then slices else p.seen :: slices
    let wires := p.wire :: wires
    match p.status with
    | .ok false => runWithin slices wires p.next passes
    | .ok true =>
      { final := p.next, slices := slices.reverse, wire := wires.reverse.flatten,
        result := .ok (slices.map List.length).sum }
    | .error halt =>
      { final := p.next, slices := slices.reverse, wire := wires.reverse.flatten,
        result := .error halt }

/-- Copy until the body is complete or the copy halts. Every pass that does neither takes bytes
off the input. -/
def run (copy : Copy) : Report :=
  copy.runWithin [] [] (copy.reader.input.pending.length + 1)

end Copy

end HttpRelay.Chunked
