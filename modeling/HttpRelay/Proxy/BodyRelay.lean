import HttpRelay.Chunked.Copy
import HttpRelay.Http.Body
import HttpRelay.Proxy.Error

/-!
# Relaying Bodies

One body is carried from an input to the wire by its framing. A relay goes pass by pass, so that
it can wait for input between passes; chunked bodies are decoded and coded anew.
-/

namespace HttpRelay.Proxy

/-- Most bytes that one pass carries. -/
def passLength : Nat := 16384

/-- A body being relayed. -/
inductive BodyRelay where
  /-- Nothing is left to carry. -/
  | done
  /-- This many bytes are left. -/
  | counted (left : Nat)
  | chunked (remaining : Nat)
  | untilClose
  deriving DecidableEq, Repr

/-- What one pass of a relay did. -/
structure BodyRelay.Pass where
  /-- The relay behind the pass. -/
  next : BodyRelay
  /-- The input behind the pass. -/
  input : Buffered
  /-- Payload carried over. -/
  payload : Bytes := []
  /-- Bytes put on the wire. -/
  wire : Bytes := []
  /-- Whether the body is complete, or why the pass halted. -/
  status : Except (Halt Error) Bool

namespace BodyRelay

/-- The relay of a body that has not begun. -/
def ofKind : Http.BodyKind → BodyRelay
  | .empty => done
  | .contentLength length => counted length
  | .chunked => chunked 0
  | .untilClose => untilClose

/-- The error of a relay whose transport fails. -/
def transportError (relay : BodyRelay) (failure : IoFailure) : Error :=
  match relay with
  | chunked _ => .chunked (.io failure)
  | _ => .io failure

/-- Carry over what a read of at most `limit` bytes gives. At the end of input the pass ends
with `atEnd`. -/
def forward (next : Nat → BodyRelay) (limit : Nat) (atEnd : Except (Halt Error) Bool)
    (input : Buffered) : Pass :=
  match input.readSome (ε := IoFailure) limit with
  | (.error halt, input) => { next := next 0, input, status := .error (halt.map .io) }
  | (.ok data, input) =>
    if data.isEmpty then { next := next 0, input, status := atEnd }
    else { next := next data.length, input, payload := data, wire := data, status := .ok false }

/-- Carry one piece over. -/
def pass (relay : BodyRelay) (input : Buffered) : Pass :=
  match relay with
  | done => { next := done, input, status := .ok true }
  | counted 0 => { next := counted 0, input, status := .ok true }
  | counted left =>
    forward (fun n => counted (left - n)) (min passLength left)
      (.error (.failed (.io .unexpectedEof))) input
  | untilClose => forward (fun _ => untilClose) passLength (.ok true) input
  | chunked remaining =>
    let p := Chunked.Copy.pass { reader := { input, remaining } }
    { next := chunked p.next.reader.remaining
      input := p.next.reader.input
      payload := p.seen
      wire := p.wire
      status := p.status.mapError (·.map .chunked) }

/-- Number of bytes in some pieces. -/
def totalLength : List Bytes → Nat
  | [] => 0
  | piece :: pieces => piece.length + totalLength pieces

@[simp] theorem totalLength_nil : totalLength [] = 0 := rfl

@[simp] theorem totalLength_cons (piece : Bytes) (pieces : List Bytes) :
    totalLength (piece :: pieces) = piece.length + totalLength pieces := rfl

/-- What a whole relay did. -/
structure Report where
  input : Buffered
  payload : Bytes
  wire : Bytes
  /-- Number of payload bytes, or why the relay halted. -/
  result : Except (Halt Error) Nat

/-- Make at most `passes` passes, behind those whose payloads and wires are given last first. -/
def runWithin (payloads wires : List Bytes) (relay : BodyRelay) (input : Buffered) :
    (passes : Nat) → Report
  | 0 => { input, payload := payloads.reverse.flatten, wire := wires.reverse.flatten,
           result := .error .starved }
  | passes + 1 =>
    let p := relay.pass input
    let payloads := p.payload :: payloads
    let wires := p.wire :: wires
    match p.status with
    | .ok false => runWithin payloads wires p.next p.input passes
    | .ok true =>
      { input := p.input, payload := payloads.reverse.flatten, wire := wires.reverse.flatten,
        result := .ok (totalLength payloads) }
    | .error halt =>
      { input := p.input, payload := payloads.reverse.flatten, wire := wires.reverse.flatten,
        result := .error halt }

/-- Relay one body until it is complete or the relay halts. Every pass that does neither takes
bytes off the input. -/
def run (kind : Http.BodyKind) (input : Buffered) : Report :=
  runWithin [] [] (ofKind kind) input (input.pending.length + 1)

end BodyRelay

end HttpRelay.Proxy
