import HttpRelay.Http.Head
import HttpRelay.Proxy.Error

/-!
# Reading Heads

A head runs up to its first empty line. Empty lines in front of it are skipped; a connection
that closes in front of it ends cleanly.
-/

namespace HttpRelay.Proxy

/-- Most bytes of a head. -/
def maxHeadLength : Nat := 65536

/-- Whether a line, terminator included, is empty. -/
def isEmptyLine (line : Bytes) : Bool := line == Bytes.crlf || line == [Bytes.lf]

/-- Read at most `lines` lines, behind the `taken` bytes of the head that `reversed` holds last
byte first, until the head is complete. -/
def readHeadWithin (taken : Nat) (reversed : Bytes) (b : Buffered) :
    (lines : Nat) → Except (Halt Error) (Option Bytes) × Buffered
  | 0 => (.error .starved, b)
  | lines + 1 =>
    match b.readLine (maxHeadLength + 1 - taken) with
    | (.error halt, b) => (.error halt, b)
    | (.ok line, b) =>
      if line.isEmpty then
        (if taken = 0 then .ok none else .error (.failed (.io .unexpectedEof)), b)
      else if maxHeadLength < taken + line.length then
        (.error (.failed (.headTooLarge maxHeadLength)), b)
      else if isEmptyLine line then
        if taken = 0 then readHeadWithin 0 [] b lines
        else (.ok (some (line.reverse ++ reversed).reverse), b)
      else readHeadWithin (taken + line.length) (line.reverse ++ reversed) b lines

/-- Read one head through its empty line, `none` at the end of input. Every line takes at least
one byte. -/
def readHead (b : Buffered) : Except (Halt Error) (Option Bytes) × Buffered :=
  readHeadWithin 0 [] b (b.pending.length + 1)

/-- A parsed head, or the halt of a session. -/
def parsed {α : Type} (result : Except Http.HeadError α) : Except (Halt Error) α :=
  result.mapError (.failed ∘ .malformedHead)

/-- Read the head of a request, `none` at the end of input. -/
def readRequestHead (b : Buffered) : Except (Halt Error) (Option Http.RequestHead) × Buffered :=
  let (raw, b) := readHead b
  (do
    match ← raw with
    | some raw => return some (← parsed (Http.RequestHead.parse raw))
    | none => return none, b)

/-- Read the head of a response. -/
def readResponseHead (b : Buffered) : Except (Halt Error) Http.ResponseHead × Buffered :=
  let (raw, b) := readHead b
  (do
    match ← raw with
    | some raw => parsed (Http.ResponseHead.parse raw)
    | none => throw (.failed (.io .unexpectedEof)), b)

end HttpRelay.Proxy
