import HttpRelay.Http.HeadError
import HttpRelay.Http.Headers
import HttpRelay.Text.Number

/-!
# Body Framing

Where the body of a message ends, by its header fields (RFC 9112, section 6.3). A transfer
coding outranks a length, and ends the body only if chunked comes last.
-/

namespace HttpRelay.Http

/-- How the end of a body is found. -/
inductive BodyKind where
  /-- There is no body. -/
  | empty
  /-- The body has this many bytes, at least one. -/
  | contentLength (length : Nat)
  | chunked
  /-- The body runs until the sender closes. -/
  | untilClose
  deriving DecidableEq, Repr

/-- The transfer codings that the fields list, in order, without empty elements. -/
def Headers.transferCodings (h : Headers) : List String :=
  ((h.getAll "transfer-encoding").flatMap Text.listElements).filter (!·.isEmpty)

/-- Agree a further Content-Length field with the length found so far. -/
def agreeLength (soFar : Option Nat) (value : String) : Except HeadError (Option Nat) :=
  (Text.listElements value).foldlM
    (fun soFar element =>
      match Text.unsigned? UInt64.size element with
      | none => .error (.invalidContentLength value)
      | some n =>
        if soFar.all (· == n) then .ok (some n) else .error .conflictingContentLength)
    soFar

/-- How the fields frame the body, `none` if they do not. -/
def Headers.framing (h : Headers) : Except HeadError (Option BodyKind) :=
  if h.contains "transfer-encoding" then
    match h.transferCodings.getLast? with
    | some coding => .ok (if Text.eqIgnoreCase coding "chunked" then some .chunked else none)
    | none => .ok none
  else do
    let length ← (h.getAll "content-length").foldlM agreeLength none
    return length.map fun n => if n = 0 then .empty else .contentLength n

end HttpRelay.Http
