import HttpRelay.WebSocket.Error

/-!
# Close Payloads

The payload of a close frame is empty, or a code of two octets and a reason in UTF-8. A reason
that does not fit a control frame is cut at a character boundary.
-/

namespace HttpRelay.WebSocket

/-- A code and a reason. -/
structure Close where
  code : CloseCode
  reason : String
  deriving DecidableEq, Repr

namespace Close

/-- Most bytes of the payload of a control frame. -/
def maxControlPayload : Nat := 125

/-- Most bytes of a reason. -/
def maxReason : Nat := maxControlPayload - 2

/-- As many characters from the front as fit into `budget` bytes. -/
def fitting : (budget : Nat) → List Char → List Char
  | _, [] => []
  | budget, c :: cs =>
    if c.utf8Size ≤ budget then c :: fitting (budget - c.utf8Size) cs else []

/-- The longest beginning of a reason that a close frame can carry. -/
def cutReason (reason : String) : String := String.ofList (fitting maxReason reason.toList)

/-- The payload that carries a code and a reason. The code for "no code" gives the empty
payload. -/
def payload (code : CloseCode) (reason : String) : Except Error Bytes :=
  if code = .none then .ok []
  else if code.isSendable then
    .ok (Word.be 2 code.toCode.toNat ++ Bytes.ofText (cutReason reason))
  else .error (.violation .internalError s!"close code {code.display} cannot be sent")

/-- The code and reason in a payload, `none` for the empty payload. -/
def ofPayload : Bytes → Except Error (Option Close)
  | [] => .ok none
  | [_] => .error (.peer "close payload of one byte")
  | hi :: lo :: rest =>
    let code := CloseCode.ofCode (UInt16.ofNat (Word.ofBe [hi, lo]))
    if code.isSendable then
      match Text.Utf8.decode? rest with
      | some reason => .ok (some ⟨code, reason⟩)
      | none => .error (.violation .dataFormat "close reason is not valid UTF-8")
    else .error (.peer s!"invalid close code {code.display}")

end Close

end HttpRelay.WebSocket
