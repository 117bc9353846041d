import HttpRelay.Http.HeadError
import HttpRelay.Http.Headers
import HttpRelay.Text.Utf8

/-!
# Syntax of Heads

The parts that request and response heads are made of (RFC 9112, sections 2 to 5). A scan takes
bytes off the front of its input; it is starved when the input ends before the part does.
-/

namespace HttpRelay.Http

/-- A scan of the front of a byte string. -/
abbrev Scan (α : Type) := StateT Bytes (Except (Halt SyntaxError)) α

namespace Scan

/-- Most fields of a head. -/
def maxFields : Nat := 100

/-- Whether a byte may stand in a method or field name. -/
def isTokenByte (b : UInt8) : Bool :=
  (0x30 ≤ b && b ≤ 0x39) || (0x41 ≤ b && b ≤ 0x5A) || (0x61 ≤ b && b ≤ 0x7A)
    || (Bytes.ofText "!#$%&'*+-.^_" ++ [0x60] ++ Bytes.ofText "|~").contains b

/-- Whether a byte may stand in a request target. -/
def isTargetByte (b : UInt8) : Bool := (0x21 ≤ b && b ≤ 0x7E) || 0x80 ≤ b

/-- Whether a byte may stand in a field value or reason. -/
def isTextByte (b : UInt8) : Bool := b == 0x09 || (0x20 ≤ b && b ≤ 0x7E) || 0x80 ≤ b

/-- Whether a byte is a space or a tab. -/
def isSpaceByte (b : UInt8) : Bool := b == 0x20 || b == 0x09

/-- A scan that fails. -/
def fail {α : Type} (error : SyntaxError) : Scan α := throw (.failed error)

/-- Take the next byte. -/
def next : Scan UInt8 := do
  match ← get with
  | [] => throw .starved
  | b :: rest => set rest; return b

/-- Take a given byte, or fail. -/
def expect (byte : UInt8) (error : SyntaxError) : Scan Unit := do
  if (← next) ≠ byte then fail error

/-- Take bytes of a class, as many as there are. -/
def takeWhile (p : UInt8 → Bool) : Scan Bytes := do
  let (taken, rest) := (← get).span p
  set rest
  return taken

/-- Take a line end, a line feed with or without a carriage return before it. -/
def lineEnd (error : SyntaxError) : Scan Unit := do
  let b ← next
  if b = Bytes.cr then expect Bytes.lf error
  else if b ≠ Bytes.lf then fail error

/-- Remove the empty lines at the front. -/
def dropEmptyLines : Bytes → Except (Halt SyntaxError) Bytes
  | 13 :: 10 :: rest => dropEmptyLines rest
  | [13] => .error .starved
  | 13 :: _ => .error (.failed .newLine)
  | 10 :: rest => dropEmptyLines rest
  | [] => .error .starved
  | rest => .ok rest

/-- Take the empty lines in front of a head. -/
def emptyLines : Scan Unit := do
  set (← dropEmptyLines (← get))

/-- The text that ASCII bytes spell. -/
def asciiText (bytes : Bytes) : String :=
  String.ofList (bytes.map fun b => Char.ofNat b.toNat)

/-- Take the method of a request and the space behind it. -/
def method : Scan String := do
  let token ← takeWhile isTokenByte
  let b ← next
  if token.isEmpty || b ≠ 0x20 then fail .token
  return asciiText token

/-- Take the target of a request and the space behind it. -/
def target : Scan String := do
  let target ← takeWhile isTargetByte
  let b ← next
  if b ≠ 0x20 || target.isEmpty then fail .token
  match Text.Utf8.decode? target with
  | some text => return text
  | none => fail .token

/-- What a version starts with. -/
def versionStem : Bytes := Bytes.ofText "HTTP/1."

/-- Take a version. The result is its minor number. -/
def version : Scan Nat := do
  let input ← get
  let front := input.take 8
  if front.length = 8 then
    set (input.drop 8)
    if front = versionStem ++ Bytes.ofText "0" then return 0
    else if front = versionStem ++ Bytes.ofText "1" then return 1
    else fail .version
  else if front.isPrefixOf versionStem then throw .starved
  else fail .version

/-- Take a decimal digit. -/
def digit : Scan Nat := do
  let b ← next
  if 0x30 ≤ b && b ≤ 0x39 then return b.toNat - 0x30 else fail .status

/-- Take a status of three digits. -/
def status : Scan Nat := do
  return ((← digit) * 10 + (← digit)) * 10 + (← digit)

/-- Take a reason and the line end behind it. A reason outside ASCII counts as empty. -/
def reason : Scan String := do
  let text ← takeWhile isTextByte
  lineEnd .status
  return if text.all (· < 0x80) then asciiText text else ""

/-- Take the rest of a status line: a space and a reason, or nothing. -/
def statusLineEnd : Scan String := do
  match ← get with
  | 0x20 :: rest => set rest; reason
  | _ => lineEnd .status; return ""

/-- Take one field and its line end. -/
def field : Scan Field := do
  let name ← takeWhile isTokenByte
  if name.isEmpty then fail .headerName
  expect 0x3A .headerName
  let _ ← takeWhile isSpaceByte
  let value ← takeWhile isTextByte
  lineEnd .headerValue
  let trimmed := (value.reverse.dropWhile isSpaceByte).reverse
  return ⟨asciiText name, Text.Utf8.decodeLossy trimmed⟩

/-- Take the empty line behind the fields, if it comes next. -/
def headEnd : Scan Bool := do
  match ← get with
  | [] => throw .starved
  | 13 :: rest => set rest; expect Bytes.lf .newLine; return true
  | 10 :: rest => set rest; return true
  | _ => return false

/-- Take at most `budget` fields and the empty line behind them. -/
def fieldsWithin : (budget : Nat) → Scan (List Field)
  | 0 => do
    if ← headEnd then return []
    let _ ← field
    fail .tooManyHeaders
  | budget + 1 => do
    if ← headEnd then return []
    let first ← field
    return first :: (← fieldsWithin budget)

/-- Take the fields of a head and the empty line behind them. -/
def headers : Scan Headers := do
  return ⟨← fieldsWithin maxFields⟩

/-- The outcome of a scan as a head of some kind. -/
def toHead {α : Type} (kind : MessageKind) (scan : Scan α) (raw : Bytes) :
    Except HeadError α :=
  match scan.run raw with
  | .ok (head, _) => .ok head
  | .error .starved => .error (.incomplete kind)
  | .error (.failed error) => .error (.invalid kind error)

end Scan

end HttpRelay.Http
