import HttpRelay.Text.Blank
import HttpRelay.Text.Number
import HttpRelay.Text.Scan

/-!
# Texts in Quotes

The four ways to write a text: between quotation marks with escapes, between apostrophes as it
is, and either of them over several lines between three marks.
-/

namespace HttpRelay.Toml

open Text (Scan)

/-- Take a line end. -/
def lineEnd : Scan Unit := Scan.word ['\n'] <|> Scan.word ['\r', '\n']

/-- Whether a character may stand in a text or comment as it is. -/
def isPlain (c : Char) : Bool := c == '\t' || (' ' ≤ c && c ≠ '\x7f')

namespace Quoted

/-- The character of a given code, unless it is none. -/
def ofCode? (code : Nat) : Option Char :=
  if code.isValidChar then some (Char.ofNat code) else none

/-- Take the code of a character in hexadecimal. -/
def code (length : Nat) : Scan Char := do
  ofCode? (Text.ofDigits 16 ((← Scan.exactly length Text.isHexDigit).filterMap Text.hexValue?))

/-- Take an escaped character. -/
def escape : Scan Char := do
  Scan.char '\\'
  match ← Scan.next with
  | 'b' => return '\x08'
  | 't' => return '\t'
  | 'n' => return '\n'
  | 'f' => return '\x0c'
  | 'r' => return '\r'
  | '"' => return '"'
  | '\\' => return '\\'
  | 'u' => code 4
  | 'U' => code 8
  | _ => failure

/-- Take a character that stands for itself between given marks. -/
def plain (mark : Char) : Scan Char :=
  Scan.one fun c => isPlain c && c ≠ mark && (mark ≠ '"' || c ≠ '\\')

/-- Take a character between given marks. Only quotation marks have escapes. -/
def character (mark : Char) : Scan Char :=
  plain mark <|> if mark = '"' then escape else failure

/-- Take a text on one line. -/
def line (mark : Char) : Scan String := do
  Scan.char mark
  let cs ← Scan.many (character mark)
  Scan.char mark
  return String.ofList cs

/-- Take an escaped line end, with all blank space behind it. -/
def continuation : Scan (List Char) := do
  Scan.char '\\'
  let _ ← Scan.takeWhile Text.isSpaceOrTab
  lineEnd
  let _ ← Scan.many ((do let _ ← Scan.one Text.isSpaceOrTab) <|> lineEnd)
  return []

/-- Take one or two marks that do not end the text. -/
def marks (mark : Char) : Scan (List Char) := do
  let run ← Scan.takeWhile (· == mark)
  if run.length = 1 || run.length = 2 then return run else failure

/-- Take a piece of a text of several lines. -/
def piece (mark : Char) : Scan (List Char) :=
  (do return [← plain mark])
    <|> (if mark = '"' then continuation <|> (do return [← escape]) else failure)
    <|> (lineEnd *> pure ['\n'])
    <|> marks mark

/-- Take a text of several lines. A line end right behind the opening does not count, and the
text may end in up to two marks. -/
def lines (mark : Char) : Scan String := do
  Scan.word [mark, mark, mark]
  let _ ← optional lineEnd
  let pieces ← Scan.many (piece mark)
  let run := ((← get).takeWhile (· == mark)).take 5
  Scan.word run
  if run.length < 3 then failure
  return String.ofList (pieces.flatten ++ run.drop 3)

/-- Take a text. -/
def text : Scan String := lines '"' <|> line '"' <|> lines '\'' <|> line '\''

end Quoted

end HttpRelay.Toml
