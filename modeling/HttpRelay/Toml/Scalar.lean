import HttpRelay.Text.Blank
import HttpRelay.Text.Number
import HttpRelay.Text.Scan
import HttpRelay.Toml.Value

/-!
# Numbers and Points in Time

The scalars of TOML other than texts. Digits may have single underscores between them.
-/

namespace HttpRelay.Toml

open Text (Scan)

namespace Scalar

/-- Take one or more digits of a class. -/
def digits (p : Char → Bool) : Scan (List Char) := do
  let first ← Scan.one p
  return first :: (← Scan.many (optional (Scan.char '_') *> Scan.one p))

/-- Take decimal digits without a leading zero. -/
def plainDigits : Scan (List Char) := do
  let ds ← digits Char.isDigit
  if ds.length = 1 || ds.head? ≠ some '0' then return ds else failure

/-- Take a sign. The result tells whether it is a minus. -/
def sign : Scan Bool :=
  (Scan.char '-' *> pure true) <|> (Scan.char '+' *> pure false) <|> pure false

/-- Take an integer of base 16, 8 or 2. -/
def basedInteger : Scan Int := do
  Scan.char '0'
  let (base, inBase) : Nat × (Char → Bool) ← match ← Scan.next with
    | 'x' => pure (16, Text.isHexDigit)
    | 'o' => pure (8, fun c => '0' ≤ c && c ≤ '7')
    | 'b' => pure (2, fun c => c == '0' || c == '1')
    | _ => failure
  return Text.ofDigits base ((← digits inBase).filterMap Text.hexValue?)

/-- Take a decimal integer. -/
def decimalInteger : Scan Int := do
  let negative ← sign
  let n := Text.ofDigits 10 ((← plainDigits).filterMap Text.hexValue?)
  return if negative then -n else n

/-- Take an integer of 64 bits. -/
def integer : Scan Int := do
  let n ← basedInteger <|> decimalInteger
  if Int64.minValue.toInt ≤ n && n ≤ Int64.maxValue.toInt then return n else failure

/-- Take the fraction of a number with its point. -/
def fraction : Scan (List Char) := Scan.char '.' *> digits Char.isDigit

/-- Take the exponent of a number with its mark. -/
def exponent : Scan Int := do
  let _ ← Scan.one fun c => c == 'e' || c == 'E'
  let negative ← sign
  let n := Text.ofDigits 10 ((← digits Char.isDigit).filterMap Text.hexValue?)
  return if negative then -n else n

/-- Take a number with a fraction, an exponent or both. -/
def decimalFloat : Scan Unit := do
  let negative ← sign
  let whole ← plainDigits
  let (behind, power) ←
    (do return (← fraction, (← optional exponent).getD 0)) <|> (do return ([], ← exponent))
  let all := (whole ++ behind).filterMap Text.hexValue?
  if !negative && Text.roundsToInfinity all (power - behind.length) then failure

/-- Take an infinity or a value that is no number. -/
def specialFloat : Scan Unit := do
  let _ ← sign
  Scan.word ['i', 'n', 'f'] <|> Scan.word ['n', 'a', 'n']

/-- Take a number that is not an integer. -/
def float : Scan Unit := decimalFloat <|> specialFloat

/-- Take a number of `n` digits within bounds. -/
def counted (n least most : Nat) : Scan Nat := do
  let value := Text.ofDigits 10 ((← Scan.exactly n Char.isDigit).filterMap Text.hexValue?)
  if least ≤ value && value ≤ most then return value else failure

/-- Number of days of a month. -/
def daysIn (year month : Nat) : Nat :=
  if month = 2 then
    if year % 4 = 0 && (year % 100 ≠ 0 || year % 400 = 0) then 29 else 28
  else if [4, 6, 9, 11].contains month then 30
  else 31

/-- Take a date. -/
def date : Scan Unit := do
  let year ← counted 4 0 9999
  Scan.char '-'
  let month ← counted 2 1 12
  Scan.char '-'
  let _ ← counted 2 1 (daysIn year month)

/-- Take a time of day. Its seconds may be those of a leap second. -/
def time : Scan Unit := do
  let _ ← counted 2 0 23
  Scan.char ':'
  let _ ← counted 2 0 59
  Scan.char ':'
  let _ ← counted 2 0 60
  let _ ← optional do
    Scan.char '.'
    let _ ← Scan.one Char.isDigit
    Scan.takeWhile Char.isDigit

/-- Take an offset from universal time. -/
def offset : Scan Unit :=
  (do let _ ← Scan.one fun c => c == 'Z' || c == 'z') <|> do
    let _ ← Scan.one fun c => c == '+' || c == '-'
    let _ ← counted 2 0 23
    Scan.char ':'
    let _ ← counted 2 0 59

/-- Take a date, a time of day, or both with or without an offset. -/
def dateTime : Scan Unit :=
  (do
    date
    let _ ← optional do
      let _ ← Scan.one fun c => c == 'T' || c == 't' || c == ' '
      time
      optional offset) <|> time

/-- Take a number or a point in time. -/
def number : Scan Value :=
  (do return .dateTime (String.ofList (← Scan.captured dateTime)))
    <|> (do return .float (String.ofList (← Scan.captured float)))
    <|> (do return .integer (← integer))

/-- Take a boolean. -/
def boolean : Scan Value :=
  (Scan.word ['t', 'r', 'u', 'e'] *> pure (.boolean true))
    <|> (Scan.word ['f', 'a', 'l', 's', 'e'] *> pure (.boolean false))

end Scalar

end HttpRelay.Toml
