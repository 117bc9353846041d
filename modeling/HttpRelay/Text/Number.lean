import HttpRelay.Text.Token

/-!
# Numbers in Texts

Decimal and hexadecimal numerals, their values, and how durations are shown.
-/

namespace HttpRelay.Text

/-- The value of a hexadecimal digit of either case. -/
def hexValue? (c : Char) : Option Nat :=
  if '0' ≤ c && c ≤ '9' then some (c.toNat - '0'.toNat)
  else if 'a' ≤ c && c ≤ 'f' then some (c.toNat - 'a'.toNat + 10)
  else if 'A' ≤ c && c ≤ 'F' then some (c.toNat - 'A'.toNat + 10)
  else none

/-- Whether a character is a hexadecimal digit. -/
def isHexDigit (c : Char) : Bool := (hexValue? c).isSome

/-- The value of a numeral in a base, most significant digit first. -/
def ofDigits (base : Nat) (digits : List Nat) : Nat :=
  digits.foldl (fun n d => n * base + d) 0

/-- The value of one or more decimal digits. -/
def decimal? (cs : List Char) : Option Nat :=
  if cs ≠ [] ∧ cs.all Char.isDigit then some (ofDigits 10 (cs.map fun c => c.toNat - '0'.toNat))
  else none

/-- The value of one or more hexadecimal digits. -/
def hexadecimal? (cs : List Char) : Option Nat :=
  if cs ≠ [] ∧ cs.all isHexDigit then some (ofDigits 16 (cs.filterMap hexValue?)) else none

/-- The value of an unsigned decimal numeral below `bound`. A leading plus sign is allowed. -/
def unsigned? (bound : Nat) (s : String) : Option Nat :=
  let digits := match s.toList with
    | '+' :: cs => cs
    | cs => cs
  (decimal? digits).filter (· < bound)

/-- Whether `digits · 10 ^ exponent` rounds to infinity in double precision. -/
def roundsToInfinity (digits : List Nat) (exponent : Int) : Bool :=
  let significant := digits.dropWhile (· == 0)
  let limit := 1 <<< 1024 - 1 <<< 970
  let magnitude := significant.length + exponent
  if significant.isEmpty || magnitude < 300 then false
  else if 320 < magnitude then true
  else
    let n := ofDigits 10 significant
    if 0 ≤ exponent then limit ≤ n * Nat.pow 10 exponent.toNat
    else limit * Nat.pow 10 (-exponent).toNat ≤ n

/-- The hexadecimal digits of a number, lower case, without leading zeros. -/
def hexDigits (n : Nat) : List Char := Nat.toDigits 16 n

/-- A number in lower-case hexadecimal. -/
def hex (n : Nat) : String := String.ofList (hexDigits n)

/-- A number in upper-case hexadecimal. -/
def hexUpper (n : Nat) : String := String.ofList ((hexDigits n).map Char.toUpper)

/-- A length of time in milliseconds, in seconds from one second on, with the fraction cut
after its last digit that is not zero. -/
def duration (ms : Nat) : String :=
  if ms < 1000 then
    if ms = 0 then "0ns" else s!"{ms}ms"
  else
    let fraction := (toString (1000 + ms % 1000)).toList.drop 1
    let shown := (fraction.reverse.dropWhile (· == '0')).reverse
    let seconds := toString (ms / 1000)
    if shown.isEmpty then seconds ++ "s" else seconds ++ "." ++ String.ofList shown ++ "s"

end HttpRelay.Text
