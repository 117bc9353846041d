import HttpRelay.Text.Number
import HttpRelay.Text.Utf8

/-!
# Reading JSON

A text is read from front to back, for one integer field of an object. The first thing wrong
with it decides: either the text is malformed, or it is no such object.
-/

namespace HttpRelay.Json

/-- What is wrong with a text. -/
inductive Fault where
  /-- It is no JSON. -/
  | malformed
  /-- It does not hold what is asked for. -/
  | mismatch
  deriving DecidableEq, Repr

/-- A read of the front of a text. -/
abbrev Read (α : Type) := StateT Bytes (Except Fault) α

namespace Read

variable {α : Type}

/-- The next byte as a character, which stays. -/
def peek? : Read (Option Char) := return (← get).head?.map fun b => Char.ofNat b.toNat

/-- Take the next byte as a character. -/
def next : Read Char := do
  match ← get with
  | b :: rest => set rest; return Char.ofNat b.toNat
  | [] => throw .malformed

/-- Take blank space, and look at what comes next. -/
def skipBlank : Read (Option Char) := do
  modify (·.dropWhile fun b => [0x20, 0x0A, 0x09, 0x0D].contains b)
  peek?

/-- Take a given character. -/
def char (c : Char) : Read Unit := do
  if (← next) ≠ c then throw .malformed

/-- Take digits, as many as there are. -/
def digits : Read (List Nat) := do
  let (taken, rest) := (← get).span fun b => 0x30 ≤ b && b ≤ 0x39
  set rest
  return taken.map fun b => b.toNat - 0x30

/-- Take one or more digits. -/
def someDigits : Read (List Nat) := do
  let ds ← digits
  if ds.isEmpty then throw .malformed else return ds

/-- Take the digits of an integer, without leading zeros. -/
def wholeDigits : Read (List Nat) := do
  let ds ← someDigits
  if ds.head? = some 0 && 1 < ds.length then throw .malformed else return ds

/-- Take the fraction of a number, if there is one. -/
def fraction : Read (Option (List Nat)) := do
  if (← peek?) = some '.' then
    char '.'
    return some (← someDigits)
  else return none

/-- Take the exponent of a number, if there is one. -/
def exponent : Read (Option Int) := do
  match ← peek? with
  | some 'e' | some 'E' =>
    let _ ← next
    let sign ← peek?
    if sign = some '+' || sign = some '-' then
      let _ ← next
    let n : Int := Text.ofDigits 10 (← someDigits)
    return some (if sign = some '-' then -n else n)
  | _ => return none

/-- The parts of a number. -/
structure Numeral where
  negative : Bool
  whole : List Nat
  fraction : Option (List Nat)
  exponent : Option Int

/-- Take a number. -/
def numeral : Read Numeral := do
  let negative := (← peek?) = some '-'
  if negative then char '-'
  return { negative, whole := ← wholeDigits, fraction := ← fraction, exponent := ← exponent }

/-- Whether a number is out of the range of double precision. -/
def Numeral.isHuge (n : Numeral) : Bool :=
  let behind := n.fraction.getD []
  Text.roundsToInfinity (n.whole ++ behind) (n.exponent.getD 0 - behind.length)

/-- The integer that a number is. A zero with a sign is none. -/
def Numeral.integer? (n : Numeral) : Option Int :=
  let value : Int := Text.ofDigits 10 n.whole
  if n.fraction.isSome || n.exponent.isSome || (n.negative && value = 0) then none
  else some (if n.negative then -value else value)

/-- Take the four digits of an escaped code unit. -/
def codeUnit : Read Nat := do
  let a ← next
  let b ← next
  let c ← next
  let d ← next
  match Text.hexadecimal? [a, b, c, d] with
  | some n => return n
  | none => throw .malformed

/-- Take an escaped character behind its `u`. Those beyond the first plane are written as two
code units. -/
def escapedCode : Read Char := do
  let hi ← codeUnit
  let code ←
    if 0xD800 ≤ hi && hi < 0xDC00 then do
      char '\\'
      char 'u'
      let lo ← codeUnit
      if lo < 0xDC00 || 0xE000 ≤ lo then throw .malformed
      pure (0x10000 + (hi - 0xD800) * 0x400 + (lo - 0xDC00))
    else pure hi
  if code.isValidChar then return Char.ofNat code else throw .malformed

/-- The character behind a backslash, other than `u`. -/
def escaped? : Char → Option Char
  | '"' => some '"'
  | '\\' => some '\\'
  | '/' => some '/'
  | 'b' => some '\x08'
  | 'f' => some '\x0c'
  | 'n' => some '\n'
  | 'r' => some '\r'
  | 't' => some '\t'
  | _ => none

/-- Take the rest of a text of at most `limit` pieces, with its closing quotation mark. -/
def textWithin (reversed : List Bytes) : (limit : Nat) → Read Bytes
  | 0 => throw .malformed
  | limit + 1 => do
    let c ← next
    if c = '"' then return reversed.reverse.flatten
    else if c = '\\' then
      let e ← next
      let value ← if e = 'u' then escapedCode else
        match escaped? e with
        | some value => pure value
        | none => throw .malformed
      textWithin (Bytes.ofText (String.singleton value) :: reversed) limit
    else if c < ' ' then throw .malformed
    else textWithin ([UInt8.ofNat c.toNat] :: reversed) limit

/-- Take a text with its quotation marks. -/
def text : Read String := do
  char '"'
  match Text.Utf8.decode? (← textWithin [] (← get).length) with
  | some s => return s
  | none => throw .malformed

/-- Pass over the rest of a text of at most `limit` pieces, whatever its bytes. -/
def passTextWithin : (limit : Nat) → Read Unit
  | 0 => throw .malformed
  | limit + 1 => do
    let c ← next
    if c = '"' then return
    else if c = '\\' then
      let e ← next
      if e = 'u' then
        let _ ← codeUnit
      else if (escaped? e).isNone then throw .malformed
      passTextWithin limit
    else if c < ' ' then throw .malformed
    else passTextWithin limit

/-- Pass over a text. -/
def passText : Read Unit := do
  char '"'
  passTextWithin (← get).length

/-- Take a literal. -/
def literal (s : String) : Read Unit := s.toList.forM char

/-- Take at most `limit` more items up to a closing character, with commas between them. -/
def itemsWithin (item : Read Unit) (close : Char) (isFirst : Bool) : (limit : Nat) → Read Unit
  | 0 => throw .malformed
  | limit + 1 => do
    let c ← skipBlank
    if c = some close then
      let _ ← next
    else
      if !isFirst then char ','
      let c ← skipBlank
      if c = some close then throw .malformed
      item
      itemsWithin item close false limit

/-- Pass over a value that nests at most `depth` levels. -/
def passValue : (depth : Nat) → Read Unit
  | 0 => throw .malformed
  | depth + 1 => do
    match ← skipBlank with
    | some '"' => passText
    | some 'n' => literal "null"
    | some 't' => literal "true"
    | some 'f' => literal "false"
    | some '[' =>
      char '['
      itemsWithin (passValue depth) ']' true (← get).length
    | some '\x7b' =>
      char '\x7b'
      let member := do
        let _ ← skipBlank
        passText
        let _ ← skipBlank
        char ':'
        passValue depth
      itemsWithin member '\x7d' true (← get).length
    | _ =>
      let _ ← numeral

/-- Take a value that is not of the kind asked for. Lists and objects are not looked into. -/
def misfit : Read α := do
  match ← skipBlank with
  | some '"' =>
    let _ ← text
    throw .mismatch
  | some 'n' => literal "null"; throw .mismatch
  | some 't' => literal "true"; throw .mismatch
  | some 'f' => literal "false"; throw .mismatch
  | some '[' | some '\x7b' => throw .mismatch
  | _ =>
    if (← numeral).isHuge then throw .malformed else throw .mismatch

/-- Take an integer between two bounds. -/
def integer (least most : Int) : Read Int := do
  match ← skipBlank with
  | some c =>
    if c = '-' || c.isDigit then
      let n ← numeral
      if n.isHuge then throw .malformed
      match n.integer? with
      | some value => if least ≤ value && value ≤ most then return value else throw .mismatch
      | none => throw .mismatch
    else misfit
  | none => throw .malformed

/-- Take at most `limit` more members of an object up to its end, of which one is asked for. -/
def membersWithin (name : String) (value : Read α) (found : Option α) (isFirst : Bool) :
    (limit : Nat) → Read α
  | 0 => throw .malformed
  | limit + 1 => do
    if (← skipBlank) = some '\x7d' then
      match found with
      | some a => char '\x7d'; return a
      | none => throw .mismatch
    else
      if !isFirst then char ','
      let _ ← skipBlank
      let key ← text
      if key = name && found.isSome then throw .mismatch
      let _ ← skipBlank
      char ':'
      if key = name then membersWithin name value (some (← value)) false limit
      else
        passValue (← get).length
        membersWithin name value found false limit

/-- Take an object of one field. A list of one item stands for it as well. -/
def object (name : String) (value : Read α) : Read α := do
  match ← skipBlank with
  | some '\x7b' =>
    char '\x7b'
    membersWithin name value none true ((← get).length + 1)
  | some '[' =>
    char '['
    if (← skipBlank) = some ']' then throw .mismatch
    let a ← value
    let _ ← skipBlank
    char ']'
    return a
  | _ => misfit

/-- The value of a read that takes a whole text. -/
def whole (read : Read α) (bytes : Bytes) : Except Fault α := do
  let (a, rest) ← read.run bytes
  let (c, _) ← skipBlank.run rest
  if c.isSome then throw .malformed else return a

end Read

end HttpRelay.Json
