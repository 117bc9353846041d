import HttpRelay.Text.Scan
import HttpRelay.Text.Token

/-!
# Media Types

A media type is a type and a subtype with parameters behind them (RFC 9110, section 8.3.1). What
follows the last plus sign of a subtype is its suffix.
-/

namespace HttpRelay.Admin

open Text (Scan)

/-- A media type without its parameters, in lower case. -/
structure MediaType where
  type : String
  subtype : String
  suffix : Option String
  deriving DecidableEq, Repr

namespace MediaType

/-- Whether a character may stand in a token. -/
def isTokenCharacter (c : Char) : Bool :=
  c.isAlphanum || "!#$%&'*+-.^_|~".toList.contains c || c == '\x60'

/-- Whether a character may stand between quotation marks. -/
def isQuotable (c : Char) : Bool := c == '\t' || (' ' ≤ c && c ≠ '\x7f')

/-- Take one or more token characters. -/
def token : Scan (List Char) := do
  let first ← Scan.one isTokenCharacter
  return first :: (← Scan.takeWhile isTokenCharacter)

/-- Take the rest of a quoted value, which is not empty. -/
def quotedRest : Scan Unit := do
  let piece (p : Char → Bool) : Scan Unit :=
    (Scan.char '\\' *> (do let _ ← Scan.one isQuotable)) <|> do let _ ← Scan.one p
  piece isQuotable
  let _ ← Scan.many (piece fun c => isQuotable c && c ≠ '"')
  Scan.char '"'

/-- Take a parameter, with what separates it from the next one. -/
def parameter : Scan Unit := do
  let _ ← token
  Scan.char '='
  let ending := do
    match ← Scan.peek? with
    | some _ => Scan.char ';'
    | none => return
  match ← Scan.peek? with
  | some '"' =>
    Scan.char '"'
    quotedRest
    let _ ← Scan.takeWhile (· == ' ')
    ending
  | some _ =>
    let _ ← token
    ending
  | none => return

/-- Take the parameters behind a semicolon. -/
def parameters : Scan Unit := do
  let _ ← Scan.many ((do let _ ← Scan.one (· == ' ')) <|> parameter)

/-- Split a subtype at its last plus sign, unless that comes first. -/
def splitSuffix (cs : List Char) : List Char × Option (List Char) :=
  let suffix := (cs.reverse.takeWhile (· ≠ '+')).reverse
  let front := cs.take (cs.length - suffix.length - 1)
  if suffix.length < cs.length && !front.isEmpty then (front, some suffix) else (cs, none)

/-- Take a media type. -/
def scan : Scan MediaType := do
  let lower (cs : List Char) : String := Text.asciiLower (String.ofList cs)
  let type ← token
  Scan.char '/'
  let (subtype, suffix) := splitSuffix (← token)
  if (← Scan.peek?).isSome then
    Scan.char ';'
    parameters
  return { type := lower type, subtype := lower subtype, suffix := suffix.map lower }

/-- The media type that a text spells. -/
def parse? (text : String) : Option MediaType := Scan.whole scan text

/-- Whether a media type is one of JSON. -/
def isJson (m : MediaType) : Bool :=
  m.type == "application" && (m.subtype == "json" || m.suffix == some "json")

end MediaType

end HttpRelay.Admin
