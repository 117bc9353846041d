import HttpRelay.Text.Number

/-!
# JSON Values

The values that the relay answers with, and their texts.
-/

namespace HttpRelay.Json

/-- A JSON value. Its numbers are integers. -/
inductive Value where
  | null
  | boolean (b : Bool)
  | number (n : Int)
  | text (s : String)
  | array (items : List Value)
  | object (fields : List (String × Value))

namespace Value

/-- One character of a JSON text. -/
def escape (c : Char) : List Char :=
  match c with
  | '"' => ['\\', '"']
  | '\\' => ['\\', '\\']
  | '\n' => ['\\', 'n']
  | '\r' => ['\\', 'r']
  | '\t' => ['\\', 't']
  | '\x08' => ['\\', 'b']
  | '\x0c' => ['\\', 'f']
  | c =>
    if c < ' ' then
      let digits := Text.hexDigits c.toNat
      ['\\', 'u'] ++ List.replicate (4 - digits.length) '0' ++ digits
    else [c]

/-- A text between quotation marks. -/
def quote (s : String) : String := String.ofList ('"' :: s.toList.flatMap escape ++ ['"'])

mutual

/-- The text of a value, without blank space. -/
def render : Value → String
  | null => "null"
  | boolean b => toString b
  | number n => toString n
  | text s => quote s
  | array items => "[" ++ ",".intercalate (renderItems items) ++ "]"
  | object fields => "\x7b" ++ ",".intercalate (renderFields fields) ++ "\x7d"

/-- The texts of values. -/
def renderItems : List Value → List String
  | [] => []
  | item :: items => render item :: renderItems items

/-- The texts of fields. -/
def renderFields : List (String × Value) → List String
  | [] => []
  | (name, value) :: fields => (quote name ++ ":" ++ render value) :: renderFields fields

end

/-- A count. -/
def count (n : Nat) : Value := number n

/-- A value that may be missing. -/
def orNull {α : Type} (f : α → Value) : Option α → Value
  | some a => f a
  | none => null

end Value

end HttpRelay.Json
