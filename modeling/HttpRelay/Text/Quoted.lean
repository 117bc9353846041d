import HttpRelay.Text.Number
import HttpRelay.Text.Shapeless

/-!
# Quoted Texts

How a text from outside is shown inside a message: between double quotes, on one line, with
everything that has no shape of its own written as an escape.
-/

namespace HttpRelay.Text

/-- One character of a quoted text. -/
def quoteChar (c : Char) : List Char :=
  match c with
  | '\x00' => ['\\', '0']
  | '\t' => ['\\', 't']
  | '\n' => ['\\', 'n']
  | '\r' => ['\\', 'r']
  | '"' => ['\\', '"']
  | '\\' => ['\\', '\\']
  | c => if isShapeless c then ['\\', 'u', '\x7b'] ++ hexDigits c.toNat ++ ['\x7d'] else [c]

/-- A file path between double quotes. Apostrophes are escaped as well. -/
def quotedPath (path : String) : String :=
  let shown (c : Char) : List Char := if c = '\'' then ['\\', '\''] else quoteChar c
  String.ofList ('"' :: path.toList.flatMap shown ++ ['"'])

/-- A text between double quotes. -/
def quoted (s : String) : String :=
  String.ofList ('"' :: s.toList.flatMap quoteChar ++ ['"'])

end HttpRelay.Text
