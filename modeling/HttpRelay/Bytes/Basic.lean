/-!
# Byte Strings

Everything that crosses a connection is a `Bytes`, a list of octets in arrival order. Texts
enter the wire through `Bytes.ofText`, their UTF-8 encoding.
-/

namespace HttpRelay

/-- A byte string in wire order. -/
abbrev Bytes := List UInt8

namespace Bytes

/-- The UTF-8 encoding of a text. -/
def ofText (text : String) : Bytes :=
  text.toList.flatMap String.utf8EncodeChar

/-- Line feed, the last byte of every line. -/
def lf : UInt8 := 10

/-- Carriage return. -/
def cr : UInt8 := 13

/-- The line terminator the relay writes. -/
def crlf : Bytes := [cr, lf]

/-- Cut a byte string into its first line, terminator included, and the rest. Without a line
feed the line is everything there is. -/
def splitLine (bytes : Bytes) : Bytes × Bytes :=
  match bytes.span (· != lf) with
  | (line, []) => (line, [])
  | (line, last :: rest) => (line ++ [last], rest)

/-- Remove one line terminator, a line feed with or without a carriage return before it. -/
def chomp (line : Bytes) : Bytes :=
  if line.getLast? = some lf then
    let body := line.dropLast
    if body.getLast? = some cr then body.dropLast else body
  else line

end Bytes

end HttpRelay
