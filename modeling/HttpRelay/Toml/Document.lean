import HttpRelay.Toml.Quoted
import HttpRelay.Toml.Scalar
import HttpRelay.Toml.Table

/-!
# Documents

The grammar of TOML 1.0 from values up to whole documents.
-/

namespace HttpRelay.Toml

open Text (Scan)

/-- No key has this many parts, and no value nests this deep. -/
def depthLimit : Nat := 80

namespace Document

/-- Take blank space within a line. -/
def blank : Scan Unit := do
  let _ ← Scan.takeWhile Text.isSpaceOrTab

/-- Take a comment up to the end of its line. -/
def comment : Scan Unit := do
  Scan.char '#'
  let _ ← Scan.takeWhile isPlain

/-- Take blank space, line ends and comments. -/
def filler : Scan Unit := do
  let _ ← Scan.many ((do let _ ← Scan.one Text.isSpaceOrTab) <|> lineEnd <|> comment)

/-- Take a scan with blank space on both sides. -/
def spaced {α : Type} (scan : Scan α) : Scan α := do
  blank
  let a ← scan
  blank
  return a

/-- Whether a character may stand in a key without quotes. -/
def isKeyCharacter (c : Char) : Bool := c.isAlphanum || c == '_' || c == '-'

/-- Take one part of a key. -/
def keyPart : Scan String :=
  Quoted.line '"' <|> Quoted.line '\'' <|> do
    let first ← Scan.one isKeyCharacter
    return String.ofList (first :: (← Scan.takeWhile isKeyCharacter))

/-- Take a dotted key: the parts in front, and the last one. -/
def key : Scan (List String × String) := do
  let parts ← Scan.separated (spaced keyPart) (Scan.char '.')
  match parts.reverse with
  | last :: front => if parts.length < depthLimit then return (front.reverse, last) else failure
  | [] => failure

/-- Take a key with its value. -/
def entry (value : Scan Value) : Scan Entry := do
  let (path, key) ← key
  Scan.char '='
  blank
  return { path, key, value := ← value }

/-- Take an array of the given items. -/
def array (value : Scan Value) : Scan Value := do
  let item := do
    filler
    let v ← value
    filler
    return v
  Scan.char '['
  let items ← optional (Scan.separated item (Scan.char ','))
  if items.isSome then
    let _ ← optional (Scan.char ',')
  filler
  Scan.char ']'
  return .array (items.getD [])

/-- Take a table on one line, of the given values. -/
def inlineTable (value : Scan Value) : Scan Value := do
  let item := do
    let e ← entry value
    blank
    return e
  Scan.char '\x7b'
  let entries ← optional (Scan.separated item (Scan.char ','))
  blank
  Scan.char '\x7d'
  match Table.insertAll {} (entries.getD []) with
  | some t => return t.toValue
  | none => failure

/-- Take a value that nests at most `depth` levels. -/
def value : (depth : Nat) → Scan Value
  | 0 => (do return .text (← Quoted.text)) <|> Scalar.boolean <|> Scalar.number
  | depth + 1 =>
    (do return .text (← Quoted.text)) <|> Scalar.boolean <|> Scalar.number
      <|> array (value depth) <|> inlineTable (value depth)

/-- Take the rest of a line, which holds nothing but a comment. -/
def lineRest : Scan Unit := do
  blank
  let _ ← optional comment
  match ← Scan.peek? with
  | some _ => lineEnd
  | none => return

/-- Take lines without content. -/
def emptyLines : Scan Unit := do
  let _ ← Scan.many do
    match ← Scan.peek? with
    | some _ => lineRest
    | none => failure
  blank

/-- Take a line with a key and its value. -/
def entryLine : Scan Entry := do
  let e ← entry (value (depthLimit - 1))
  lineRest
  emptyLines
  return e

/-- Take a line with a header. -/
def headerLine : Scan Header := do
  Scan.char '['
  let isItem := (← optional (Scan.char '[')).isSome
  let (path, key) ← key
  Scan.char ']'
  if isItem then Scan.char ']'
  lineRest
  emptyLines
  return { path, key, isItem }

/-- Take a header and the lines below it. -/
def headed : Scan Section := do
  return { header := ← headerLine, entries := ← Scan.many entryLine }

/-- Take a document. A byte order mark in front does not count. -/
def document : Scan Table := do
  let _ ← optional (Scan.char '\ufeff')
  emptyLines
  let entries ← Scan.many entryLine
  let sections ← Scan.many headed
  match Table.insertAll {} entries with
  | some root => sections.foldlM (fun document part => document.addSection part) root
  | none => failure

/-- The table that a text spells. -/
def parse? (text : String) : Option Value :=
  (Scan.whole document text).map Table.toValue

end Document

end HttpRelay.Toml
