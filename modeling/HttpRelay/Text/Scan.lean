/-!
# Scans

A scan takes a piece off the front of a text, or fails without a trace.
-/

namespace HttpRelay.Text

/-- A piece at the front of a text, with the text behind it. -/
abbrev Scan (α : Type) := StateT (List Char) Option α

namespace Scan

variable {α : Type}

/-- Take the next character. -/
def next : Scan Char := do
  match ← get with
  | c :: rest => set rest; return c
  | [] => failure

/-- The next character, which stays. -/
def peek? : Scan (Option Char) := return (← get).head?

/-- Take a character of a class. -/
def one (p : Char → Bool) : Scan Char := do
  let c ← next
  if p c then return c else failure

/-- Take a given character. -/
def char (c : Char) : Scan Unit := do
  let _ ← one (· == c)

/-- Take given characters. -/
def word (cs : List Char) : Scan Unit := do
  let rest ← get
  if cs.isPrefixOf rest then set (rest.drop cs.length) else failure

/-- Take characters of a class, as many as there are. -/
def takeWhile (p : Char → Bool) : Scan (List Char) := do
  let (taken, rest) := (← get).span p
  set rest
  return taken

/-- Take exactly `n` characters, all of a class. -/
def exactly (n : Nat) (p : Char → Bool) : Scan (List Char) := do
  let rest ← get
  let taken := rest.take n
  if taken.length = n && taken.all p then
    set (rest.drop n)
    return taken
  else failure

/-- Take at most `limit` pieces behind those that `reversed` holds last first. -/
def manyWithin (scan : Scan α) (reversed : List α) : (limit : Nat) → Scan (List α)
  | 0 => return reversed.reverse
  | limit + 1 => do
    match ← optional scan with
    | some a => manyWithin scan (a :: reversed) limit
    | none => return reversed.reverse

/-- Take as many pieces as there are, each of at least one character. -/
def many (scan : Scan α) : Scan (List α) := do
  manyWithin scan [] (← get).length

/-- Take one or more pieces with separators between them. -/
def separated (scan : Scan α) (separator : Scan Unit) : Scan (List α) := do
  let first ← scan
  return first :: (← many (separator *> scan))

/-- The characters that a scan takes. -/
def captured (scan : Scan Unit) : Scan (List Char) := do
  let before ← get
  scan
  return before.take (before.length - (← get).length)

/-- The value of a scan that takes a whole text. -/
def whole (scan : Scan α) (text : String) : Option α :=
  match scan.run text.toList with
  | some (a, []) => some a
  | _ => none

end Scan

end HttpRelay.Text
