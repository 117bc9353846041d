/-!
# White Space

The characters that count as blank space in a text, and trimming. Header values are trimmed of
all blank characters, chunk-size lines of spaces and tabs only.
-/

namespace HttpRelay.Text

/-- Whether a character has the White_Space property. -/
def isBlank (c : Char) : Bool :=
  let n := c.toNat
  (9 ≤ n && n ≤ 13) || n == 0x20 || n == 0x85 || n == 0xA0 || n == 0x1680
    || (0x2000 ≤ n && n ≤ 0x200A) || n == 0x2028 || n == 0x2029 || n == 0x202F || n == 0x205F
    || n == 0x3000

/-- Whether a character is a space or a tab. -/
def isSpaceOrTab (c : Char) : Bool := c == ' ' || c == '\t'

/-- Remove the characters of a class from both ends. -/
def trimList (p : Char → Bool) (cs : List Char) : List Char :=
  ((cs.dropWhile p).reverse.dropWhile p).reverse

/-- Remove the characters of a class from both ends of a text. -/
def trimOf (p : Char → Bool) (s : String) : String :=
  String.ofList (trimList p s.toList)

/-- Remove blank characters from both ends of a text. -/
def trim (s : String) : String := trimOf isBlank s

end HttpRelay.Text
