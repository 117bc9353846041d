import HttpRelay.Text.Blank

/-!
# Tokens

Comparison without regard to ASCII case, and the comma-separated lists that header values hold.
-/

namespace HttpRelay.Text

/-- Lower-case the ASCII letters of a text. -/
def asciiLower (s : String) : String :=
  String.ofList (s.toList.map Char.toLower)

/-- Equality up to the case of ASCII letters. -/
def eqIgnoreCase (a b : String) : Bool :=
  asciiLower a == asciiLower b

/-- The parts of a text between the occurrences of a separator. There is at least one. -/
def splitAtChar (sep : Char) (s : String) : List String :=
  (s.toList.splitOn sep).map String.ofList

/-- The elements of a comma-separated list, trimmed, empty ones included. -/
def listElements (value : String) : List String :=
  (splitAtChar ',' value).map trim

/-- Whether a comma-separated list holds a token, up to ASCII case. -/
def listHasToken (value token : String) : Bool :=
  (listElements value).any (eqIgnoreCase · token)

end HttpRelay.Text
