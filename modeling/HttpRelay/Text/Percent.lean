import HttpRelay.Text.Number
import HttpRelay.Text.Utf8

/-!
# Percent Encoding

A percent sign with two hexadecimal digits behind it stands for a byte (RFC 3986, section 2.1).
-/

namespace HttpRelay.Text.Percent

/-- The byte that two hexadecimal digits spell. -/
def byte? (hi lo : Char) : Option UInt8 := do
  return UInt8.ofNat ((← hexValue? hi) * 16 + (← hexValue? lo))

/-- The bytes that characters stand for, behind those that `reversed` holds last first. Percent
signs without digits stand for themselves. -/
def bytesFrom (reversed : Bytes) : List Char → Bytes
  | '%' :: hi :: lo :: cs =>
    match byte? hi lo with
    | some b => bytesFrom (b :: reversed) cs
    | none => bytesFrom ('%'.toUInt8 :: reversed) (hi :: lo :: cs)
  | c :: cs => bytesFrom ((Bytes.ofText (String.singleton c)).reverse ++ reversed) cs
  | [] => reversed.reverse

/-- The text that an encoded one stands for, unless its bytes are no text. -/
def decode? (s : String) : Option String := Utf8.decode? (bytesFrom [] s.toList)

end HttpRelay.Text.Percent
