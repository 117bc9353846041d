import HttpRelay.Bytes.Basic

/-!
# Base64

The standard alphabet with padding.
-/

namespace HttpRelay.Digest.Base64

/-- The character that stands for a six-bit value. -/
def digit (value : Nat) : Char :=
  if value < 26 then Char.ofNat ('A'.toNat + value)
  else if value < 52 then Char.ofNat ('a'.toNat + (value - 26))
  else if value < 62 then Char.ofNat ('0'.toNat + (value - 52))
  else if value = 62 then '+' else '/'

/-- The characters of a byte string, four for every three octets begun. -/
def encodeList : Bytes → List Char
  | [] => []
  | [a] =>
    let n := a.toNat * 16
    [digit (n / 64), digit (n % 64), '=', '=']
  | [a, b] =>
    let n := (a.toNat * 256 + b.toNat) * 4
    [digit (n / 4096), digit (n / 64 % 64), digit (n % 64), '=']
  | a :: b :: c :: rest =>
    let n := (a.toNat * 256 + b.toNat) * 256 + c.toNat
    digit (n / 262144) :: digit (n / 4096 % 64) :: digit (n / 64 % 64) :: digit (n % 64)
      :: encodeList rest

/-- The text that stands for a byte string. -/
def encode (bytes : Bytes) : String := String.ofList (encodeList bytes)

end HttpRelay.Digest.Base64
