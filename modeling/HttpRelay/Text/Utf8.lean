import HttpRelay.Bytes.Basic

/-!
# UTF-8

Decoding of byte strings into texts. `decode?` accepts well-formed input only; `decodeLossy`
puts one replacement character where a maximal ill-formed part stood.
-/

namespace HttpRelay.Text.Utf8

/-- What the next bytes are: a character, or an ill-formed part, with the bytes behind it. -/
inductive Piece where
  | character (c : Char) (rest : Bytes)
  | illFormed (rest : Bytes)

/-- Whether a byte continues a character. -/
def isContinuation (b : UInt8) : Bool := 0x80 ≤ b && b ≤ 0xBF

/-- The payload bits of a continuation byte. -/
def low (b : UInt8) : Nat := b.toNat % 64

/-- Number of bytes that follow a lead byte, with the range its second byte must lie in. -/
def lead? (b : UInt8) : Option (Nat × UInt8 × UInt8) :=
  if 0xC2 ≤ b && b ≤ 0xDF then some (1, 0x80, 0xBF)
  else if b == 0xE0 then some (2, 0xA0, 0xBF)
  else if b == 0xED then some (2, 0x80, 0x9F)
  else if 0xE1 ≤ b && b ≤ 0xEF then some (2, 0x80, 0xBF)
  else if b == 0xF0 then some (3, 0x90, 0xBF)
  else if 0xF1 ≤ b && b ≤ 0xF3 then some (3, 0x80, 0xBF)
  else if b == 0xF4 then some (3, 0x80, 0x8F)
  else none

/-- The first piece of `b :: rest`. An ill-formed part is as long as the start of some
well-formed character, and at least one byte. -/
def piece (b : UInt8) (rest : Bytes) : Piece :=
  if b < 0x80 then .character (Char.ofNat b.toNat) rest
  else
    match lead? b with
    | none => .illFormed rest
    | some (count, lo, hi) =>
      match rest with
      | [] => .illFormed []
      | b₁ :: rest₁ =>
        if !(lo ≤ b₁ && b₁ ≤ hi) then .illFormed rest
        else if count = 1 then
          .character (Char.ofNat (b.toNat % 32 * 64 + low b₁)) rest₁
        else
          match rest₁ with
          | [] => .illFormed []
          | b₂ :: rest₂ =>
            if !isContinuation b₂ then .illFormed rest₁
            else if count = 2 then
              .character (Char.ofNat ((b.toNat % 16 * 64 + low b₁) * 64 + low b₂)) rest₂
            else
              match rest₂ with
              | [] => .illFormed []
              | b₃ :: rest₃ =>
                if !isContinuation b₃ then .illFormed rest₂
                else
                  .character
                    (Char.ofNat (((b.toNat % 8 * 64 + low b₁) * 64 + low b₂) * 64 + low b₃)) rest₃

/-- The bytes behind a piece. -/
def Piece.rest : Piece → Bytes
  | .character _ rest => rest
  | .illFormed rest => rest

/-- The character a piece stands for. -/
def Piece.char? : Piece → Option Char
  | .character c _ => some c
  | .illFormed _ => none

/-- A piece takes at least its first byte. -/
theorem length_rest_piece_le (b : UInt8) (rest : Bytes) :
    (piece b rest).rest.length ≤ rest.length := by
  unfold piece
  repeat' split
  all_goals simp [Piece.rest]
  all_goals omega

/-- Cut a byte string into its pieces, behind those in `done`. -/
def piecesFrom (done : List (Option Char)) : Bytes → List (Option Char)
  | [] => done.reverse
  | b :: rest => piecesFrom ((piece b rest).char? :: done) (piece b rest).rest
termination_by bytes => bytes.length
decreasing_by
  have := length_rest_piece_le b rest
  simp only [List.length_cons]
  omega

/-- The characters of a byte string, `none` where an ill-formed part stood. -/
def pieces (bytes : Bytes) : List (Option Char) :=
  piecesFrom [] bytes

/-- The text that well-formed bytes spell. -/
def decode? (bytes : Bytes) : Option String :=
  let all := pieces bytes
  if all.all Option.isSome then some (String.ofList (all.filterMap id)) else none

/-- The text that bytes spell, with a replacement character for every ill-formed part. -/
def decodeLossy (bytes : Bytes) : String :=
  String.ofList ((pieces bytes).map fun c => c.getD '\uFFFD')

end HttpRelay.Text.Utf8
