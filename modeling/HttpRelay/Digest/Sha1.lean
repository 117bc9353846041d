import HttpRelay.Bytes.Word

/-!
# SHA-1

The digest that answers a WebSocket opening key.
-/

namespace HttpRelay.Digest.Sha1

/-- The five words of a running digest. -/
structure Chain where
  a : UInt32
  b : UInt32
  c : UInt32
  d : UInt32
  e : UInt32

/-- The chain before the first block. -/
def start : Chain := ⟨0x67452301, 0xEFCDAB89, 0x98BADCFE, 0x10325476, 0xC3D2E1F0⟩

/-- Rotate a word to the left by fewer than 32 bits. -/
def rotate (word : UInt32) (bits : Nat) : UInt32 :=
  (word <<< UInt32.ofNat bits) ||| (word >>> UInt32.ofNat (32 - bits))

/-- The message followed by a one bit, zeros and its bit length, in whole blocks of 64 octets. -/
def padded (message : Bytes) : Bytes :=
  let length := message.length
  message ++ 0x80 :: List.replicate ((119 - length % 64) % 64) 0 ++ Word.be 8 (8 * length)

/-- The first `count` words that the octets spell. -/
def words : (count : Nat) → Bytes → List UInt32
  | 0, _ => []
  | count + 1, octets =>
    UInt32.ofNat (Word.ofBe (octets.take 4)) :: words count (octets.drop 4)

/-- Extend a schedule, last word first, by `count` words. -/
def extend : (count : Nat) → List UInt32 → List UInt32
  | 0, schedule => schedule
  | count + 1, schedule =>
    let word (back : Nat) : UInt32 := schedule.getD (back - 1) 0
    extend count (rotate (word 3 ^^^ word 8 ^^^ word 14 ^^^ word 16) 1 :: schedule)

/-- The round function and constant of a round. -/
def round (index : Nat) (b c d : UInt32) : UInt32 :=
  if index < 20 then ((b &&& c) ||| (~~~b &&& d)) + 0x5A827999
  else if index < 40 then (b ^^^ c ^^^ d) + 0x6ED9EBA1
  else if index < 60 then ((b &&& c) ||| (b &&& d) ||| (c &&& d)) + 0x8F1BBCDC
  else (b ^^^ c ^^^ d) + 0xCA62C1D6

/-- Mix one scheduled word into the chain. -/
def mix (chain : Chain) (scheduled : UInt32 × Nat) : Chain :=
  let (word, index) := scheduled
  { a := rotate chain.a 5 + round index chain.b chain.c chain.d + chain.e + word
    b := chain.a
    c := rotate chain.b 30
    d := chain.c
    e := chain.d }

/-- Take one block of 64 octets into the chain. -/
def absorb (chain : Chain) (block : Bytes) : Chain :=
  let schedule := (extend 64 (words 16 block).reverse).reverse
  let mixed := schedule.zipIdx.foldl mix chain
  ⟨chain.a + mixed.a, chain.b + mixed.b, chain.c + mixed.c, chain.d + mixed.d,
    chain.e + mixed.e⟩

/-- Take `count` blocks into the chain. -/
def absorbAll : (count : Nat) → Chain → Bytes → Chain
  | 0, chain, _ => chain
  | count + 1, chain, octets =>
    absorbAll count (absorb chain (octets.take 64)) (octets.drop 64)

/-- The 20 octets of the digest of a message. -/
def digest (message : Bytes) : Bytes :=
  let octets := padded message
  let chain := absorbAll (octets.length / 64) start octets
  [chain.a, chain.b, chain.c, chain.d, chain.e].flatMap fun word => Word.be 4 word.toNat

end HttpRelay.Digest.Sha1
