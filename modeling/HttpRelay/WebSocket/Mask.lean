import HttpRelay.Bytes.Basic

/-!
# Masking

Clients mask what they send by a key of four octets, over and over (RFC 6455, section 5.3).
Masking twice with one key gives the payload back.
-/

namespace HttpRelay.WebSocket

/-- A masking key. -/
structure MaskKey where
  k₀ : UInt8
  k₁ : UInt8
  k₂ : UInt8
  k₃ : UInt8
  deriving DecidableEq, Repr

namespace MaskKey

/-- The key that changes nothing. -/
def zero : MaskKey := ⟨0, 0, 0, 0⟩

/-- The octets of a key. -/
def toBytes (key : MaskKey) : Bytes := [key.k₀, key.k₁, key.k₂, key.k₃]

/-- The key that four octets spell. -/
def ofBytes? : Bytes → Option MaskKey
  | [k₀, k₁, k₂, k₃] => some ⟨k₀, k₁, k₂, k₃⟩
  | _ => none

/-- The octet of a key that masks the payload octet at an index. -/
def octet (key : MaskKey) (index : Nat) : UInt8 :=
  match index % 4 with
  | 0 => key.k₀
  | 1 => key.k₁
  | 2 => key.k₂
  | _ => key.k₃

/-- Mask bytes that stand `offset` octets into the payload. -/
def mask (key : MaskKey) (offset : Nat) (bytes : Bytes) : Bytes :=
  bytes.mapIdx fun index b => b ^^^ key.octet (offset + index)

/-- Masking twice changes nothing. -/
@[simp] theorem mask_mask (key : MaskKey) (offset : Nat) (bytes : Bytes) :
    key.mask offset (key.mask offset bytes) = bytes := by
  apply List.ext_getElem
  · simp [mask]
  · intro i h₁ h₂
    simp only [mask, List.getElem_mapIdx, UInt8.xor_assoc, UInt8.xor_self, UInt8.xor_zero]

end MaskKey

/-- Mask a whole payload, unless there is no key. -/
def applyMask (key : Option MaskKey) (payload : Bytes) : Bytes :=
  match key with
  | some key => key.mask 0 payload
  | none => payload

end HttpRelay.WebSocket
