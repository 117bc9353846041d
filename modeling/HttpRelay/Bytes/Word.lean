import HttpRelay.Bytes.Basic

/-!
# Fixed-Width Integers

Unsigned integers of a given width in octets, most significant octet first (`Word.be`) or last
(`Word.le`). Writing keeps the low bits of a number that is too large; reading back gives the
number modulo `1 <<< (8 * width)`.
-/

namespace HttpRelay.Word

/-- The `width` low octets of `n`, least significant first. -/
def le : (width n : Nat) → Bytes
  | 0, _ => []
  | width + 1, n => UInt8.ofNat n :: le width (n / 256)

/-- The `width` low octets of `n`, most significant first. -/
def be (width n : Nat) : Bytes :=
  (le width n).reverse

/-- The number that octets spell, least significant first. -/
def ofLe : Bytes → Nat
  | [] => 0
  | b :: bs => b.toNat + 256 * ofLe bs

/-- The number that octets spell, most significant first. -/
def ofBe (bytes : Bytes) : Nat :=
  ofLe bytes.reverse

@[simp] theorem length_le (width n : Nat) : (le width n).length = width := by
  induction width generalizing n with
  | zero => rfl
  | succ width ih => simp [le, ih]

@[simp] theorem length_be (width n : Nat) : (be width n).length = width := by
  simp [be]

/-- One octet more is eight bits more. -/
theorem shiftLeft_succ (width : Nat) : 1 <<< (8 * (width + 1)) = 256 * 1 <<< (8 * width) := by
  rw [Nat.mul_succ, Nat.shiftLeft_add, Nat.shiftLeft_eq _ 8, Nat.mul_comm]

/-- Reading what was written gives the number modulo the width. -/
theorem ofLe_le (width n : Nat) : ofLe (le width n) = n % 1 <<< (8 * width) := by
  induction width generalizing n with
  | zero => simp [le, ofLe, Nat.mod_one]
  | succ width ih =>
    simp only [le, ofLe, ih, UInt8.toNat_ofNat', Nat.reducePow]
    rw [shiftLeft_succ, Nat.mod_mul]

/-- Reading what was written gives the number modulo the width. -/
theorem ofBe_be (width n : Nat) : ofBe (be width n) = n % 1 <<< (8 * width) := by
  simp [ofBe, be, ofLe_le]

/-- A number that fits its width is read back as it is. -/
theorem ofBe_be_of_lt {width n : Nat} (h : n < 1 <<< (8 * width)) : ofBe (be width n) = n := by
  rw [ofBe_be, Nat.mod_eq_of_lt h]

/-- Octets are what is written of the number that they spell. -/
theorem le_ofLe (bytes : Bytes) : le bytes.length (ofLe bytes) = bytes := by
  induction bytes with
  | nil => rfl
  | cons b bytes ih =>
    have hb := UInt8.toNat_lt b
    have hrest : (b.toNat + 256 * ofLe bytes) / 256 = ofLe bytes := by omega
    rw [List.length_cons, ofLe, le, hrest, ih]
    congr 1
    rw [← UInt8.toNat_inj, UInt8.toNat_ofNat']
    omega

/-- Octets are what is written of the number that they spell. -/
theorem be_ofBe (bytes : Bytes) : be bytes.length (ofBe bytes) = bytes := by
  rw [be, ofBe, ← List.length_reverse, le_ofLe, List.reverse_reverse]

theorem ofLe_lt (bytes : Bytes) : ofLe bytes < 1 <<< (8 * bytes.length) := by
  induction bytes with
  | nil => exact Nat.one_pos
  | cons b bytes ih =>
    have hb := UInt8.toNat_lt b
    rw [ofLe, List.length_cons, shiftLeft_succ]
    omega

/-- Octets spell a number of their width. -/
theorem ofBe_lt (bytes : Bytes) : ofBe bytes < 1 <<< (8 * bytes.length) := by
  have h := ofLe_lt bytes.reverse
  rwa [List.length_reverse] at h

end HttpRelay.Word
