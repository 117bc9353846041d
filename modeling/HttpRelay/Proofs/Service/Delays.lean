import HttpRelay.Service.Backoff
import Mathlib.Algebra.Group.Nat.Defs

/-!
# The delays between attempts

Delays are computed in words of 64 bits that saturate. Under a limit that leaves room for the
jitter they are what exact numbers would give, and the attempts are counted.

* `Backoff.capped`: the delay behind an attempt without its jitter, in exact numbers;
* `Backoff.shortest_eq_capped`: saturation is not seen below the limit;
* `Backoff.delay_bounds`, `Backoff.delay_lt`: where a delay lies;
* `Backoff.behind_eq`, `Backoff.drawn_eq`: the attempts behind any number of calls.
-/

namespace HttpRelay.Service

/-- Behind a limit that a word can hold, a product of saturated factors is an exact product. -/
theorem min_saturate_mul {limit : Nat} (hlimit : limit ≤ UInt64.size - 1) (a b : Nat) :
    min (saturate (a * saturate b)) limit = min (a * b) limit := by
  rw [saturate, saturate]
  by_cases hb : b ≤ UInt64.size - 1
  · rw [Nat.min_eq_left hb]
    omega
  · rw [Nat.min_eq_right (by omega : UInt64.size - 1 ≤ b)]
    -- a factor that saturates exceeds the limit by itself, unless the other one is zero
    rcases Nat.eq_zero_or_pos a with rfl | ha
    · simp
    · have hsaturated := Nat.le_mul_of_pos_left (UInt64.size - 1) ha
      have hexact := Nat.le_mul_of_pos_left b ha
      omega

namespace Backoff

/-- The delay behind an attempt without its jitter, in exact numbers. -/
def capped (attempt base max : Nat) : Nat := min (base * 2 ^ (attempt - 1)) max

theorem growth_eq (attempt : Nat) : growth attempt = saturate (2 ^ (attempt - 1)) := by
  rw [growth]
  split
  next => rw [Nat.one_shiftLeft]
  next hlate =>
    have hlarge : UInt64.size ≤ 2 ^ (attempt - 1) :=
      Nat.pow_le_pow_right (by decide : 0 < 2) (by omega : 64 ≤ attempt - 1)
    rw [saturate, Nat.min_eq_right (by omega)]

/-- What saturates is cut anyhow. -/
theorem shortest_eq_capped {attempt base max : Nat} (hattempt : 1 ≤ attempt)
    (hmax : max ≤ UInt64.size - 1) : shortest attempt base max = capped attempt base max := by
  rw [shortest, if_neg (by omega), growth_eq, min_saturate_mul hmax, capped]

/-- Without its jitter, a delay is no shorter than the one before. -/
theorem capped_le_succ (attempt base max : Nat) :
    capped attempt base max ≤ capped (attempt + 1) base max := by
  have hpower : 2 ^ (attempt - 1) ≤ 2 ^ (attempt + 1 - 1) :=
    Nat.pow_le_pow_right (by decide) (by omega)
  have hproduct := Nat.mul_le_mul_left base hpower
  rw [capped, capped]
  omega

@[simp] theorem delay_zero (base max random : Nat) : delay 0 base max random = 0 := by
  simp [delay, jitterBound, shortest]

/-- The jitter is at most a tenth. -/
theorem delay_bounds {attempt base max : Nat} (hattempt : 1 ≤ attempt)
    (hmax : max ≤ UInt64.size - 1) (random : Nat) :
    capped attempt base max ≤ delay attempt base max random ∧
      delay attempt base max random ≤
        capped attempt base max + capped attempt base max / 10 := by
  rw [delay, jitterBound, shortest_eq_capped hattempt hmax]
  split
  next => omega
  next hbound =>
    have hjitter := Nat.mod_lt random (Nat.pos_of_ne_zero hbound)
    omega

/-- The sum of a delay and its jitter, the one operation that does not saturate, stays within a
word. -/
theorem delay_lt {attempt base max : Nat} (hmax : max ≤ 2 ^ 63 - 1) (random : Nat) :
    delay attempt base max random < UInt64.size := by
  rcases Nat.eq_zero_or_pos attempt with rfl | hattempt
  · rw [delay_zero]
    decide
  · have hsize : UInt64.size = 2 ^ 64 := rfl
    have hupper : delay attempt base max random ≤ _ :=
      (delay_bounds hattempt (by omega) random).2
    have hcapped : capped attempt base max ≤ max := Nat.min_le_right _ _
    omega

/-- The attempts behind some calls, each with a random number of its own. -/
def behind (b : Backoff) (random : Nat → Nat) : (calls : Nat) → Backoff
  | 0 => b
  | calls + 1 => ((b.behind random calls).next (random calls)).2

/-- What the call behind some others gives. -/
def drawn (b : Backoff) (random : Nat → Nat) (calls : Nat) : Option Nat :=
  ((b.behind random calls).next (random calls)).1

/-- Every call is an attempt, until they are used up. -/
theorem behind_eq (retries : Config.Retries) (random : Nat → Nat) (calls : Nat) :
    behind { retries } random calls =
      { retries, attempts := min calls (max 1 retries.maxAttempts) } := by
  induction calls with
  | zero => simp [behind]
  | succ calls ih =>
    rw [behind, ih, next, limit]
    dsimp only
    split
    next hleft =>
      simp only [Backoff.mk.injEq, true_and]
      omega
    next hleft =>
      simp only [Backoff.mk.injEq, true_and]
      omega

/-- A call gives the delay of its number as long as there are attempts, and nothing behind
them. -/
theorem drawn_eq (retries : Config.Retries) (random : Nat → Nat) (calls : Nat) :
    drawn { retries } random calls =
      if calls < max 1 retries.maxAttempts then
        some (delay calls retries.baseDelay retries.maxDelay (random calls))
      else none := by
  rw [drawn, behind_eq, next, limit]
  dsimp only
  split
  next hleft =>
    have hall : calls < max 1 retries.maxAttempts := by omega
    rw [if_pos hall, Nat.min_eq_left (by omega)]
  next hleft => rw [if_neg (by omega)]

end Backoff

end HttpRelay.Service
