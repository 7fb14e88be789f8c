/-
Bounded repetition that stops early at a fixed point, and repeated multiplication under a cap: the
capped geometric sequence, in any ordered monoid.
-/
import Mathlib

namespace WorldInfra.Lib

variable {α : Type}

/-! ## Stopping at a fixed point -/

/-- Repeat `f` at most `n` times, stopping at the first value it does not change. -/
def iterateUntilFixed [DecidableEq α] (f : α → α) : Nat → α → α
  | 0, x => x
  | n + 1, x => if f x = x then x else iterateUntilFixed f n (f x)

/-- Stopping early changes nothing. -/
theorem iterateUntilFixed_eq [DecidableEq α] (f : α → α) (n : Nat) (x : α) :
    iterateUntilFixed f n x = f^[n] x := by
  induction n generalizing x with
  | zero => rfl
  | succ n ih =>
    rw [iterateUntilFixed, Function.iterate_succ_apply]
    split
    · next hfix => rw [hfix, Function.iterate_fixed hfix]
    · exact ih (f x)

/-! ## Multiplying under a cap -/

section Capped

variable [Monoid α] [LinearOrder α] [MulRightMono α] {m cap : α}

/-- The value multiplied by `m`, or the cap when that is smaller. -/
def cappedMul (m cap x : α) : α := min (x * m) cap

variable [MulLeftMono α]

/-- A factor of at least one cannot bring a capped value back under the cap. -/
theorem cappedMul_min (hm : 1 ≤ m) (x : α) : cappedMul m cap (min x cap) = min (x * m) cap := by
  rw [cappedMul, min_mul, min_assoc, min_eq_right (le_mul_of_one_le_right' hm)]

/-- The capped geometric sequence. -/
theorem iterate_cappedMul (hm : 1 ≤ m) (n : Nat) (x : α) :
    (cappedMul m cap)^[n] (min x cap) = min (x * m ^ n) cap := by
  induction n with
  | zero => rw [pow_zero, mul_one, Function.iterate_zero_apply]
  | succ n ih => rw [Function.iterate_succ_apply', ih, cappedMul_min hm, mul_assoc, pow_succ]

omit [MulRightMono α] in
/-- The sequence never decreases. -/
theorem min_mul_pow_mono (hm : 1 ≤ m) (x : α) : Monotone fun n : Nat => min (x * m ^ n) cap := by
  intro a b hab
  exact min_le_min_right _ (mul_le_mul_right (pow_le_pow_right' hm hab) x)

end Capped

end WorldInfra.Lib
