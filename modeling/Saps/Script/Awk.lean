import Mathlib.Algebra.Field.Rat
import Mathlib.Data.Nat.Cast.Order.Basic

/-!
# Arithmetic of the awk programs

Numbers are exact rationals. What a division by zero does is left to the implementation. Most of
them (gawk, BWK awk and that of busybox) end the program, as is modelled here; mawk goes on with an
infinity.
-/
namespace Saps.Script

inductive Fault where
  | divisionByZero
deriving DecidableEq, Repr

def divide (x y : ℚ) : Except Fault ℚ :=
  if y = 0 then .error .divisionByZero else .ok (x / y)

theorem divide_ok {x y : ℚ} (nonzero : y ≠ 0) : divide x y = .ok (x / y) :=
  if_neg nonzero

theorem divide_zero (x : ℚ) : divide x 0 = .error .divisionByZero :=
  if_pos rfl

/-- A count that is positive can be divided by. -/
theorem divide_count_ok {n : Nat} (counted : 0 < n) (x : ℚ) : divide x n = .ok (x / n) :=
  divide_ok (by exact_mod_cast counted.ne')

/-- Bytes a second, in megabits a second. -/
def megabits (rate : ℚ) : ℚ := rate * 8 / 1000000

/-- `if (count > 0) mean = sum / count`, for a mean that starts at zero. -/
def mean (sum : ℚ) (count : Nat) : Except Fault ℚ :=
  if 0 < count then divide sum count else .ok 0

theorem mean_ok (sum : ℚ) (count : Nat) : mean sum count = .ok (sum / count) := by
  unfold mean
  split
  next counted => exact divide_count_ok counted sum
  -- nothing was counted: the mean keeps its first value, and 0 is `sum / 0` too
  next none =>
    have zero : count = 0 := by omega
    simp [zero]

end Saps.Script
