import Mathlib.Algebra.Order.Group.Unbundled.Int
import Mathlib.Algebra.Order.Ring.Int
import Mathlib.Tactic.Linarith
import Mathlib.Tactic.Ring

/-!
# Averages kept in fixed point

A moving average with weight `1 / 2 ^ n`, kept as an integer `2 ^ n` times its size. The
shift rounds down, so that it comes to rest within a unit of what it is fed.
-/
namespace Saps.ShiftAverage

/-- One value moves the average. -/
def move (n : Nat) (scaled value : Int) : Int := scaled + (value - scaled >>> n)

variable {n : Nat} {scaled value lo hi : Int}

theorem le_shiftRight : lo ≤ scaled >>> n ↔ lo * 2 ^ n ≤ scaled := by
  have positive : (0 : Int) < 2 ^ n := by positivity
  rw [Int.shiftRight_eq_div_pow]
  exact_mod_cast Int.le_ediv_iff_mul_le positive

theorem shiftRight_lt : scaled >>> n < hi ↔ scaled < hi * 2 ^ n := by
  rw [← not_le, le_shiftRight, not_le]

theorem shiftRight_le (below : scaled ≤ hi * 2 ^ n) : scaled >>> n ≤ hi := by
  have positive : (0 : Int) < 2 ^ n := by positivity
  exact Int.lt_add_one_iff.mp (shiftRight_lt.mpr (by rw [add_mul]; omega))

/-- The gap to a level shrinks by its own part of it, rounded down. -/
theorem move_sub (level : Int) : move n scaled value - level * 2 ^ n =
    scaled - level * 2 ^ n - (scaled - level * 2 ^ n) >>> n + (value - level) := by
  have shifted : (scaled - level * 2 ^ n) >>> n = scaled >>> n - level := by
    have nonzero : (2 : Int) ^ n ≠ 0 := by positivity
    rw [Int.shiftRight_eq_div_pow, Int.shiftRight_eq_div_pow]
    exact_mod_cast Int.sub_mul_ediv_right scaled level nonzero
  rw [shifted, move]
  ring

theorem shiftRight_le_self (nonneg : 0 ≤ scaled) : scaled >>> n ≤ scaled := by
  rw [Int.shiftRight_eq_div_pow]
  exact Int.ediv_le_self _ nonneg

/-- A gap below zero rounds away from it. -/
theorem le_shiftRight_of_nonpos (nonpos : scaled ≤ 0) : scaled ≤ scaled >>> n := by
  rw [le_shiftRight]
  have one : (1 : Int) ≤ 2 ^ n := one_le_pow₀ (by decide)
  nlinarith

theorem le_move (above : lo * 2 ^ n ≤ scaled) (le_value : lo ≤ value) :
    lo * 2 ^ n ≤ move n scaled value := by
  have gap := @move_sub n scaled value lo
  have part : (scaled - lo * 2 ^ n) >>> n ≤ scaled - lo * 2 ^ n := shiftRight_le_self (by omega)
  omega

theorem move_le (below : scaled ≤ hi * 2 ^ n) (value_le : value ≤ hi) :
    move n scaled value ≤ hi * 2 ^ n := by
  have gap := @move_sub n scaled value hi
  have part : scaled - hi * 2 ^ n ≤ (scaled - hi * 2 ^ n) >>> n :=
    le_shiftRight_of_nonpos (by omega)
  omega

theorem move_pos (shift : 0 < n) (positive : 0 < scaled) (nonneg : 0 ≤ value) :
    0 < move n scaled value := by
  have less : scaled >>> n < scaled := by
    have two : (2 : Int) ≤ 2 ^ n := by
      calc (2 : Int) = 2 ^ 1 := rfl
        _ ≤ 2 ^ n := pow_le_pow_right₀ (by decide) shift
    rw [shiftRight_lt]
    nlinarith
  rw [move]
  omega

/-- An average that reads as the value stays as it is. -/
theorem move_of_settled (settled : scaled >>> n = value) : move n scaled value = scaled := by
  rw [move, settled]
  omega

/-- Fed one value only, an average that does not read as it draws nearer. -/
theorem move_nearer (unsettled : scaled >>> n ≠ value) :
    (move n scaled value - value * 2 ^ n).natAbs < (scaled - value * 2 ^ n).natAbs := by
  have gap := @move_sub n scaled value value
  rcases lt_or_gt_of_ne unsettled with below | above
  · have under : scaled < value * 2 ^ n := shiftRight_lt.mp below
    have moved : (scaled - value * 2 ^ n) >>> n < 0 := by
      rw [shiftRight_lt]
      omega
    have part := le_shiftRight_of_nonpos (n := n) (show scaled - value * 2 ^ n ≤ 0 by omega)
    omega
  · have beyond : (value + 1) * 2 ^ n ≤ scaled := le_shiftRight.mp above
    have notBelow : value * 2 ^ n ≤ scaled := le_shiftRight.mp above.le
    have moved : 1 ≤ (scaled - value * 2 ^ n) >>> n := by
      rw [add_mul] at beyond
      rw [le_shiftRight]
      omega
    have part := shiftRight_le_self (n := n) (show 0 ≤ scaled - value * 2 ^ n by omega)
    omega

end Saps.ShiftAverage
