import Mathlib.Algebra.Order.Field.Basic
import Mathlib.Tactic.Linarith
import Mathlib.Tactic.Ring

/-!
# Exponentially weighted moving averages

An average that moves a fixed part of the way to each new value. What it started
from loses weight with every value, so that it ends up where the values are.
-/
namespace Saps.MovingAverage

variable {K : Type} [Field K]

/-- One value moves the average by the weight `w` towards it. -/
def move (w : K) (average value : K) : K := (1 - w) * average + w * value

/-- The average after some values, from a first one on. -/
def after (w start : K) (values : List K) : K := values.foldl (move w) start

variable {w start other lo hi : K} {values old recent : List K}

@[simp] theorem after_nil : after w start [] = start := rfl

@[simp] theorem after_cons (value : K) :
    after w start (value :: values) = after w (move w start value) values := rfl

theorem after_append : after w start (old ++ recent) = after w (after w start old) recent :=
  List.foldl_append

theorem after_concat (value : K) :
    after w start (values ++ [value]) = move w (after w start values) value := by
  rw [after_append]
  rfl

/-- Two averages of the same values draw nearer by the same factor with every value. -/
theorem after_sub_after :
    after w start values - after w other values = (1 - w) ^ values.length * (start - other) := by
  induction values generalizing start other with
  | nil => simp
  | cons value values ih =>
    rw [after_cons, after_cons, ih, List.length_cons, pow_succ, move, move]
    ring

variable [LinearOrder K] [IsStrictOrderedRing K]

theorem move_le {average value : K} (nonneg : 0 ≤ w) (le : w ≤ 1) (below : average ≤ hi)
    (value_le : value ≤ hi) : move w average value ≤ hi := by
  have rest : (1 - w) * average ≤ (1 - w) * hi :=
    mul_le_mul_of_nonneg_left below (by linarith)
  have moved : w * value ≤ w * hi := mul_le_mul_of_nonneg_left value_le nonneg
  rw [move]
  linarith

theorem le_move {average value : K} (nonneg : 0 ≤ w) (le : w ≤ 1) (above : lo ≤ average)
    (le_value : lo ≤ value) : lo ≤ move w average value := by
  have rest : (1 - w) * lo ≤ (1 - w) * average :=
    mul_le_mul_of_nonneg_left above (by linarith)
  have moved : w * lo ≤ w * value := mul_le_mul_of_nonneg_left le_value nonneg
  rw [move]
  linarith

theorem after_le (nonneg : 0 ≤ w) (le : w ≤ 1) (below : start ≤ hi)
    (values_le : ∀ value ∈ values, value ≤ hi) : after w start values ≤ hi := by
  induction values generalizing start with
  | nil => exact below
  | cons value values ih =>
    have first := move_le nonneg le below (values_le value List.mem_cons_self)
    exact ih first fun later member => values_le later (List.mem_cons_of_mem _ member)

theorem le_after (nonneg : 0 ≤ w) (le : w ≤ 1) (above : lo ≤ start)
    (le_values : ∀ value ∈ values, lo ≤ value) : lo ≤ after w start values := by
  induction values generalizing start with
  | nil => exact above
  | cons value values ih =>
    have first := le_move nonneg le above (le_values value List.mem_cons_self)
    exact ih first fun later member => le_values later (List.mem_cons_of_mem _ member)

/-- What the average is above the values shrinks by the factor `1 - w` with each of them. -/
theorem after_sub_le (nonneg : 0 ≤ w) (le : w ≤ 1) (values_le : ∀ value ∈ values, value ≤ hi) :
    after w start values - hi ≤ (1 - w) ^ values.length * (start - hi) := by
  have apart := @after_sub_after K _ w start hi values
  have settled := after_le nonneg le (le_refl hi) values_le
  linarith

/-- What it is below them shrinks in the same way. -/
theorem le_after_sub (nonneg : 0 ≤ w) (le : w ≤ 1) (le_values : ∀ value ∈ values, lo ≤ value) :
    (1 - w) ^ values.length * (start - lo) ≤ after w start values - lo := by
  have apart := @after_sub_after K _ w start lo values
  have settled := le_after nonneg le (le_refl lo) le_values
  linarith

end Saps.MovingAverage
