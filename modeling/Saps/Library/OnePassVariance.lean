import Mathlib.Algebra.Order.BigOperators.Group.List
import Mathlib.Algebra.Order.Field.Basic
import Mathlib.Tactic.FieldSimp
import Mathlib.Tactic.Positivity
import Mathlib.Tactic.Ring

/-!
# The variance in one pass

The sum, the sum of the squares and the length of a list determine the variance of its
entries, so that one pass over them is enough.
-/
namespace Saps.OnePass

variable {K : Type} [Field K] {xs : List K}

def average (xs : List K) : K := xs.sum / xs.length

/-- The mean of the squared deviations from the average. -/
def variance (xs : List K) : K :=
  (xs.map fun x => (x - average xs) ^ 2).sum / xs.length

def sumsq (xs : List K) : K := (xs.map (· ^ 2)).sum

/-- Squared deviations from any centre, by the three sums. -/
theorem sum_deviations (centre : K) (xs : List K) :
    (xs.map fun x => (x - centre) ^ 2).sum =
      sumsq xs - 2 * centre * xs.sum + xs.length * centre ^ 2 := by
  induction xs with
  | nil => simp [sumsq]
  | cons x xs ih =>
    simp only [sumsq] at ih
    simp only [sumsq, List.map_cons, List.sum_cons, List.length_cons, ih]
    push_cast
    ring

variable [LinearOrder K] [IsStrictOrderedRing K]

theorem variance_eq_onePass (entries : xs ≠ []) :
    variance xs = (sumsq xs - xs.sum ^ 2 / xs.length) / xs.length := by
  have length : (xs.length : K) ≠ 0 := by
    have positive := List.length_pos_iff.mpr entries
    positivity
  -- with the average as the centre the two middle terms join
  rw [variance, sum_deviations, average]
  congr 1
  field_simp
  ring

theorem variance_nonneg (xs : List K) : 0 ≤ variance xs := by
  apply div_nonneg
  · apply List.sum_nonneg
    intro square listed
    obtain ⟨x, -, rfl⟩ := List.mem_map.mp listed
    positivity
  · positivity

end Saps.OnePass
