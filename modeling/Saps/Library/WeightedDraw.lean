import Mathlib.Algebra.BigOperators.Intervals
import Mathlib.Data.Nat.Count

/-!
# Draws in proportion to weights

Members `0, 1, …` own consecutive stretches of the natural numbers, each as long as its
weight. A number below the sum of the first `n` weights has exactly one owner among them.
-/
namespace Saps.WeightedDraw

/-- The sum of the weights of the members before `i`. -/
def before (w : Nat → Nat) (i : Nat) : Nat := ∑ k ∈ Finset.range i, w k

/-- The number lies in the member's stretch. -/
def Owns (w : Nat → Nat) (i r : Nat) : Prop := before w i ≤ r ∧ r < before w (i + 1)

instance (w : Nat → Nat) (i : Nat) : DecidablePred (Owns w i) := fun r =>
  inferInstanceAs (Decidable (before w i ≤ r ∧ r < before w (i + 1)))

variable {w : Nat → Nat} {n i j r : Nat}

@[simp] theorem before_zero (w : Nat → Nat) : before w 0 = 0 := rfl

theorem before_succ (w : Nat → Nat) (i : Nat) : before w (i + 1) = before w i + w i :=
  Finset.sum_range_succ w i

theorem before_mono (w : Nat → Nat) : Monotone (before w) :=
  monotone_nat_of_le_succ fun i => by rw [before_succ]; omega

theorem Owns.weight_pos (owns : Owns w i r) : 0 < w i := by
  obtain ⟨low, high⟩ := owns
  rw [before_succ] at high
  omega

theorem Owns.unique (owns : Owns w i r) (other : Owns w j r) : i = j := by
  rcases Nat.lt_trichotomy i j with less | same | more
  · have order : before w (i + 1) ≤ before w j := before_mono w less
    have high := owns.2
    have low := other.1
    omega
  · exact same
  · have order : before w (j + 1) ≤ before w i := before_mono w more
    have high := other.2
    have low := owns.1
    omega

/-- Every number below the sum of the weights has an owner. -/
theorem exists_owner (below : r < before w n) : ∃ i < n, Owns w i r := by
  induction n with
  | zero => exact absurd below (Nat.not_lt_zero r)
  | succ n ih =>
    rcases Nat.lt_or_ge r (before w n) with earlier | last
    · obtain ⟨i, inside, owns⟩ := ih earlier
      exact ⟨i, Nat.lt_succ_of_lt inside, owns⟩
    · exact ⟨n, Nat.lt_succ_self n, last, below⟩

/-- A member owns as many of these numbers as its weight says. -/
theorem count_owned (inside : i < n) : (before w n).count (Owns w i) = w i := by
  have high : before w (i + 1) ≤ before w n := before_mono w inside
  have stretch : (Finset.range (before w n)).filter (Owns w i) =
      Finset.Ico (before w i) (before w (i + 1)) := by
    ext r
    simp only [Finset.mem_filter, Finset.mem_range, Finset.mem_Ico, Owns]
    omega
  rw [Nat.count_eq_card_filter_range, stretch, Nat.card_Ico, before_succ, Nat.add_sub_cancel_left]

end Saps.WeightedDraw
