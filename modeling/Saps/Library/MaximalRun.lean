import Mathlib.Algebra.Order.Group.Int
import Mathlib.Tactic.ByContra

/-!
# Maximal runs

A maximal run of a set of numbers is a stretch `[l, r)` of its members that
neither neighbour belongs to.
-/
namespace Saps

/-- `[l, r)` is not empty, lies in the set, and cannot be extended in it. -/
structure MaximalRun (P : ℤ → Prop) (l r : ℤ) : Prop where
  nonempty : l < r
  filled : ∀ s, l ≤ s → s < r → P s
  left : ¬ P (l - 1)
  right : ¬ P r

namespace MaximalRun

variable {P Q : ℤ → Prop} {l r a b : ℤ}

/-- A stretch of members that meets a maximal run lies in it. -/
theorem contains (run : MaximalRun P l r) {s : ℤ} (filled : ∀ t, a ≤ t → t < b → P t)
    (stretch : a ≤ s ∧ s < b) (meets : l ≤ s ∧ s < r) : l ≤ a ∧ b ≤ r := by
  constructor
  · by_contra further
    exact run.left (filled (l - 1) (by omega) (by omega))
  · by_contra further
    exact run.right (filled r (by omega) (by omega))

/-- Two maximal runs of which one does not contain the other are disjoint. -/
theorem disjoint (first : MaximalRun P l r) (second : MaximalRun P a b)
    (uncovered : ¬ (l ≤ a ∧ b ≤ r)) : r ≤ a ∨ b ≤ l := by
  by_contra meet
  have nonempty := first.nonempty
  have nonempty := second.nonempty
  exact uncovered (first.contains (s := max l a) second.filled (by omega) (by omega))

/-- A run stays maximal if what joins the set is at neither end. -/
theorem grow (run : MaximalRun P l r) {x : ℤ} (joins : ∀ s, Q s ↔ P s ∨ x = s) (left : x ≠ l - 1)
    (right : x ≠ r) : MaximalRun Q l r where
  nonempty := run.nonempty
  filled := fun s lower upper => (joins s).mpr (.inl (run.filled s lower upper))
  left := fun more => ((joins (l - 1)).mp more).elim run.left left
  right := fun more => ((joins r).mp more).elim run.right right

/-- An old run that the run around the newcomer does not cover stays maximal. -/
theorem grow_uncovered (run : MaximalRun P a b) {x : ℤ} (joins : ∀ s, Q s ↔ P s ∨ x = s)
    (around : MaximalRun Q l r) (meets : l ≤ x ∧ x < r) (uncovered : ¬ (l ≤ a ∧ b ≤ r)) :
    MaximalRun Q a b := by
  have nonempty := run.nonempty
  have old : ∀ s, a ≤ s → s < b → Q s := fun s lower upper =>
    (joins s).mpr (.inl (run.filled s lower upper))
  refine run.grow joins ?_ ?_
  · rintro rfl
    have covered := around.contains (a := a - 1) (b := b) (s := a - 1) ?_ (by omega) meets
    · omega
    · intro s lower upper
      rcases eq_or_lt_of_le lower with rfl | inside
      · exact (joins _).mpr (.inr rfl)
      · exact old s (by omega) upper
  · rintro rfl
    have covered := around.contains (a := a) (b := x + 1) (s := x) ?_ (by omega) meets
    · omega
    · intro s lower upper
      rcases eq_or_lt_of_le (Int.lt_add_one_iff.mp upper) with rfl | inside
      · exact (joins _).mpr (.inr rfl)
      · exact old s lower inside

end MaximalRun

end Saps
