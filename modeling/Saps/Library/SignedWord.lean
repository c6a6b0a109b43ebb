import Mathlib.Algebra.BigOperators.Group.List.Basic
import Mathlib.Algebra.Order.Ring.Int

/-!
# Signed machine words

Integers as a two's-complement word of a given width holds them. Sums may be taken
word by word or exactly: only the last result has to fit.
-/
namespace Saps.SignedWord

/-- What a signed word of `bits` bits holds for `n`. -/
def wrap (bits : Nat) (n : Int) : Int := n.bmod (2 ^ bits)

/-- `n` is in the range of a signed word of `bits` bits. -/
def Fits (bits : Nat) (n : Int) : Prop := -2 ^ bits ≤ 2 * n ∧ 2 * n < 2 ^ bits

instance (bits : Nat) (n : Int) : Decidable (Fits bits n) :=
  inferInstanceAs (Decidable (_ ∧ _))

variable {bits : Nat} {a b n : Int}

theorem fits_iff : Fits (bits + 1) n ↔ -2 ^ bits ≤ n ∧ n < 2 ^ bits := by
  rw [Fits, pow_succ]
  omega

theorem fits_of_nonneg (nonneg : 0 ≤ n) (below : n < 2 ^ bits) : Fits (bits + 1) n := by
  have positive : (0 : Int) < 2 ^ bits := Int.pow_pos (by decide)
  exact fits_iff.mpr ⟨by omega, below⟩

theorem fits_wrap (bits : Nat) (n : Int) : Fits bits (wrap bits n) := by
  have positive : 0 < 2 ^ bits := Nat.two_pow_pos bits
  have low := @Int.le_bmod n (2 ^ bits) positive
  have high := @Int.bmod_lt n (2 ^ bits) positive
  have same : ((2 ^ bits : Nat) : Int) = 2 ^ bits := by push_cast; rfl
  rw [same] at low high
  rw [wrap, Fits]
  omega

theorem wrap_of_fits (fits : Fits bits n) : wrap bits n = n := by
  obtain ⟨low, high⟩ := fits
  apply Int.bmod_eq_of_le_mul_two
  · push_cast
    omega
  · push_cast
    omega

/-- A word holds the numbers in its range as they are, and no others. -/
theorem wrap_eq_self_iff : wrap bits n = n ↔ Fits bits n :=
  ⟨fun same => same ▸ fits_wrap bits n, wrap_of_fits⟩

@[simp] theorem wrap_zero : wrap bits 0 = 0 := Int.zero_bmod

@[simp] theorem wrap_add_wrap : wrap bits (a + wrap bits b) = wrap bits (a + b) :=
  Int.add_bmod_bmod

@[simp] theorem wrap_wrap_add : wrap bits (wrap bits a + b) = wrap bits (a + b) :=
  Int.bmod_add_bmod

/-- What the summands lose does not show in the word of their sum. -/
theorem wrap_sum_map {α : Type} (f : α → Int) (xs : List α) :
    wrap bits (xs.map fun x => wrap bits (f x)).sum = wrap bits (xs.map f).sum := by
  induction xs with
  | nil => rfl
  | cons x xs ih =>
    rw [List.map_cons, List.map_cons, List.sum_cons, List.sum_cons, wrap_wrap_add,
      ← wrap_add_wrap, ih, wrap_add_wrap]

end Saps.SignedWord
