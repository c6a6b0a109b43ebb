import Mathlib.Algebra.Order.Group.Int
import Mathlib.Data.List.Induction
import Mathlib.Tactic.Linarith
import Mathlib.Tactic.Ring

/-!
# Positional numbers with signed digits

Numbers to a base `β`, their digits taken from an interval that may reach below
0 and may be wider than the base. A wide enough interval leaves no gap: every
value between the least and the greatest is that of some digits.
-/
namespace Saps.SignedDigits

/-- The value of the digits, the most significant one first, after a value read before. -/
def valueFrom (β : ℤ) (start : ℤ) (digits : List ℤ) : ℤ :=
  digits.foldl (fun value digit => β * value + digit) start

/-- The value of so many digits 1. -/
def ones (β : ℤ) : Nat → ℤ
  | 0 => 0
  | count + 1 => β * ones β count + 1

/-- Every digit is between `low` and `high`. -/
def Within (low high : ℤ) (digits : List ℤ) : Prop := ∀ digit ∈ digits, low ≤ digit ∧ digit ≤ high

variable {β low high start : ℤ} {digits : List ℤ}

@[simp] theorem valueFrom_append {more : List ℤ} :
    valueFrom β start (digits ++ more) = valueFrom β (valueFrom β start digits) more := by
  simp [valueFrom]

theorem valueFrom_eq : valueFrom β start digits = β ^ digits.length * start + valueFrom β 0 digits := by
  induction digits using List.reverseRecOn with
  | nil => simp [valueFrom]
  | append_singleton digits digit ih =>
    rw [valueFrom_append, valueFrom_append, ih]
    simp only [valueFrom, List.foldl_cons, List.foldl_nil, List.length_append, List.length_singleton]
    ring

theorem within_append_singleton {digit : ℤ} : Within low high (digits ++ [digit]) ↔
    Within low high digits ∧ low ≤ digit ∧ digit ≤ high := by
  simp [Within, or_imp, forall_and]
  tauto

theorem ones_nonneg (base : 0 < β) (count : Nat) : 0 ≤ ones β count := by
  induction count with
  | zero => exact le_refl 0
  | succ count ih =>
    rw [ones]
    positivity

/-- A last digit can be split off a value so that the rest is in the range of the digits before
it, and the digit can grow by one if the value can. -/
theorem exists_split {r v : ℤ} (base : 0 < β) (wide : β ≤ high - low) (nonneg : 0 ≤ r)
    (lower : low * (β * r + 1) ≤ v) (upper : v ≤ high * (β * r + 1)) :
    ∃ w, low * r ≤ w ∧ w ≤ high * r ∧ low ≤ v - β * w ∧ v - β * w ≤ high ∧
      (v < high * (β * r + 1) → v - β * w < high) := by
  have div := Int.emod_add_mul_ediv (v - low) β
  have digit := Int.emod_nonneg (v - low) base.ne'
  have short := Int.emod_lt_of_pos (v - low) base
  set w := (v - low) / β
  rcases le_or_gt w (high * r) with inside | above
  · refine ⟨w, ?_, inside, by linarith, by linarith, fun _ => by linarith⟩
    by_contra below
    have behind : β * (w + 1) ≤ β * (low * r) :=
      mul_le_mul_of_nonneg_left (Int.add_one_le_iff.mpr (not_le.mp below)) base.le
    linarith
  · -- the greatest rest, and a last digit that is greater than it need be
    have ahead : β * (high * r + 1) ≤ β * w :=
      mul_le_mul_of_nonneg_left (Int.add_one_le_iff.mpr above) base.le
    have order : low * r ≤ high * r := mul_le_mul_of_nonneg_right (by linarith) nonneg
    exact ⟨high * r, order, le_refl _, by linarith, by linarith, fun _ => by linarith⟩

/-- Every value in the range of so many digits is that of some. -/
theorem exists_digits (base : 0 < β) (wide : β ≤ high - low) (count : Nat) {v : ℤ}
    (lower : low * ones β count ≤ v) (upper : v ≤ high * ones β count) :
    ∃ digits : List ℤ, digits.length = count ∧ Within low high digits ∧
      valueFrom β 0 digits = v := by
  induction count generalizing v with
  | zero =>
    refine ⟨[], rfl, by simp [Within], ?_⟩
    simp only [ones, mul_zero] at lower upper
    exact le_antisymm lower upper
  | succ count ih =>
    obtain ⟨w, least, greatest, low', high', -⟩ :=
      exists_split base wide (ones_nonneg base count) lower upper
    obtain ⟨digits, length, within, value⟩ := ih least greatest
    refine ⟨digits ++ [v - β * w], by simp [length],
      within_append_singleton.mpr ⟨within, low', high'⟩, ?_⟩
    rw [valueFrom_append, value]
    simp [valueFrom]

/-- Neighbouring values in that range are those of digits that differ in the last one only. -/
theorem exists_neighbours (base : 0 < β) (wide : β ≤ high - low) (count : Nat) {v : ℤ}
    (lower : low * ones β (count + 1) ≤ v) (upper : v < high * ones β (count + 1)) :
    ∃ (digits : List ℤ) (digit : ℤ), digits.length = count ∧ Within low high digits ∧
      low ≤ digit ∧ digit < high ∧ valueFrom β 0 (digits ++ [digit]) = v ∧
      valueFrom β 0 (digits ++ [digit + 1]) = v + 1 := by
  obtain ⟨w, least, greatest, low', -, short⟩ :=
    exists_split base wide (ones_nonneg base count) lower upper.le
  obtain ⟨digits, length, within, value⟩ := exists_digits base wide count least greatest
  refine ⟨digits, v - β * w, length, within, low', short upper, ?_, ?_⟩
  · rw [valueFrom_append, value]
    simp [valueFrom]
  · rw [valueFrom_append, value]
    simp only [valueFrom, List.foldl_cons, List.foldl_nil]
    ring

end Saps.SignedDigits
