import Mathlib.Data.Int.Log
import Mathlib.Data.Rat.Floor
import Mathlib.Tactic.FieldSimp
import Mathlib.Tactic.Linarith

/-!
# Rounding to a binary significand

The number with a significand of so many bits that is nearest to a rational, the even one
of two that are as near. The exponent has no bounds.
-/
namespace Saps.NearestEven

/-- The integer nearest to `x`, the even one if there are two. -/
def roundEven (x : ℚ) : Int :=
  if x - ⌊x⌋ < 1 / 2 then ⌊x⌋
  else if x - ⌊x⌋ > 1 / 2 then ⌊x⌋ + 1
  else ⌊x⌋ + ⌊x⌋ % 2

/-- The distance of the significands next to `q`. -/
def ulp (bits : Nat) (q : ℚ) : ℚ := 2 ^ (Int.log 2 |q| + 1 - bits)

def nearest (bits : Nat) (q : ℚ) : ℚ := roundEven (q / ulp bits q) * ulp bits q

/-- A number with a significand of so many bits. -/
def Representable (bits : Nat) (r : ℚ) : Prop := ∃ m k : Int, |m| < 2 ^ bits ∧ r = m * 2 ^ k

variable {bits : Nat} {q r x : ℚ} {n : Int}

theorem floor_le_roundEven (x : ℚ) : ⌊x⌋ ≤ roundEven x := by
  have parity := Int.emod_nonneg ⌊x⌋ (show (2 : Int) ≠ 0 by decide)
  simp only [roundEven]
  split_ifs <;> omega

theorem le_roundEven (above : n ≤ x) : n ≤ roundEven x :=
  (Int.le_floor.mpr above).trans (floor_le_roundEven x)

theorem roundEven_le (below : x ≤ n) : roundEven x ≤ n := by
  have floor : ⌊x⌋ ≤ n := Int.floor_le_iff.mpr (by linarith)
  rcases floor.lt_or_eq with inside | edge
  · have parity := Int.emod_lt_of_pos ⌊x⌋ (show (0 : Int) < 2 by decide)
    simp only [roundEven]
    split_ifs <;> omega
  · -- on the integer itself nothing is rounded
    have whole : x - ⌊x⌋ < 1 / 2 := by
      rw [edge]
      linarith
    rw [roundEven, if_pos whole, edge]

theorem ulp_pos (bits : Nat) (q : ℚ) : 0 < ulp bits q := zpow_pos (by norm_num) _

/-- A number above the binade below `q` is a whole number of the distances. -/
theorem exists_ulps (representable : Representable bits r)
    (large : 2 ^ Int.log 2 |q| ≤ r) : ∃ n : Int, r = n * ulp bits q := by
  obtain ⟨m, k, short, rfl⟩ := representable
  have fine : Int.log 2 |q| + 1 - bits ≤ k := by
    by_contra coarse
    have power : (0 : ℚ) < 2 ^ k := zpow_pos (by norm_num) k
    have short : (m : ℚ) < 2 ^ bits := by exact_mod_cast (le_abs_self m).trans_lt short
    have small : (m : ℚ) * 2 ^ k < 2 ^ Int.log 2 |q| :=
      calc (m : ℚ) * 2 ^ k < 2 ^ bits * 2 ^ k := mul_lt_mul_of_pos_right short power
        _ = 2 ^ ((bits : Int) + k) := by rw [zpow_add₀ (by norm_num), zpow_natCast]
        _ ≤ 2 ^ Int.log 2 |q| := zpow_le_zpow_right₀ (by norm_num) (by omega)
    exact absurd large small.not_ge
  obtain ⟨d, rfl⟩ := Int.exists_add_of_le fine
  refine ⟨m * 2 ^ d, ?_⟩
  rw [ulp, zpow_add₀ (by norm_num), zpow_natCast]
  push_cast
  ring

theorem binade_le (positive : 0 < q) : 2 ^ Int.log 2 |q| ≤ q := by
  rw [abs_of_pos positive]
  exact_mod_cast Int.zpow_log_le_self (R := ℚ) one_lt_two positive

/-- Rounding does not get past a number that needs none. -/
theorem nearest_le (positive : 0 < q) (representable : Representable bits r) (below : q ≤ r) :
    nearest bits q ≤ r := by
  have distance := ulp_pos bits q
  obtain ⟨n, rfl⟩ := exists_ulps representable ((binade_le positive).trans below)
  rw [nearest]
  refine mul_le_mul_of_nonneg_right ?_ distance.le
  exact_mod_cast roundEven_le ((div_le_iff₀ distance).mpr below)

theorem le_nearest (positive : 0 < q) (representable : Representable bits r) (enough : 0 < bits)
    (above : r ≤ q) : r ≤ nearest bits q := by
  have distance := ulp_pos bits q
  -- what lies below the binade of `q` lies below its first number, too
  have least : (2 : ℚ) ^ Int.log 2 |q| = (2 ^ (bits - 1) : Int) * ulp bits q := by
    have exponent : Int.log 2 |q| = ((bits - 1 : Nat) : Int) + (Int.log 2 |q| + 1 - bits) := by omega
    rw [ulp]
    conv_lhs => rw [exponent]
    rw [zpow_add₀ (by norm_num), zpow_natCast]
    push_cast
    rfl
  have rounds (n : Int) (under : n * ulp bits q ≤ q) : n * ulp bits q ≤ nearest bits q := by
    rw [nearest]
    refine mul_le_mul_of_nonneg_right ?_ distance.le
    exact_mod_cast le_roundEven ((le_div_iff₀ distance).mpr under)
  rcases le_total (2 ^ Int.log 2 |q|) r with large | small
  · obtain ⟨n, rfl⟩ := exists_ulps representable large
    exact rounds n above
  · have first := rounds (2 ^ (bits - 1)) (least ▸ binade_le positive)
    rw [← least] at first
    exact small.trans first

/-- A rounded number is beyond one that needs no rounding if it was before, and is not rounded to
that one. -/
theorem lt_nearest_iff (positive : 0 < q) (representable : Representable bits r)
    (enough : 0 < bits) : r < nearest bits q ↔ r < q ∧ nearest bits q ≠ r := by
  constructor
  · intro beyond
    exact ⟨lt_of_not_ge fun below => (nearest_le positive representable below).not_gt beyond,
      beyond.ne'⟩
  · rintro ⟨beyond, apart⟩
    exact lt_of_le_of_ne (le_nearest positive representable enough beyond.le) apart.symm

end Saps.NearestEven
