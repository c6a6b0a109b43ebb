import Mathlib.Algebra.Order.Field.Basic
import Mathlib.Tactic.FieldSimp
import Mathlib.Tactic.Linarith
import Mathlib.Tactic.Ring

/-!
# Uniform gaps

Independent trials, numbered from 1, each with a chance of its own, until one
succeeds. If the chances are `p / (c - n p)`, the number of the first success is
uniform.
-/
namespace Saps.UniformGaps

variable {K : Type} [Field K] [LinearOrder K]

/-- The chance that none of the first `n` trials succeeds. -/
def survives (chance : Nat → K) : Nat → K
  | 0 => 1
  | n + 1 => survives chance n * (1 - chance (n + 1))

/-- The chance that trial `n` is the first to succeed. -/
def gap (chance : Nat → K) (n : Nat) : K := survives chance (n - 1) * chance n

/-- Chances that are 0 before trial `first`, and then `p / (c - n p)` for as long as this is a
chance. -/
structure Harmonic (chance : Nat → K) (p c : K) (first : Nat) : Prop where
  positive : 0 < p
  one_le : 1 ≤ first
  inside : first * p < c
  zero : ∀ n, 1 ≤ n → n < first → chance n = 0
  early : ∀ n, first ≤ n → ((n : K) + 1) * p ≤ c → chance n = p / (c - n * p)
  late : ∀ n, first ≤ n → c < ((n : K) + 1) * p → chance n = 1

/-- The first success is equally likely at every trial from `first` on up to `c / p`, where it is
certain. -/
structure Uniform (chance : Nat → K) (p c : K) (first : Nat) : Prop where
  never : ∀ n, 1 ≤ n → n < first → gap chance n = 0
  equal : ∀ n, first ≤ n → ((n : K) + 1) * p ≤ c → gap chance n = p / (c - first * p)
  last : ∀ n : Nat, c < ((n : K) + 1) * p → n * p < c →
    gap chance n = (c - n * p) / (c - first * p)
  done : ∀ n : Nat, c ≤ n * p → gap chance n = 0
  total : ∀ n : Nat, c < ((n : K) + 1) * p → survives chance n = 0

namespace Harmonic

variable {chance : Nat → K} {p c : K} {first n : Nat}

theorem exists_before (harmonic : Harmonic chance p c first) (behind : first ≤ n) :
    ∃ before, n = before + 1 :=
  Nat.exists_eq_succ_of_ne_zero (by have := harmonic.one_le; omega)

theorem survives_before (harmonic : Harmonic chance p c first) (before : n < first) :
    survives chance n = 1 := by
  induction n with
  | zero => rfl
  | succ n ih =>
    rw [survives, ih (by omega), harmonic.zero (n + 1) (by omega) before, sub_zero, one_mul]

variable [IsStrictOrderedRing K]

theorem width (harmonic : Harmonic chance p c first) : 0 < c - first * p :=
  sub_pos.mpr harmonic.inside

/-- The trials multiply out, one numerator against the next denominator. -/
theorem survives_eq (harmonic : Harmonic chance p c first) (reached : first ≤ n + 1)
    (room : ((n : K) + 1) * p ≤ c) :
    survives chance n = (c - (n + 1) * p) / (c - first * p) := by
  have width := harmonic.width
  induction n with
  | zero =>
    have single : first = 1 := Nat.le_antisymm reached harmonic.one_le
    subst single
    simp only [survives, Nat.cast_zero, zero_add, Nat.cast_one]
    exact (div_self (by simpa using width.ne')).symm
  | succ n ih =>
    rw [Nat.cast_succ] at room ⊢
    have positive := harmonic.positive
    rcases Nat.lt_or_ge n.succ first with before | behind
    · -- the stretch begins with the next trial
      have same : first = n + 1 + 1 := by omega
      subst same
      rw [harmonic.survives_before before]
      push_cast at width ⊢
      exact (div_self width.ne').symm
    · have left : 0 < c - ((n : K) + 1) * p := by linarith
      have chance := harmonic.early (n + 1) behind (by rw [Nat.cast_succ]; exact room)
      rw [Nat.cast_succ] at chance
      rw [survives, ih behind (by linarith), chance]
      field_simp
      ring

theorem reached (harmonic : Harmonic chance p c first) (past : c ≤ n * p) : first < n := by
  have less : (first : K) * p < n * p := harmonic.inside.trans_le past
  exact_mod_cast lt_of_mul_lt_mul_right less harmonic.positive.le

theorem survives_zero (harmonic : Harmonic chance p c first) (past : c < ((n : K) + 1) * p) :
    survives chance n = 0 := by
  have behind : first < n + 1 := harmonic.reached (by exact_mod_cast past.le)
  obtain ⟨n, rfl⟩ := harmonic.exists_before (Nat.lt_succ_iff.mp behind)
  rw [survives, harmonic.late (n + 1) (Nat.lt_succ_iff.mp behind) past, sub_self, mul_zero]

theorem uniform (harmonic : Harmonic chance p c first) : Uniform chance p c first where
  never := by
    intro n one_le before
    rw [gap, harmonic.zero n one_le before, mul_zero]
  equal := by
    intro n behind room
    obtain ⟨n, rfl⟩ := harmonic.exists_before behind
    have positive := harmonic.positive
    rw [gap, harmonic.early _ behind room, Nat.add_sub_cancel]
    rw [Nat.cast_succ] at room ⊢
    have left : 0 < c - ((n : K) + 1) * p := by linarith
    have width := harmonic.width
    rw [harmonic.survives_eq behind (by linarith)]
    field_simp
  last := by
    intro n past room
    have behind : first ≤ n := Nat.lt_succ_iff.mp (harmonic.reached (by exact_mod_cast past.le))
    obtain ⟨n, rfl⟩ := harmonic.exists_before behind
    rw [gap, harmonic.late _ behind past, mul_one, Nat.add_sub_cancel]
    rw [Nat.cast_succ] at room ⊢
    exact harmonic.survives_eq behind room.le
  done := by
    intro n past
    have behind := harmonic.reached past
    obtain ⟨n, rfl⟩ := harmonic.exists_before behind.le
    rw [gap, Nat.add_sub_cancel]
    rw [Nat.cast_succ] at past
    rcases past.lt_or_eq with beyond | full
    · rw [harmonic.survives_zero beyond, zero_mul]
    · rw [harmonic.survives_eq behind.le full.ge, full, sub_self, zero_div, zero_mul]
  total := fun n past => harmonic.survives_zero past

end Harmonic

end Saps.UniformGaps
