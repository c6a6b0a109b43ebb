import Mathlib.Data.Nat.Count
import Mathlib.Logic.Function.Basic

/-!
# Counting the places where a property holds
-/
namespace Saps.CountUpdate

theorem count_congr {p q : Nat → Prop} [DecidablePred p] [DecidablePred q] {n : Nat}
    (same : ∀ x < n, p x ↔ q x) : n.count p = n.count q :=
  Nat.le_antisymm (Nat.count_mono_left fun x hx => (same x hx).mp)
    (Nat.count_mono_left fun x hx => (same x hx).mpr)

theorem count_add_count_not (p : Nat → Prop) [DecidablePred p] (n : Nat) :
    n.count p + n.count (fun x => ¬p x) = n := by
  induction n with
  | zero => rfl
  | succ n ih =>
    rw [Nat.count_succ, Nat.count_succ]
    by_cases holds : p n <;> simp [holds] <;> omega

/-- Changing the entry at `s` moves the count of entries that satisfy `q` by what the
old and the new entry contribute. -/
theorem count_update {γ : Type} (q : γ → Prop) [DecidablePred q] (table : Nat → γ) (s : Nat)
    (v : γ) {n : Nat} (inside : s < n) :
    n.count (fun x => q (Function.update table s v x)) + (if q (table s) then 1 else 0) =
      n.count (fun x => q (table x)) + (if q v then 1 else 0) := by
  induction n with
  | zero => omega
  | succ n ih =>
    rw [Nat.count_succ, Nat.count_succ]
    rcases Nat.lt_or_eq_of_le (Nat.le_of_lt_succ inside) with earlier | rfl
    · have rest := ih earlier
      rw [Function.update_of_ne (by omega)]
      omega
    -- the last place is the changed one, and those before it are as they were
    · have same : s.count (fun x => q (Function.update table s v x)) =
          s.count (fun x => q (table x)) := by
        apply count_congr
        intro x hx
        rw [Function.update_of_ne (by omega)]
      rw [same, Function.update_self]
      omega

end Saps.CountUpdate
