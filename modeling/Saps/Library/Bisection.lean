import Mathlib.Data.Nat.Notation

/-!
# Bisection

The loop that halves an interval until one place is left, on a test that says
whether the place looked for lies behind a given one. The test may be undefined
somewhere. The loop carries a bound on its turns; as many as the interval has
places are enough.
-/
namespace Saps.Bisection

/-- Halve the places from `lo` to `hi`, for at most the given number of turns. -/
def search (behind : Nat → Option Bool) : Nat → Nat → Nat → Option Nat
  | 0, lo, _ => some lo
  | turns + 1, lo, hi =>
    if lo < hi then
      (behind ((lo + hi) / 2)).bind fun right =>
        if right then search behind turns ((lo + hi) / 2 + 1) hi
        else search behind turns lo ((lo + hi) / 2)
    else some lo

variable {behind : Nat → Option Bool} {turns : Nat}

/-- The places before the one found that were looked at are behind it, and it is not. -/
structure Found (behind : Nat → Option Bool) (lo hi place : Nat) : Prop where
  lo_le : lo ≤ place
  le_hi : place ≤ hi
  before : lo < place → behind (place - 1) = some true
  here : place < hi → behind place = some false

/-- A test defined on the whole interval finds a boundary, whatever it says elsewhere. -/
theorem search_found (lo hi : Nat) (within : lo ≤ hi) (enough : hi - lo ≤ turns)
    (defined : ∀ i, lo ≤ i → i < hi → (behind i).isSome) :
    ∃ place, search behind turns lo hi = some place ∧ Found behind lo hi place := by
  -- one half of the interval is left after each turn
  induction turns generalizing lo hi with
  | zero =>
    obtain rfl : lo = hi := by omega
    exact ⟨lo, rfl, Nat.le_refl _, Nat.le_refl _, fun empty => absurd empty (Nat.lt_irrefl _),
      fun empty => absurd empty (Nat.lt_irrefl _)⟩
  | succ turns ih =>
    simp only [search]
    split
    next proper =>
      obtain ⟨right, tested⟩ := Option.isSome_iff_exists.mp
        (defined ((lo + hi) / 2) (by omega) (by omega))
      simp only [tested, Option.bind_some]
      cases right with
      | true =>
        obtain ⟨place, found, spec⟩ := ih ((lo + hi) / 2 + 1) hi (by omega)
          (by omega) fun i low high => defined i (by omega) high
        refine ⟨place, found, ?_, spec.le_hi, fun _ => ?_, spec.here⟩
        · have := spec.lo_le
          omega
        · rcases Nat.eq_or_lt_of_le spec.lo_le with first | later
          · rw [← first]
            exact tested
          · exact spec.before later
      | false =>
        obtain ⟨place, found, spec⟩ := ih lo ((lo + hi) / 2) (by omega)
          (by omega) fun i low high => defined i low (by omega)
        refine ⟨place, found, spec.lo_le, ?_, spec.before, fun _ => ?_⟩
        · have := spec.le_hi
          omega
        · rcases Nat.eq_or_lt_of_le spec.le_hi with last | earlier
          · rw [last]
            exact tested
          · exact spec.here earlier
    next empty =>
      obtain rfl : lo = hi := by omega
      exact ⟨lo, rfl, Nat.le_refl _, Nat.le_refl _, fun empty => absurd empty (Nat.lt_irrefl _),
        fun empty => absurd empty (Nat.lt_irrefl _)⟩

end Saps.Bisection
