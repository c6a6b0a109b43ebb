import Mathlib.Data.Nat.Notation

/-!
# Searching a circle of positions

Positions `0 … n-1` are visited in cyclic order from a given one until a marked
position is met. The search carries a bound on its looks; `n` looks are enough,
because the circle has then been walked once.
-/
namespace Saps.CyclicSearch

/-- The cyclic successor, by cases on the last position. -/
theorem next_eq {n i : Nat} (inside : i < n) : (i + 1) % n = if i + 1 = n then 0 else i + 1 := by
  split
  next last => rw [last, Nat.mod_self]
  · exact Nat.mod_eq_of_lt (by omega)

/-- Look at `i` and then at its cyclic successors, at most `looks` times. -/
def search (n : Nat) (p : Nat → Bool) : Nat → Nat → Option Nat
  | 0, _ => none
  | looks + 1, i => if p i then some i else search n p looks ((i + 1) % n)

theorem search_eq_some {n : Nat} {p : Nat → Bool} {looks i r : Nat}
    (found : search n p looks i = some r) : p r = true := by
  induction looks generalizing i with
  | zero => simp [search] at found
  | succ looks ih =>
    simp only [search] at found
    split at found
    next marked => cases found; exact marked
    · exact ih found

theorem search_lt {n : Nat} {p : Nat → Bool} {looks i r : Nat} (inside : i < n)
    (found : search n p looks i = some r) : r < n := by
  induction looks generalizing i with
  | zero => simp [search] at found
  | succ looks ih =>
    simp only [search] at found
    split at found
    · cases found; exact inside
    · exact ih (Nat.mod_lt _ (by omega)) found

/-- No bound helps when nothing is marked: the unbounded search never ends. -/
theorem search_eq_none_of_unmarked {n : Nat} {p : Nat → Bool} {i : Nat} (inside : i < n)
    (unmarked : ∀ s < n, p s = false) (looks : Nat) : search n p looks i = none := by
  induction looks generalizing i with
  | zero => rfl
  | succ looks ih =>
    simp only [search, unmarked i inside, Bool.false_eq_true, if_false]
    exact ih (Nat.mod_lt _ (by omega))

/-- A failed search has looked at `looks` consecutive positions of the circle. -/
theorem unmarked_of_search_eq_none {n : Nat} {p : Nat → Bool} {looks i : Nat} (inside : i < n)
    (missed : search n p looks i = none) : ∀ d < looks, p ((i + d) % n) = false := by
  induction looks generalizing i with
  | zero => intro d hd; omega
  | succ looks ih =>
    simp only [search] at missed
    split at missed
    · cases missed
    next unmarked =>
      intro d hd
      cases d with
      | zero =>
        rw [Nat.add_zero, Nat.mod_eq_of_lt inside]
        simpa using unmarked
      | succ d =>
        have later := ih (Nat.mod_lt _ (by omega)) missed d (by omega)
        rw [Nat.mod_add_mod] at later
        rwa [show i + (d + 1) = i + 1 + d by omega]

/-- Every position of the circle is less than a walk away. -/
theorem exists_offset {n i s : Nat} (inside : i < n) (below : s < n) :
    ∃ d < n, s = (i + d) % n := by
  rcases Nat.lt_or_ge s i with behind | ahead
  · refine ⟨s + n - i, by omega, ?_⟩
    rw [show i + (s + n - i) = s + n by omega, Nat.add_mod_right, Nat.mod_eq_of_lt below]
  · refine ⟨s - i, by omega, ?_⟩
    rw [show i + (s - i) = s by omega, Nat.mod_eq_of_lt below]

/-- A search that walks the whole circle misses nothing. -/
theorem unmarked_of_walk {n : Nat} {p : Nat → Bool} {looks i : Nat} (inside : i < n)
    (enough : n ≤ looks) (missed : search n p looks i = none) : ∀ s < n, p s = false := by
  intro s below
  obtain ⟨d, within, rfl⟩ := exists_offset inside below
  exact unmarked_of_search_eq_none inside missed d (by omega)

/-- One walk round the circle misses exactly when nothing on it is marked. -/
theorem search_eq_none_iff {n : Nat} {p : Nat → Bool} {i : Nat} (inside : i < n) :
    search n p n i = none ↔ ∀ s < n, p s = false := by
  constructor
  · exact unmarked_of_walk inside (Nat.le_refl n)
  · intro unmarked
    exact search_eq_none_of_unmarked inside unmarked n

/-- More looks do not change what is found. -/
theorem search_more {n : Nat} {p : Nat → Bool} {looks i r : Nat}
    (found : search n p looks i = some r) : search n p (looks + 1) i = some r := by
  induction looks generalizing i with
  | zero => cases found
  | succ looks ih =>
    rw [search] at found ⊢
    split at found
    next marked => rw [if_pos marked, found]
    next unmarked =>
      rw [if_neg unmarked]
      exact ih found

end Saps.CyclicSearch
