import Mathlib.Data.Int.CardIntervalMod
import Saps.Library.CountUpdate
import Saps.Library.CyclicSearch

/-!
# Rotations that stop at marked positions

A rotation goes round a circle of `n` positions and stops at the marked ones. The
marked positions are numbered from 0 on (`rank`); a turn leads to the next number,
modulo how many there are. What a stretch of turns gives to each position follows.
-/
namespace Saps.CyclicRotation

open CyclicSearch

/-- `r` is the first marked position from `i` on, going round the circle. -/
structure First (n : Nat) (p : Nat → Bool) (i r : Nat) : Prop where
  marked : p r = true
  reached : ∃ d < n, r = (i + d) % n ∧ ∀ e < d, p ((i + e) % n) = false

/-- The number of marked positions below `i`. -/
def rank (p : Nat → Bool) (i : Nat) : Nat := i.count fun s => p s = true

variable {n : Nat} {p : Nat → Bool} {i r s : Nat}

/-- Less than a walk leads to every position in one way only. -/
theorem offset_injective {a b : Nat} (ha : a < n) (hb : b < n)
    (same : (i + a) % n = (i + b) % n) : a = b := by
  have cancelled : a ≡ b [MOD n] := Nat.ModEq.add_left_cancel' i same
  rwa [Nat.ModEq, Nat.mod_eq_of_lt ha, Nat.mod_eq_of_lt hb] at cancelled

/-- Less than a walk leads elsewhere. -/
theorem turn_ne {e : Nat} (inside : i < n) (early : e + 1 < n) : (i + (e + 1)) % n ≠ i := by
  intro same
  have here : (i + 0) % n = i := Nat.mod_eq_of_lt inside
  have none : e + 1 = 0 := offset_injective early (by omega) (same.trans here.symm)
  omega

theorem First.lt (first : First n p i r) : r < n := by
  obtain ⟨d, below, rfl, -⟩ := first.reached
  exact Nat.mod_lt _ (by omega)

/-- A marked position is the first one from itself on. -/
theorem First.here (inside : i < n) (marked : p i = true) : First n p i i :=
  ⟨marked, 0, by omega, by rw [Nat.add_zero, Nat.mod_eq_of_lt inside],
    fun _ early => absurd early (Nat.not_lt_zero _)⟩

/-- From an unmarked position the search goes on at the next one. -/
theorem first_of_search {looks : Nat} (inside : i < n) (within : looks ≤ n)
    (found : search n p looks i = some r) : First n p i r := by
  suffices reached : ∃ d < looks, r = (i + d) % n ∧ ∀ e < d, p ((i + e) % n) = false by
    obtain ⟨d, below, place, unmarked⟩ := reached
    exact ⟨search_eq_some found, d, by omega, place, unmarked⟩
  -- the bound on the looks is in the way of the induction on them
  clear within
  induction looks generalizing i with
  | zero => cases found
  | succ looks ih =>
    simp only [search] at found
    split at found
    · cases found
      exact ⟨0, by omega, by rw [Nat.add_zero, Nat.mod_eq_of_lt inside],
        fun _ early => absurd early (Nat.not_lt_zero _)⟩
    next unmarked =>
      obtain ⟨d, below, place, before⟩ := ih (Nat.mod_lt _ (by omega)) found
      -- the walk from the next position is one step longer from here
      refine ⟨d + 1, by omega, ?_, fun e early => ?_⟩
      · rw [place, Nat.mod_add_mod, Nat.add_assoc, Nat.add_comm 1]
      · cases e with
        | zero =>
          rw [Nat.add_zero, Nat.mod_eq_of_lt inside]
          simpa using unmarked
        | succ e =>
          have later := before e (by omega)
          rwa [Nat.mod_add_mod, Nat.add_assoc, Nat.add_comm 1] at later

theorem exists_first (inside : i < n) (some : ∃ s < n, p s = true) : ∃ r, First n p i r := by
  cases found : search n p n i with
  | some r => exact ⟨r, first_of_search inside le_rfl found⟩
  | none =>
    obtain ⟨s, below, marked⟩ := some
    rw [(search_eq_none_iff inside).mp found s below] at marked
    cases marked

/-! ### Numbers of marked positions -/

theorem rank_lt (below : s < n) (marked : p s = true) : rank p s < rank p n :=
  Nat.count_strict_mono (p := fun s => p s = true) marked below

theorem rank_injective (marked : p r = true) (marked' : p s = true) (same : rank p r = rank p s) :
    r = s :=
  Nat.count_injective (p := fun s => p s = true) marked marked' same

/-- Going on by one position passes one number if the position is marked. -/
theorem rank_next (inside : i < n) :
    rank p ((i + 1) % n) ≡ rank p i + (if p i then 1 else 0) [MOD rank p n] := by
  have passed : rank p (i + 1) = rank p i + if p i then 1 else 0 := Nat.count_succ _ i
  rw [next_eq inside, ← passed]
  split
  next last =>
    -- the numbers start again where they end
    rw [last]
    exact (Nat.modEq_zero_iff_dvd.mpr dvd_rfl).symm
  · rfl

theorem First.rank_eq (inside : i < n) (first : First n p i r) :
    rank p r = rank p i % rank p n := by
  obtain ⟨d, -, place, unmarked⟩ := first.reached
  have kept : ∀ e ≤ d, rank p ((i + e) % n) ≡ rank p i [MOD rank p n] := by
    intro e upto
    induction e with
    | zero => rw [Nat.add_zero, Nat.mod_eq_of_lt inside]
    | succ e ih =>
      have passed := @rank_next n p ((i + e) % n) (Nat.mod_lt _ (by omega))
      rw [unmarked e (by omega), Nat.mod_add_mod] at passed
      exact passed.trans (ih (by omega))
  have same := kept d le_rfl
  rw [← place] at same
  rwa [Nat.ModEq, Nat.mod_eq_of_lt (rank_lt first.lt first.marked)] at same

theorem First.unique (inside : i < n) (first : First n p i r) (other : First n p i s) : r = s :=
  rank_injective first.marked other.marked
    ((first.rank_eq inside).trans (other.rank_eq inside).symm)

/-- One walk round the circle finds the first marked position. -/
theorem First.search_eq (inside : i < n) (first : First n p i r) : search n p n i = some r := by
  cases found : search n p n i with
  | some s => rw [first.unique inside (first_of_search inside le_rfl found)]
  | none =>
    have unmarked := (search_eq_none_iff inside).mp found r first.lt
    rw [first.marked] at unmarked
    cases unmarked

/-! ### The turns of a rotation -/

variable {pick : Nat → Nat} {turns : Nat}

/-- Turn `k` leads from where turn `k - 1` stopped to the first marked position behind it. -/
def Rotates (n : Nat) (p : Nat → Bool) (pick : Nat → Nat) (turns : Nat) : Prop :=
  ∀ k < turns, First n p ((pick k + 1) % n) (pick (k + 1))

theorem Rotates.rank_pick (rotates : Rotates n p pick turns) {k : Nat} (before : k < turns) :
    rank p (pick (k + 1)) = (rank p ((pick 0 + 1) % n) + k) % rank p n := by
  have positive : 0 < n := (Nat.zero_le _).trans_lt (rotates k before).lt
  induction k with
  | zero =>
    rw [Nat.add_zero]
    exact (rotates 0 before).rank_eq (Nat.mod_lt _ positive)
  | succ k ih =>
    have earlier := rotates k (by omega)
    have passed := @rank_next n p (pick (k + 1)) earlier.lt
    rw [earlier.marked, if_pos rfl, ih (by omega)] at passed
    rw [(rotates (k + 1) before).rank_eq (Nat.mod_lt _ positive), passed, Nat.mod_add_mod,
      Nat.add_assoc]

/-- Which turns lead to a position. -/
theorem Rotates.pick_eq_iff (rotates : Rotates n p pick turns) {k : Nat} (before : k < turns)
    (marked : p s = true) :
    pick (k + 1) = s ↔ (rank p ((pick 0 + 1) % n) + k) % rank p n = rank p s := by
  rw [← rotates.rank_pick before]
  constructor
  · rintro rfl
    rfl
  · exact rank_injective (rotates k before).marked marked

/-- How often a residue comes up among consecutive numbers. -/
theorem count_residue {m v : Nat} (below : v < m) (c N : Nat) :
    ∃ w, N.count (fun k => (c + k) % m = v) = N / m + if w < N % m then 1 else 0 := by
  have residue : ∀ k, (c + k) % m = v ↔ k ≡ v + (m - c % m) [MOD m] := by
    intro k
    have wraps : c % m + (v + (m - c % m)) = v + m := by
      have low := Nat.mod_lt c (show 0 < m by omega)
      omega
    have shifted : c % m + k ≡ c % m + (v + (m - c % m)) [MOD m] ↔ (c + k) % m = v := by
      rw [wraps, Nat.ModEq, Nat.mod_add_mod, Nat.add_mod_right, Nat.mod_eq_of_lt below]
    rw [← shifted]
    exact ⟨Nat.ModEq.add_left_cancel' _, Nat.ModEq.add_left _⟩
  refine ⟨(v + (m - c % m)) % m, ?_⟩
  rw [← Nat.count_modEq_card N (by omega)]
  simp only [residue]

theorem Rotates.count_eq (rotates : Rotates n p pick turns) (below : s < n)
    (marked : p s = true) :
    ∃ w, turns.count (fun k => pick (k + 1) = s) =
      turns / rank p n + if w < turns % rank p n then 1 else 0 := by
  rw [CountUpdate.count_congr fun k before => rotates.pick_eq_iff before marked]
  exact count_residue (rank_lt below marked) _ turns

/-- In a stretch of whole rounds each marked position has one turn a round. -/
theorem Rotates.whole_rounds {R : Nat} (rotates : Rotates n p pick (R * rank p n))
    (below : s < n) (marked : p s = true) :
    (R * rank p n).count (fun k => pick (k + 1) = s) = R := by
  have some : 0 < rank p n := (Nat.zero_le _).trans_lt (rank_lt below marked)
  obtain ⟨w, count⟩ := rotates.count_eq below marked
  rw [count, Nat.mul_div_cancel _ some, Nat.mul_mod_left, if_neg (Nat.not_lt_zero w)]
  rfl

/-- In any stretch two marked positions have the same number of turns, up to one. -/
theorem Rotates.fair (rotates : Rotates n p pick turns) {t : Nat} (below : s < n)
    (marked : p s = true) (below' : t < n) (marked' : p t = true) :
    turns.count (fun k => pick (k + 1) = s) ≤ turns.count (fun k => pick (k + 1) = t) + 1 := by
  obtain ⟨w, count⟩ := rotates.count_eq below marked
  obtain ⟨w', count'⟩ := rotates.count_eq below' marked'
  rw [count, count']
  split_ifs <;> omega

end Saps.CyclicRotation
