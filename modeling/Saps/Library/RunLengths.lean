import Mathlib.Algebra.GroupWithZero.Nat

/-!
# Groups within maximal runs

A history of marks, the newest one first. A maximal run of marks is cut into groups of
`n`, and what is left over at its end counts for nothing. A counter that starts again
at every full group and at every gap counts them.
-/
namespace Saps.RunLengths

/-- The length of the run that is still going on. -/
def current (marks : List Bool) : Nat := (marks.takeWhile id).length

/-- The full groups of `n` in the maximal runs. -/
def groups (n : Nat) (marks : List Bool) : Nat :=
  ((marks.splitOn false).map fun run => run.length / n).sum

variable {n : Nat} {marks : List Bool}

@[simp] theorem current_gap : current (false :: marks) = 0 := rfl

@[simp] theorem current_mark : current (true :: marks) = current marks + 1 := rfl

theorem groups_nil : groups n [] = 0 := by simp [groups]

/-- The first piece between gaps is the run that is still going on. -/
theorem splitOn_head : (marks.splitOn false).head? = some (marks.takeWhile id) := by
  induction marks with
  | nil => rfl
  | cons mark marks ih =>
    rw [List.splitOn_cons_eq_if_modifyHead]
    cases mark with
    | false => rfl
    | true =>
      rw [if_neg (by decide), List.head?_modifyHead, ih]
      rfl

@[simp] theorem groups_gap : groups n (false :: marks) = groups n marks := by
  rw [groups, List.splitOn_cons_eq_if_modifyHead, if_pos (by decide)]
  simp [groups]

/-- One more mark fills a group or it does not. -/
theorem groups_mark :
    groups n (true :: marks) = groups n marks + if n ∣ current marks + 1 then 1 else 0 := by
  cases pieces : marks.splitOn false with
  | nil => exact absurd pieces (List.splitOn_ne_nil false marks)
  | cons run runs =>
    have going : run = marks.takeWhile id := by
      have head := @splitOn_head marks
      rw [pieces] at head
      exact Option.some.inj head
    have longer : (true :: marks).splitOn false = (true :: run) :: runs := by
      rw [List.splitOn_cons_eq_if_modifyHead, if_neg (by decide), pieces]
      rfl
    rw [groups, groups, longer, pieces, List.map_cons, List.map_cons, List.sum_cons, List.sum_cons,
      List.length_cons, Nat.succ_div, going, current]
    omega

/-! ### The counter -/

/-- The marks of the run that are in no full group yet. -/
def leftOver (n : Nat) (marks : List Bool) : Nat := current marks % n

theorem leftOver_lt (positive : 0 < n) : leftOver n marks < n := Nat.mod_lt _ positive

@[simp] theorem leftOver_gap : leftOver n (false :: marks) = 0 := Nat.zero_mod n

/-- A mark that makes a full group starts the counter again. -/
theorem mark_full (full : leftOver n marks + 1 = n) :
    leftOver n (true :: marks) = 0 ∧ groups n (true :: marks) = groups n marks + 1 := by
  have divides : n ∣ current marks + 1 := by
    refine ⟨current marks / n + 1, ?_⟩
    have parts := Nat.div_add_mod (current marks) n
    rw [leftOver] at full
    rw [Nat.mul_add, Nat.mul_one]
    omega
  refine ⟨Nat.mod_eq_zero_of_dvd divides, ?_⟩
  rw [groups_mark, if_pos divides]

theorem mark_counted (more : leftOver n marks + 1 < n) :
    leftOver n (true :: marks) = leftOver n marks + 1 ∧
      groups n (true :: marks) = groups n marks := by
  have next : (current marks + 1) % n = leftOver n marks + 1 := by
    rw [Nat.add_mod, Nat.mod_eq_of_lt (show 1 < n by omega)]
    exact Nat.mod_eq_of_lt more
  refine ⟨next, ?_⟩
  rw [groups_mark, if_neg, Nat.add_zero]
  intro divides
  rw [Nat.mod_eq_zero_of_dvd divides] at next
  omega

end Saps.RunLengths
