import Mathlib.Init

/-!
# Output until a fault

A program prints one line for each statement it runs, and a statement that fails ends it.
What it printed before stays.
-/
namespace Saps.UntilFault

variable {ε α : Type} {statements : List (Except ε α)}

/-- What the statements print before the first of them that fails. -/
def printed : List (Except ε α) → List α
  | [] => []
  | .error _ :: _ => []
  | .ok line :: rest => line :: printed rest

/-- A line is printed where every statement up to it succeeds. -/
theorem printed_getElem?_iff {k : Nat} {line : α} : (printed statements)[k]? = some line ↔
    statements[k]? = some (.ok line) ∧
      ∀ j < k, ∃ earlier, statements[j]? = some (.ok earlier) := by
  induction statements generalizing k with
  | nil => simp [printed]
  | cons statement rest ih =>
    cases statement with
    | error fault =>
      cases k with
      | zero => simp [printed]
      | succ k =>
        -- behind a fault nothing is printed, and not every statement before succeeds
        simp only [printed, List.getElem?_nil, List.getElem?_cons_succ]
        constructor
        · intro impossible
          cases impossible
        · rintro ⟨_, earlier⟩
          obtain ⟨line, first⟩ := earlier 0 (Nat.zero_lt_succ k)
          cases first
    | ok first =>
      cases k with
      | zero => simp [printed]
      | succ k =>
        simp only [printed, List.getElem?_cons_succ, ih]
        constructor
        · rintro ⟨here, earlier⟩
          refine ⟨here, fun j before => ?_⟩
          cases j with
          | zero => exact ⟨first, rfl⟩
          | succ j => exact earlier j (Nat.lt_of_succ_lt_succ before)
        · rintro ⟨here, earlier⟩
          exact ⟨here, fun j before => earlier (j + 1) (Nat.succ_lt_succ before)⟩

end Saps.UntilFault
