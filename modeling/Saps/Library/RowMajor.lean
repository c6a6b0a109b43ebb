import Mathlib.Data.List.Nodup

/-!
# Row-major indices and nested loops

The index `i * n + j` of column `j` in row `i` of a table with `n` columns, and the lists
that nested counting loops build.
-/
namespace Saps.RowMajor

variable {α : Type} {m n i j i' j' x : Nat}

theorem index_lt (row : i < m) (column : j < n) : i * n + j < m * n := by
  calc i * n + j < i * n + n := Nat.add_lt_add_left column _
    _ = (i + 1) * n := (Nat.succ_mul i n).symm
    _ ≤ m * n := Nat.mul_le_mul_right n row

theorem div_index (column : j < n) : (i * n + j) / n = i := by
  rw [Nat.add_comm, Nat.add_mul_div_right _ _ (Nat.zero_lt_of_lt column),
    Nat.div_eq_of_lt column, Nat.zero_add]

theorem mod_index (column : j < n) : (i * n + j) % n = j := by
  rw [Nat.mul_add_mod_self_right, Nat.mod_eq_of_lt column]

/-- Row and column are determined by the index. -/
theorem index_inj (column : j < n) (column' : j' < n) (same : i * n + j = i' * n + j') :
    i = i' ∧ j = j' := by
  constructor
  · rw [← div_index (i := i) column, same, div_index column']
  · rw [← mod_index (i := i) column, same, mod_index column']

/-- Every number below the size of the table is the index of one of its places. -/
theorem exists_index (inside : x < m * n) : ∃ i < m, ∃ j < n, i * n + j = x := by
  have columns : 0 < n := Nat.pos_of_ne_zero (by rintro rfl; simp at inside)
  refine ⟨x / n, (Nat.div_lt_iff_lt_mul columns).mpr inside, x % n, Nat.mod_lt x columns, ?_⟩
  exact Nat.div_add_mod' x n

/-! ### Nested loops -/

/-- `for i < m, for j < n: body i j`. -/
def loops₂ (m n : Nat) (body : Nat → Nat → α) : List α :=
  (List.range m).flatMap fun i => (List.range n).map fun j => body i j

/-- `for i < m, for j < n, for k < l: body i j k`. -/
def loops₃ (m n l : Nat) (body : Nat → Nat → Nat → α) : List α :=
  (List.range m).flatMap fun i => loops₂ n l (body i)

variable {l : Nat} {body : Nat → Nat → α} {body₃ : Nat → Nat → Nat → α} {a : α}

theorem mem_loops₂ : a ∈ loops₂ m n body ↔ ∃ i < m, ∃ j < n, body i j = a := by
  simp [loops₂, List.mem_flatMap]

theorem mem_loops₃ :
    a ∈ loops₃ m n l body₃ ↔ ∃ i < m, ∃ j < n, ∃ k < l, body₃ i j k = a := by
  simp [loops₃, List.mem_flatMap, mem_loops₂]

/-- A loop whose rounds add nothing twice and share nothing adds nothing twice. -/
theorem nodup_rounds {round : Nat → List α} (own : ∀ i < m, (round i).Nodup)
    (apart : ∀ i < m, ∀ i' < m, ∀ a ∈ round i, a ∈ round i' → i = i') :
    ((List.range m).flatMap round).Nodup := by
  rw [List.nodup_flatMap]
  constructor
  · intro i listed
    exact own i (List.mem_range.mp listed)
  -- an entry of two rounds makes them the same round
  · apply List.nodup_range.imp_of_mem
    intro i i' listed listed' different a here there
    exact different
      (apart i (List.mem_range.mp listed) i' (List.mem_range.mp listed') a here there)

theorem nodup_loops₂
    (inj : ∀ i < m, ∀ j < n, ∀ i' < m, ∀ j' < n, body i j = body i' j' → i = i' ∧ j = j') :
    (loops₂ m n body).Nodup := by
  apply nodup_rounds
  · intro i row
    apply List.Nodup.map_on _ List.nodup_range
    intro j column j' column' same
    exact (inj i row j (List.mem_range.mp column) i row j' (List.mem_range.mp column') same).2
  · intro i row i' row' a here there
    obtain ⟨j, column, rfl⟩ := List.mem_map.mp here
    obtain ⟨j', column', same⟩ := List.mem_map.mp there
    exact (inj i row j (List.mem_range.mp column) i' row' j' (List.mem_range.mp column')
      same.symm).1

theorem nodup_loops₃ (inj : ∀ i < m, ∀ j < n, ∀ k < l, ∀ i' < m, ∀ j' < n, ∀ k' < l,
      body₃ i j k = body₃ i' j' k' → i = i' ∧ j = j' ∧ k = k') :
    (loops₃ m n l body₃).Nodup := by
  apply nodup_rounds
  · intro i row
    apply nodup_loops₂
    intro j hj k hk j' hj' k' hk' same
    exact (inj i row j hj k hk i row j' hj' k' hk' same).2
  · intro i row i' row' a here there
    obtain ⟨j, hj, k, hk, rfl⟩ := mem_loops₂.mp here
    obtain ⟨j', hj', k', hk', same⟩ := mem_loops₂.mp there
    exact (inj i row j hj k hk i' row' j' hj' k' hk' same.symm).1

end Saps.RowMajor
