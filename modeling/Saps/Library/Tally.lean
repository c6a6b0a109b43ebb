import Mathlib.Algebra.BigOperators.Group.List.Basic
import Saps.Library.Postings

/-!
# Tallies over a log

A tally adds up a quantity over the entries of a log that belong to a class, as an
accumulator does that one branch of a loop over the log advances.
-/
namespace Saps.Tally

open Postings

variable {α κ M : Type} [AddCommMonoid M]

def tally (p : α → Bool) (f : α → M) (log : List α) : M :=
  ((log.filter p).map f).sum

/-- The number of entries of a class. -/
abbrev count (p : α → Bool) (log : List α) : Nat :=
  tally p (fun _ => 1) log

variable {p q r : α → Bool} {f : α → M} {log : List α} {entry : α}

@[simp] theorem tally_nil : tally p f [] = 0 := rfl

theorem tally_cons : tally p f (entry :: log) =
    (if p entry then f entry else 0) + tally p f log := by
  cases own : p entry <;> simp [tally, own]

theorem tally_append_singleton : tally p f (log ++ [entry]) =
    tally p f log + if p entry then f entry else 0 := by
  cases own : p entry <;> simp [tally, own]

theorem count_eq_countP : count p log = log.countP p := by
  simp [count, tally, List.countP_eq_length_filter]

/-- A class has a member where its count is positive. -/
theorem count_pos_iff : 0 < count p log ↔ ∃ entry ∈ log, p entry := by
  rw [count_eq_countP, List.countP_pos_iff]

/-- A class without a member has nothing to add up. -/
theorem tally_eq_zero (none : count p log = 0) : tally p f log = 0 := by
  have empty : log.filter p = [] := by
    rw [count_eq_countP, List.countP_eq_length_filter] at none
    exact List.eq_nil_of_length_eq_zero none
  simp [tally, empty]

/-- Two classes that share no entry add up to their union. -/
theorem tally_add (union : ∀ entry, r entry = (p entry || q entry))
    (disjoint : ∀ entry, p entry = true → q entry = false) :
    tally p f log + tally q f log = tally r f log := by
  induction log with
  | nil => simp
  | cons entry log ih =>
    rw [tally_cons, tally_cons, tally_cons, add_add_add_comm, ih, union]
    -- the entry is in one of the two classes or in neither
    cases inP : p entry with
    | false => simp
    | true => simp [disjoint entry inP]

/-- The tally of a class under one key is what the class posted under it. -/
theorem tally_key [DecidableEq κ] (key : α → κ) (k : κ) :
    tally (fun entry => p entry && decide (key entry = k)) f log =
      balance ((log.filter p).map fun entry => (key entry, f entry)) k := by
  simp [tally, balance, List.filter_map, List.filter_filter, Function.comp_def, Bool.and_comm]

/-- The tallies of a class under distinct keys add up to its tally when they cover the log. -/
theorem sum_tally_key [DecidableEq κ] {keys : List κ} (distinct : keys.Nodup) (key : α → κ)
    (covered : ∀ entry ∈ log, key entry ∈ keys) :
    (keys.map fun k => tally (fun entry => p entry && decide (key entry = k)) f log).sum =
      tally p f log := by
  simp only [tally_key, sum_balance distinct]
  -- what the class posted is all under the keys
  rw [List.filter_eq_self.mpr]
  · simp [tally, Function.comp_def]
  · intro posting posted
    obtain ⟨entry, member, rfl⟩ := List.mem_map.mp posted
    simpa using covered entry (List.mem_filter.mp member).1

end Saps.Tally
