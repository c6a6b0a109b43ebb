import Mathlib.Algebra.BigOperators.Group.List.Basic

/-!
# Amounts posted under keys

A list of postings, each an amount under a key. The balance of a key is the sum of what
was posted under it, and the balances of several keys add up to what was posted under
any of them.
-/
namespace Saps.Postings

variable {κ α : Type} [DecidableEq κ] [AddCommMonoid α]

def balance (posted : List (κ × α)) (key : κ) : α :=
  ((posted.filter fun posting => posting.1 = key).map Prod.snd).sum

variable {posted : List (κ × α)} {key : κ} {posting : κ × α}

@[simp] theorem balance_nil : balance ([] : List (κ × α)) key = 0 := rfl

theorem balance_cons : balance (posting :: posted) key =
    (if posting.1 = key then posting.2 else 0) + balance posted key := by
  by_cases own : posting.1 = key <;> simp [balance, own]

theorem balance_append_singleton : balance (posted ++ [posting]) key =
    balance posted key + if posting.1 = key then posting.2 else 0 := by
  by_cases own : posting.1 = key <;> simp [balance, own]

/-- One posting reaches the balance of one key. -/
theorem sum_ite_eq {keys : List κ} (distinct : keys.Nodup) (own : κ) (amount : α) :
    (keys.map fun key => if own = key then amount else 0).sum =
      if own ∈ keys then amount else 0 := by
  induction keys with
  | nil => rfl
  | cons key keys ih =>
    obtain ⟨absent, rest⟩ := List.nodup_cons.mp distinct
    rw [List.map_cons, List.sum_cons, ih rest]
    by_cases here : own = key
    · subst here
      simp [absent]
    · simp [here]

/-- The balances of distinct keys add up to what was posted under them. -/
theorem sum_balance {keys : List κ} (distinct : keys.Nodup) (posted : List (κ × α)) :
    (keys.map fun key => balance posted key).sum =
      ((posted.filter fun posting => posting.1 ∈ keys).map Prod.snd).sum := by
  induction posted with
  | nil => simp
  | cons posting posted ih =>
    simp only [balance_cons, List.sum_map_add, sum_ite_eq distinct, ih]
    by_cases listed : posting.1 ∈ keys <;> simp [listed]

end Saps.Postings
