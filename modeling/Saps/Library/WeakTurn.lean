import Saps.Library.CountUpdate
import Saps.Library.CyclicSearch
import Mathlib.Data.Int.CardIntervalMod
import Mathlib.Data.Nat.Periodic

/-!
# A rotation in which one member waits for its turn

The rotation behind weighted flowcell spraying, free of packets: members
`0 … n-1` are served in cyclic order, except that the weak member `p` is passed
over unless the round number meets the current `due` mark, which then moves on by
`r + 1` rounds. With `r = (n-1) * R` the weak member is meant to be served once and
every other member `R` times in each `r + 1` consecutive rounds.
-/
namespace Saps.WeakTurn

open CyclicSearch (next_eq)

/-- Who was served last, and the round in which the weak member is due. -/
structure Turn where
  last : Nat
  due : Nat
deriving DecidableEq, Repr

/-- Round `j`. -/
def step (n p r j : Nat) (t : Turn) : Turn :=
  if (t.last + 1) % n = p then
    if j % t.due = 0 then { last := p, due := t.due + 1 + r }
    else { t with last := (p + 1) % n }
  else { t with last := (t.last + 1) % n }

/-- The rotation before round `j`. -/
def rotation (n p r : Nat) : Nat → Turn
  | 0 => { last := n - 1, due := r }
  | j + 1 => step n p r j (rotation n p r j)

/-- Who is served in round `j`. -/
def served (n p r j : Nat) : Nat := (rotation n p r (j + 1)).last

variable {n p r R : Nat}

theorem step_pass {j last due : Nat} (other : (last + 1) % n ≠ p) :
    step n p r j ⟨last, due⟩ = ⟨(last + 1) % n, due⟩ :=
  if_neg other

theorem step_skip {j last due : Nat} (weak : (last + 1) % n = p) (early : j % due ≠ 0) :
    step n p r j ⟨last, due⟩ = ⟨(p + 1) % n, due⟩ := by
  simp [step, weak, early]

theorem step_serve {j last due : Nat} (weak : (last + 1) % n = p) (now : j % due = 0) :
    step n p r j ⟨last, due⟩ = ⟨p, due + 1 + r⟩ := by
  simp [step, weak, now]

theorem due_pos (positive : 0 < r) (j : Nat) : 0 < (rotation n p r j).due := by
  induction j with
  | zero => exact positive
  | succ j ih =>
    rw [rotation, step]
    split_ifs
    · exact Nat.lt_add_right r (Nat.succ_pos _)
    · exact ih
    · exact ih

/-- The strong member with the given rank. -/
def skip (p x : Nat) : Nat := if x < p then x else x + 1

end Saps.WeakTurn
