import Mathlib.Data.List.Range

/-!
# What a computation that may fail can end in

A postcondition for `Except`: which faults are allowed, and what holds of an answer.
-/
namespace Saps.Outcome

variable {ε α β : Type}

/-- Only allowed faults, and only answers with the property. -/
def Ends (allowed : ε → Prop) (post : α → Prop) : Except ε α → Prop
  | .error fault => allowed fault
  | .ok a => post a

namespace Ends

variable {allowed : ε → Prop} {post : α → Prop} {x : Except ε α}

theorem of_ok {a : α} (ends : Ends allowed post x) (answer : x = .ok a) : post a := by
  rw [answer] at ends
  exact ends

theorem of_error {fault : ε} (ends : Ends allowed post x) (fails : x = .error fault) :
    allowed fault := by
  rw [fails] at ends
  exact ends

/-- Every computation ends in some way. -/
theorem any (x : Except ε α) : Ends (fun _ => True) (fun _ => True) x := by
  cases x <;> trivial

theorem mono {weaker : α → Prop} (ends : Ends allowed post x)
    (implied : ∀ a, post a → weaker a) : Ends allowed weaker x := by
  cases x with
  | error fault => exact ends
  | ok a => exact implied a ends

theorem allow {wider : ε → Prop} (ends : Ends allowed post x)
    (implied : ∀ fault, allowed fault → wider fault) : Ends wider post x := by
  cases x with
  | error fault => exact implied fault ends
  | ok a => exact ends

theorem bind {goal : β → Prop} {f : α → Except ε β} (first : Ends allowed post x)
    (rest : ∀ a, post a → Ends allowed goal (f a)) : Ends allowed goal (x >>= f) := by
  cases x with
  | error fault => exact first
  | ok a => exact rest a first

/-- The rule for a computation that goes on with the very answer it got. -/
theorem bind_known {goal : β → Prop} {f : α → Except ε β} (first : Ends allowed post x)
    (rest : ∀ a, x = .ok a → Ends allowed goal (f a)) : Ends allowed goal (x >>= f) := by
  cases x with
  | error fault => exact first
  | ok a => exact rest a rfl

/-- The rule for a loop over a list. -/
theorem foldlM {f : α → β → Except ε α} {xs : List β} {a : α} (initial : post a)
    (round : ∀ a b, post a → Ends allowed post (f a b)) : Ends allowed post (xs.foldlM f a) := by
  induction xs generalizing a with
  | nil => exact initial
  | cons b xs ih =>
    rw [List.foldlM_cons]
    exact (round a b initial).bind fun next holds => ih holds

/-- The rule for a loop that counts its rounds. -/
theorem foldlM_range {inv : Nat → α → Prop} {f : α → Nat → Except ε α} {a : α} {n : Nat}
    (initial : inv 0 a) (round : ∀ m < n, ∀ a, inv m a → Ends allowed (inv (m + 1)) (f a m)) :
    Ends allowed (inv n) ((List.range n).foldlM f a) := by
  induction n with
  | zero => exact initial
  | succ n ih =>
    rw [List.range_succ, List.foldlM_append]
    have earlier := ih fun m before => round m (Nat.lt_succ_of_lt before)
    refine earlier.bind fun a holds => ?_
    rw [List.foldlM_cons]
    exact (round n (Nat.lt_succ_self n) a holds).bind fun next holds => holds

end Ends

end Saps.Outcome
