import Saps.Classifier.MultiPath
import Saps.Library.CyclicRotation

/-!
# The probing loops

Where the loops of `classify()` stop, as first slots in use on the circle of
`maxslot_ + 1` slots. A loop whose `ns_` is one step ahead of `cl` looks at every slot
up to the one before its mark.
-/
namespace Saps.Classifier

open CyclicRotation MultiPathForwarder

variable {T τ : Type}

def usedAt (table : SlotTable T τ) (t : T) (i : Nat) : Bool := (table.slot t i).isSome

variable {table : SlotTable T τ} {t : T} {cl i ns r turns : Nat} {fail : Int}

theorem usedAt_iff : usedAt table t i = true ↔ table.slot t i ≠ none :=
  Option.isSome_iff_ne_none

theorem usedAt_eq_false_iff : usedAt table t i = false ↔ table.slot t i = none :=
  Option.isSome_eq_false_iff.trans Option.isNone_iff_eq_none

theorem paths_pos (some : ∃ i, table.slot t i ≠ none) : 0 < paths table t := by
  obtain ⟨s, used⟩ := some
  exact (Nat.zero_le s).trans_lt (lt_paths used)

/-- From anywhere on the circle there is a first slot in use. -/
theorem exists_firstUsed (some : ∃ i, table.slot t i ≠ none) (inside : i < paths table t) :
    ∃ r, First (paths table t) (usedAt table t) i r := by
  obtain ⟨s, used⟩ := some
  exact exists_first inside ⟨s, lt_paths used, usedAt_iff.mpr used⟩

theorem inUse_eq (inside : i < paths table t) : inUse table t i = some (usedAt table t i) := by
  have there := table.maxslot_lt_nslot t
  rw [paths] at inside
  rw [inUse, if_pos ⟨by omega, by omega⟩]
  rfl

theorem slot_of_inUse (unused : inUse table t i = some false) : table.slot t i = none := by
  rw [inUse] at unused
  split_ifs at unused
  exact usedAt_eq_false_iff.mp (Option.some.inj unused)

theorem advance_eq (positive : 0 < paths table t) :
    advance table t ns = some (((ns + 1) % paths table t : Nat) : Int) := by
  rw [advance, if_neg positive.ne', Int.tmod_eq_emod_of_nonneg (by omega)]
  rfl

theorem spin_stop {cl ns : Int} {used : Bool} (looked : inUse table t cl = some used)
    (stops : used = true ∨ ns = fail) : spin table t fail (turns + 1) cl ns = some (cl, ns) := by
  rcases stops with rfl | rfl
  · simp [spin, looked]
  · simp [spin, looked]

theorem spin_go {cl ns after : Int} (unused : inUse table t cl = some false) (ahead : ns ≠ fail)
    (next : advance table t ns = some after) :
    spin table t fail (turns + 1) cl ns = spin table t fail turns ns after := by
  simp [spin, unused, ahead, next]

/-- A loop whose `ns_` is one step ahead stops at the first slot that is in use or before the
mark. -/
theorem spin_eq {d : Nat} (inside : cl < paths table t)
    (unused : ∀ e < d, usedAt table t ((cl + e) % paths table t) = false)
    (ahead : ∀ e < d, (((cl + e + 1) % paths table t : Nat) : Int) ≠ fail)
    (stops : usedAt table t ((cl + d) % paths table t) = true ∨
      (((cl + d + 1) % paths table t : Nat) : Int) = fail) (enough : d < turns) :
    spin table t fail turns cl ((cl + 1) % paths table t : Nat) =
      some ((((cl + d) % paths table t : Nat) : Int),
        (((cl + d + 1) % paths table t : Nat) : Int)) := by
  have positive : 0 < paths table t := by omega
  -- `d` is how many slots the loop still passes
  induction d generalizing cl turns with
  | zero =>
    obtain ⟨turns, rfl⟩ : ∃ more, turns = more + 1 := ⟨turns - 1, by omega⟩
    simp only [Nat.add_zero, Nat.mod_eq_of_lt inside] at stops ⊢
    exact spin_stop (inUse_eq inside) stops
  | succ d ih =>
    obtain ⟨turns, rfl⟩ : ∃ more, turns = more + 1 := ⟨turns - 1, by omega⟩
    have here := unused 0 (by omega)
    rw [Nat.add_zero, Nat.mod_eq_of_lt inside] at here
    have looked : inUse table t cl = some false := by rw [inUse_eq inside, here]
    -- the rest of the loop counts its steps from the next slot
    have shift (e : Nat) : ((cl + 1) % paths table t + e) % paths table t =
        (cl + (e + 1)) % paths table t := by
      rw [Nat.mod_add_mod, Nat.add_assoc, Nat.add_comm 1]
    have one : spin table t fail (turns + 1) cl ((cl + 1) % paths table t : Nat) =
        spin table t fail turns ((cl + 1) % paths table t : Nat)
          (((cl + 1) % paths table t + 1) % paths table t : Nat) :=
      spin_go looked (ahead 0 (by omega)) (advance_eq positive)
    have rest := @ih ((cl + 1) % paths table t) turns (Nat.mod_lt _ positive)
      (fun e early => by rw [shift]; exact unused (e + 1) (by omega))
      (fun e early => by rw [Nat.add_assoc, shift]; exact ahead (e + 1) (by omega))
      (by rw [Nat.add_assoc, shift, shift]; exact stops) (by omega)
    rw [one, rest, Nat.add_assoc, shift d, shift (d + 1)]
    rfl

/-- With the mark at its start or off the circle, such a loop goes all the way round. -/
theorem spin_first (inside : cl < paths table t)
    (first : First (paths table t) (usedAt table t) cl r)
    (apart : ∀ e, e + 1 < paths table t → (((cl + e + 1) % paths table t : Nat) : Int) ≠ fail)
    (enough : paths table t ≤ turns) :
    spin table t fail turns cl ((cl + 1) % paths table t : Nat) =
      some ((r : Int), (((r + 1) % paths table t : Nat) : Int)) := by
  obtain ⟨d, below, rfl, unused⟩ := first.reached
  rw [spin_eq inside unused (fun e early => apart e (by omega)) (.inl first.marked) (by omega),
    Nat.mod_add_mod]

/-- The loop for full failures starts with its mark at its own slot. -/
theorem spin_self (inside : i < paths table t)
    (first : First (paths table t) (usedAt table t) i r) :
    (spin table t i (paths table t + 2) i (i + 1)).map Prod.fst = some (r : Int) := by
  cases used : usedAt table t i with
  | true =>
    rw [spin_stop (inUse_eq inside) (.inl used), first.unique inside (First.here inside used)]
    rfl
  | false =>
    -- the last slot is in use, so `ns_` need not wrap
    have last : table.slot t (table.maxslot t).toNat ≠ none := by
      refine table.slot_maxslot t ?_
      rw [paths] at inside
      omega
    have other : i ≠ (table.maxslot t).toNat := by
      rintro rfl
      exact last (usedAt_eq_false_iff.mp used)
    have ahead : (i : Int) + 1 = ((i + 1) % paths table t : Nat) := by
      rw [Nat.mod_eq_of_lt (by rw [paths] at inside ⊢; omega), Nat.cast_succ]
    rw [ahead, spin_first inside first (fun e early => ?_) (by omega)]
    · rfl
    · rw [Ne, Nat.cast_inj, Nat.add_assoc]
      exact turn_ne inside early

/-- The loop that stops at a slot in use only. -/
theorem nextInUse_first (inside : i < paths table t)
    (first : First (paths table t) (usedAt table t) i r) :
    nextInUse table t i = some (r : Int) := by
  have there := table.maxslot_lt_nslot t
  have range : (0 : Int) ≤ i ∧ (i : Int) < table.nslot t := by
    rw [paths] at inside
    omega
  have found : CyclicSearch.search (paths table t) (fun i => (table.slot t i).isSome)
      (paths table t + 1) i = some r := CyclicSearch.search_more (first.search_eq inside)
  rw [nextInUse, if_pos range, Int.toNat_natCast, found]
  rfl

theorem nextInUse_self (used : table.slot t i ≠ none) : nextInUse table t i = some (i : Int) :=
  nextInUse_first (lt_paths used) (First.here (lt_paths used) (usedAt_iff.mpr used))

theorem nextInUse_next (some : ∃ i, table.slot t i ≠ none) (unused : inUse table t i = .some false)
    (first : First (paths table t) (usedAt table t) ((i + 1) % paths table t) r) :
    nextInUse table t i = Option.some (r : Int) := by
  have there : (0 : Int) ≤ i ∧ (i : Int) < table.nslot t := by
    by_contra out
    rw [inUse, if_neg out] at unused
    cases unused
  have empty : ¬(table.slot t i).isSome = true := by simp [slot_of_inUse unused]
  have found : CyclicSearch.search (paths table t) (fun i => (table.slot t i).isSome)
      (paths table t) ((i + 1) % paths table t) = Option.some r :=
    first.search_eq (Nat.mod_lt _ (paths_pos some))
  -- the first look is at the empty slot, which need not be on the circle
  rw [nextInUse, if_pos there, Int.toNat_natCast, CyclicSearch.search, if_neg empty, found]
  rfl

end Saps.Classifier
