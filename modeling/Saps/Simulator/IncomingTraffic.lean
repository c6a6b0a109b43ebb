import Mathlib.Algebra.Ring.Int.Defs
import Mathlib.Data.List.Induction
import Mathlib.Data.List.Nodup
import Mathlib.Logic.Function.Basic
import Saps.Library.History
import Saps.Library.Postings
import Saps.Library.SignedWord

/-!
# The incoming-traffic matrix

The three commands of `Simulator` that count the flows from leaf to leaf. The counts and
their sum are `int`s, which wrap around. An access outside the matrix has no result. The
commands compare their indices with `numLeafs_` only, so a negative one gets past them.
-/
namespace Saps.Simulator

open Postings
open SignedWord (wrap Fits)

structure IncomingTraffic where
  numLeafs : Nat := 0
  incomingTrafficPerLeaf : Int → Int → Int := fun _ _ => 0

inductive Command where
  /-- `initialize-incoming-traffic-matrix numLeafs`. -/
  | resize (numLeafs : Nat)
  /-- `update-incoming-traffic-matrix src_leaf dest_leaf change`. -/
  | update (srcLeaf destLeaf change : Int)
  /-- `get-incoming-traffic src_leaf dest_leaf`. -/
  | get (srcLeaf destLeaf : Int)
deriving DecidableEq, Repr

namespace IncomingTraffic

/-- A leaf of the matrix. -/
def Leaf (numLeafs : Nat) (leaf : Int) : Prop := 0 ≤ leaf ∧ leaf < numLeafs

instance (numLeafs : Nat) (leaf : Int) : Decidable (Leaf numLeafs leaf) :=
  inferInstanceAs (Decidable (_ ∧ _))

/-- `incomingTrafficPerLeaf[src_leaf][dest_leaf]`. -/
def element (s : IncomingTraffic) (srcLeaf destLeaf : Int) : Option Int :=
  if Leaf s.numLeafs srcLeaf ∧ Leaf s.numLeafs destLeaf then
    some (s.incomingTrafficPerLeaf srcLeaf destLeaf)
  else none

def initializeIncomingTrafficPerLeaf (numLeafs : Nat) : IncomingTraffic where
  numLeafs
  incomingTrafficPerLeaf := fun _ _ => 0

def updateIncomingTrafficMatrix (srcLeaf destLeaf change : Int) (s : IncomingTraffic) :
    Option IncomingTraffic :=
  if srcLeaf < s.numLeafs ∧ destLeaf < s.numLeafs then
    (s.element srcLeaf destLeaf).map fun count =>
      { s with
        incomingTrafficPerLeaf := Function.update s.incomingTrafficPerLeaf srcLeaf
          (Function.update (s.incomingTrafficPerLeaf srcLeaf) destLeaf
            (wrap 32 (count + change))) }
  else some s

def getIncomingTrafficToLeaf (srcLeaf destLeaf : Int) (s : IncomingTraffic) : Option Int :=
  if srcLeaf < s.numLeafs ∧ destLeaf < s.numLeafs then
    (List.range s.numLeafs).foldlM (fun (count : Int) (i : Nat) =>
      if (i : Int) ≠ srcLeaf ∧ (i : Int) ≠ destLeaf then
        (s.element i destLeaf).map fun traffic => wrap 32 (count + traffic)
      else some count) 0
  else some 0

/-- `command()`; a `get` leaves the matrix as it is. -/
def command (s : IncomingTraffic) : Command → Option IncomingTraffic
  | .resize numLeafs => some (initializeIncomingTrafficPerLeaf numLeafs)
  | .update srcLeaf destLeaf change => s.updateIncomingTrafficMatrix srcLeaf destLeaf change
  | .get srcLeaf destLeaf => (s.getIncomingTrafficToLeaf srcLeaf destLeaf).map fun _ => s

/-- The matrix after a sequence of commands, if no access was outside of it. -/
def after (commands : List Command) : Option IncomingTraffic :=
  commands.foldlM command {}

/-! ### What the commands recorded -/

/-- The size that the last initialisation asked for. -/
def numLeafsAfter (commands : List Command) : Nat :=
  commands.foldl (fun n c => match c with
    | .resize numLeafs => numLeafs
    | _ => n) 0

/-- The changes since the last initialisation, under their source and destination. -/
def changes (commands : List Command) : List ((Int × Int) × Int) :=
  commands.foldl (fun posted c => match c with
    | .resize _ => []
    | .update srcLeaf destLeaf change => posted ++ [((srcLeaf, destLeaf), change)]
    | .get _ _ => posted) []

/-- What the leaves other than these two were recorded to send to the second one. -/
def recorded (commands : List Command) (srcLeaf destLeaf : Int) : Int :=
  (((changes commands).filter fun posting =>
    Leaf (numLeafsAfter commands) posting.1.1 ∧ posting.1.2 = destLeaf ∧
      posting.1.1 ≠ srcLeaf ∧ posting.1.1 ≠ destLeaf).map Prod.snd).sum

/-- No negative index gets past the comparison with the size of the matrix. -/
def Guarded (numLeafs : Nat) : Command → Prop
  | .resize _ => True
  | .update srcLeaf destLeaf _ | .get srcLeaf destLeaf =>
    srcLeaf < numLeafs ∧ destLeaf < numLeafs → 0 ≤ srcLeaf ∧ 0 ≤ destLeaf

instance (numLeafs : Nat) : (c : Command) → Decidable (Guarded numLeafs c)
  | .resize _ => isTrue trivial
  | .update _ _ _ => inferInstanceAs (Decidable (_ → _))
  | .get _ _ => inferInstanceAs (Decidable (_ → _))

/-- Every command of the run is guarded by the size that it finds. -/
def AllGuarded (commands : List Command) : Prop :=
  ∀ earlier c later, commands = earlier ++ c :: later → Guarded (numLeafsAfter earlier) c

/-- The matrix says what was recorded, as far as an `int` can. -/
structure Exact (commands : List Command) (s : IncomingTraffic) : Prop where
  numLeafs : s.numLeafs = numLeafsAfter commands
  element : ∀ i j, Leaf s.numLeafs i → Leaf s.numLeafs j →
    s.incomingTrafficPerLeaf i j = wrap 32 (balance (changes commands) (i, j))

variable {commands : List Command} {s : IncomingTraffic} {srcLeaf destLeaf change : Int}

@[simp] theorem numLeafsAfter_update :
    numLeafsAfter (commands ++ [.update srcLeaf destLeaf change]) = numLeafsAfter commands := by
  simp [numLeafsAfter, List.foldl_append]

@[simp] theorem changes_update : changes (commands ++ [.update srcLeaf destLeaf change]) =
    changes commands ++ [((srcLeaf, destLeaf), change)] := by
  simp [changes, List.foldl_append]

/-! ### One command -/

theorem leaves_of_guarded {n : Nat} (guarded : Guarded n (.get srcLeaf destLeaf))
    (passed : srcLeaf < n ∧ destLeaf < n) : Leaf n srcLeaf ∧ Leaf n destLeaf :=
  ⟨⟨(guarded passed).1, passed.1⟩, (guarded passed).2, passed.2⟩

theorem update_leaves (src : Leaf s.numLeafs srcLeaf) (dest : Leaf s.numLeafs destLeaf) :
    s.updateIncomingTrafficMatrix srcLeaf destLeaf change = some { s with
      incomingTrafficPerLeaf := Function.update s.incomingTrafficPerLeaf srcLeaf
        (Function.update (s.incomingTrafficPerLeaf srcLeaf) destLeaf
          (wrap 32 (s.incomingTrafficPerLeaf srcLeaf destLeaf + change))) } := by
  rw [updateIncomingTrafficMatrix, if_pos ⟨src.2, dest.2⟩, IncomingTraffic.element,
    if_pos ⟨src, dest⟩]
  rfl

theorem update_outside (guarded : Guarded s.numLeafs (.update srcLeaf destLeaf change))
    (outside : ¬ (Leaf s.numLeafs srcLeaf ∧ Leaf s.numLeafs destLeaf)) :
    s.updateIncomingTrafficMatrix srcLeaf destLeaf change = some s := by
  rw [updateIncomingTrafficMatrix, if_neg fun passed => outside (leaves_of_guarded guarded passed)]

theorem get_outside (guarded : Guarded s.numLeafs (.get srcLeaf destLeaf))
    (outside : ¬ (Leaf s.numLeafs srcLeaf ∧ Leaf s.numLeafs destLeaf)) :
    s.getIncomingTrafficToLeaf srcLeaf destLeaf = some 0 := by
  rw [getIncomingTrafficToLeaf, if_neg fun passed => outside (leaves_of_guarded guarded passed)]

/-- The sources that a `get` adds up. -/
def sources (n : Nat) (srcLeaf destLeaf : Int) : List (Int × Int) :=
  ((List.range n).filter fun i : Nat => (i : Int) ≠ srcLeaf ∧ (i : Int) ≠ destLeaf).map
    fun i : Nat => ((i : Int), destLeaf)

theorem mem_sources {n : Nat} {key : Int × Int} : key ∈ sources n srcLeaf destLeaf ↔
    Leaf n key.1 ∧ key.2 = destLeaf ∧ key.1 ≠ srcLeaf ∧ key.1 ≠ destLeaf := by
  simp only [sources, List.mem_map, List.mem_filter, List.mem_range, decide_eq_true_eq, Leaf]
  constructor
  · rintro ⟨i, ⟨below, other⟩, rfl⟩
    exact ⟨⟨by omega, by omega⟩, rfl, other⟩
  · rintro ⟨⟨low, high⟩, dest, other⟩
    obtain ⟨i, same⟩ := Int.eq_ofNat_of_zero_le low
    refine ⟨i, ⟨by omega, same ▸ other⟩, ?_⟩
    rw [← same, ← dest]

theorem sources_nodup (n : Nat) : (sources n srcLeaf destLeaf).Nodup := by
  refine List.Nodup.map (fun i j same => ?_) (List.nodup_range.filter _)
  exact Int.ofNat.inj (congrArg Prod.fst same)

/-- The loop of a `get` adds the elements of its column. -/
theorem get_leaves (src : Leaf s.numLeafs srcLeaf) (dest : Leaf s.numLeafs destLeaf) :
    s.getIncomingTrafficToLeaf srcLeaf destLeaf =
      some (wrap 32 ((sources s.numLeafs srcLeaf destLeaf).map fun key =>
        s.incomingTrafficPerLeaf key.1 key.2).sum) := by
  rw [getIncomingTrafficToLeaf, if_pos ⟨src.2, dest.2⟩]
  -- after `n` turns the loop has added the sources below `n`
  suffices turns : ∀ n ≤ s.numLeafs, (List.range n).foldlM (fun (count : Int) (i : Nat) =>
      if (i : Int) ≠ srcLeaf ∧ (i : Int) ≠ destLeaf then
        (s.element i destLeaf).map fun traffic => wrap 32 (count + traffic)
      else some count) 0 = some (wrap 32 ((sources n srcLeaf destLeaf).map fun key =>
        s.incomingTrafficPerLeaf key.1 key.2).sum) from turns _ (Nat.le_refl _)
  intro n within
  induction n with
  | zero => rfl
  | succ n ih =>
    have there : Leaf s.numLeafs n ∧ Leaf s.numLeafs destLeaf :=
      ⟨⟨by omega, by omega⟩, dest⟩
    rw [sources, List.range_succ, List.foldlM_append, ih (by omega), List.filter_append,
      List.map_append, List.map_append, List.sum_append]
    by_cases other : (n : Int) ≠ srcLeaf ∧ (n : Int) ≠ destLeaf
    · simp [other, IncomingTraffic.element, there, sources]
    · simp [other, sources]

/-! ### Runs -/

theorem AllGuarded.of_append {c : Command} (guarded : AllGuarded (commands ++ [c])) :
    AllGuarded commands ∧ Guarded (numLeafsAfter commands) c := by
  refine ⟨fun earlier d later split => ?_, guarded commands c [] rfl⟩
  refine guarded earlier d (later ++ [c]) ?_
  rw [split, List.append_assoc, List.cons_append]

theorem allGuarded_nil : AllGuarded [] := by
  intro earlier c later split
  simp at split

theorem AllGuarded.append {c : Command} (guarded : AllGuarded commands)
    (now : Guarded (numLeafsAfter commands) c) : AllGuarded (commands ++ [c]) := by
  intro earlier d later split
  rcases History.append_singleton_eq split with ⟨-, rfl, rfl⟩ | ⟨rest, -, before⟩
  · exact now
  · exact guarded earlier d rest before

namespace Exact

theorem resize (numLeafs : Nat) :
    Exact (commands ++ [.resize numLeafs]) (initializeIncomingTrafficPerLeaf numLeafs) where
  numLeafs := by simp [numLeafsAfter, initializeIncomingTrafficPerLeaf]
  element := fun i j _ _ => by simp [changes, initializeIncomingTrafficPerLeaf]

theorem update_some (exact : Exact commands s) :
    Exact (commands ++ [.update srcLeaf destLeaf change]) { s with
      incomingTrafficPerLeaf := Function.update s.incomingTrafficPerLeaf srcLeaf
        (Function.update (s.incomingTrafficPerLeaf srcLeaf) destLeaf
          (wrap 32 (s.incomingTrafficPerLeaf srcLeaf destLeaf + change))) } where
  numLeafs := exact.numLeafs.trans numLeafsAfter_update.symm
  element := fun i j row column => by
    have before := exact.element i j row column
    rw [changes_update, balance_append_singleton]
    by_cases sameRow : i = srcLeaf
    · by_cases sameColumn : j = destLeaf
      -- what the cell lost before does not show in the new count
      · subst sameRow sameColumn
        simp [before]
      · subst sameRow
        simp [sameColumn, Ne.symm sameColumn, before]
    · simp [sameRow, Ne.symm sameRow, before]

/-- An update that the matrix does not show is not among the leaves. -/
theorem update_none (exact : Exact commands s)
    (outside : ¬ (Leaf s.numLeafs srcLeaf ∧ Leaf s.numLeafs destLeaf)) :
    Exact (commands ++ [.update srcLeaf destLeaf change]) s where
  numLeafs := exact.numLeafs.trans numLeafsAfter_update.symm
  element := fun i j row column => by
    have other : (srcLeaf, destLeaf) ≠ (i, j) := by
      rintro same
      cases same
      exact outside ⟨row, column⟩
    rw [changes_update, balance_append_singleton, if_neg other, add_zero]
    exact exact.element i j row column

theorem get_next (exact : Exact commands s) :
    Exact (commands ++ [.get srcLeaf destLeaf]) s where
  numLeafs := by
    rw [numLeafsAfter, List.foldl_append]
    exact exact.numLeafs
  element := fun i j row column => by
    rw [changes, List.foldl_append]
    exact exact.element i j row column

/-- A guarded command reads and writes inside the matrix, and leaves it exact. -/
theorem command (exact : Exact commands s) {c : Command}
    (guarded : Guarded (numLeafsAfter commands) c) :
    ∃ t, s.command c = some t ∧ Exact (commands ++ [c]) t := by
  rw [← exact.numLeafs] at guarded
  cases c with
  | resize numLeafs => exact ⟨_, rfl, resize numLeafs⟩
  | update srcLeaf destLeaf change =>
    by_cases inside : Leaf s.numLeafs srcLeaf ∧ Leaf s.numLeafs destLeaf
    · exact ⟨_, update_leaves inside.1 inside.2, exact.update_some⟩
    · exact ⟨s, update_outside guarded inside, exact.update_none inside⟩
  | get srcLeaf destLeaf =>
    refine ⟨s, ?_, exact.get_next⟩
    by_cases inside : Leaf s.numLeafs srcLeaf ∧ Leaf s.numLeafs destLeaf
    · rw [IncomingTraffic.command, get_leaves inside.1 inside.2]
      rfl
    · rw [IncomingTraffic.command, get_outside guarded inside]
      rfl

end Exact

theorem after_exact (guarded : AllGuarded commands) :
    ∃ s, after commands = some s ∧ Exact commands s := by
  induction commands using List.reverseRecOn with
  | nil => exact ⟨{}, rfl, rfl, fun i j _ _ => rfl⟩
  | append_singleton commands c ih =>
    obtain ⟨earlier, now⟩ := guarded.of_append
    obtain ⟨s, reached, exact⟩ := ih earlier
    obtain ⟨t, answer, next⟩ := exact.command now
    refine ⟨t, ?_, next⟩
    have chained : after (commands ++ [c]) = (after commands).bind (·.command c) := by
      rw [after, List.foldlM_append]
      simp [after]
    rw [chained, reached, Option.bind_some, answer]

theorem Exact.get_eq (exact : Exact commands s) (src : Leaf s.numLeafs srcLeaf)
    (dest : Leaf s.numLeafs destLeaf) :
    s.getIncomingTrafficToLeaf srcLeaf destLeaf =
      some (wrap 32 (recorded commands srcLeaf destLeaf)) := by
  have column : (sources s.numLeafs srcLeaf destLeaf).map (fun key =>
      s.incomingTrafficPerLeaf key.1 key.2) =
        (sources s.numLeafs srcLeaf destLeaf).map fun key =>
          wrap 32 (balance (changes commands) key) := by
    refine List.map_congr_left fun key listed => ?_
    obtain ⟨row, same, -⟩ := mem_sources.mp listed
    exact exact.element key.1 key.2 row (same ▸ dest)
  rw [get_leaves src dest, column, SignedWord.wrap_sum_map,
    sum_balance (sources_nodup s.numLeafs), recorded, ← exact.numLeafs]
  simp only [mem_sources]

/-- In a run of guarded commands no access is outside the matrix, a `get` of two leaves returns
what was recorded exactly when an `int` can hold it, and what is not among the leaves changes
nothing and gets nothing. -/
theorem incomingTraffic_exact (commands : List Command) (guarded : AllGuarded commands) :
    ∃ s, after commands = some s ∧
      (∀ srcLeaf destLeaf, Leaf (numLeafsAfter commands) srcLeaf →
        Leaf (numLeafsAfter commands) destLeaf →
          ∃ traffic, s.getIncomingTrafficToLeaf srcLeaf destLeaf = some traffic ∧
            (traffic = recorded commands srcLeaf destLeaf ↔
              Fits 32 (recorded commands srcLeaf destLeaf))) ∧
      ∀ srcLeaf destLeaf,
        ¬ (Leaf (numLeafsAfter commands) srcLeaf ∧ Leaf (numLeafsAfter commands) destLeaf) →
        Guarded (numLeafsAfter commands) (.get srcLeaf destLeaf) →
          s.getIncomingTrafficToLeaf srcLeaf destLeaf = some 0 ∧
            ∀ change, s.updateIncomingTrafficMatrix srcLeaf destLeaf change = some s := by
  obtain ⟨s, reached, exact⟩ := after_exact guarded
  refine ⟨s, reached, fun srcLeaf destLeaf src dest => ?_, fun srcLeaf destLeaf outside now => ?_⟩
  · rw [← exact.numLeafs] at src dest
    exact ⟨_, exact.get_eq src dest, SignedWord.wrap_eq_self_iff⟩
  · rw [← exact.numLeafs] at outside now
    exact ⟨get_outside now outside, fun change => update_outside now outside⟩

/-- A flow from leaf 1 is seen by a sender at leaf 0, one to a leaf that is not there is not. -/
theorem incomingTraffic_exact_threeLeafs : ∃ s,
    after [.resize 3, .update 0 2 5, .update 1 2 7, .update 5 2 1] = some s ∧
      s.getIncomingTrafficToLeaf 0 2 = some 7 := by
  have guarded : AllGuarded [.resize 3, .update 0 2 5, .update 1 2 7, .update 5 2 1] :=
    (((allGuarded_nil.append (c := .resize 3) trivial).append (by decide)).append
      (by decide)).append (by decide)
  obtain ⟨s, reached, exact, -⟩ := incomingTraffic_exact _ guarded
  obtain ⟨traffic, answer, fits⟩ := exact 0 2 (by decide) (by decide)
  obtain rfl : traffic = 7 := fits.mpr (by decide)
  exact ⟨s, reached, answer⟩

/-- A negative leaf is read outside the matrix, or gets the traffic of a whole column; and a count
that leaves the range of an `int` turns negative. -/
theorem negativeLeaf_passes : after [.resize 2, .update (-1) 0 1] = none ∧
    (after [.resize 2, .update 0 1 5]).bind (·.getIncomingTrafficToLeaf (-1) 1) = some 5 ∧
    (after [.resize 3, .update 0 2 5, .update 0 2 2147483647]).bind
      (·.getIncomingTrafficToLeaf 1 2) = some (-2147483644) :=
  ⟨rfl, rfl, by decide⟩

end IncomingTraffic

end Saps.Simulator
