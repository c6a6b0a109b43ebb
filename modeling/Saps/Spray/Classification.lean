import Saps.Spray.Config
import Saps.Library.CountUpdate

/-!
# The failure classification loop

The first packet of a flow sorts the spines into five sets, one listed failure at
a time. Below the loop as the source runs it, the sets are shown to stand for one
table that gives every spine a class, and each failure to move the class of its
own spine by a fixed rule (`SpineClass.absorb`).
-/
namespace Saps.Spray

variable (cfg : SprayConfig)

/-- A direct failure on a spine that no direct failure has hit yet. -/
def classifyFirstDirect (t : SpineSets) (f : FailedLink) : SpineSets :=
  let t := { t with
    svtNoFailure := Function.update t.svtNoFailure f.spine (-1)
    svtDaNoFailure := Function.update t.svtDaNoFailure f.spine (-1)
    numDirectFailures := t.numDirectFailures + 1 }
  let t :=
    if f.failureRatio = 100 then
      { t with
        fullFailureSpines := Function.update t.fullFailureSpines f.spine 1
        numDirectFullFailurePaths := t.numDirectFullFailurePaths + 1 }
    else
      { t with
        svtPartialFailure := Function.update t.svtPartialFailure f.spine 1
        numDirectPartialFailurePaths := t.numDirectPartialFailurePaths + 1 }
  -- a spine known from an indirect failure is taken out of the DA sets again
  if t.svtDaPartialFailure f.spine = 1 then
    { t with
      svtDaPartialFailure := Function.update t.svtDaPartialFailure f.spine (-1)
      numIndirectPartialFailurePaths := t.numIndirectPartialFailurePaths - 1 }
  else if t.svtDaFullFailure f.spine = 1 then
    { t with
      svtDaFullFailure := Function.update t.svtDaFullFailure f.spine (-1)
      numIndirectFullFailurePaths := t.numIndirectFullFailurePaths - 1 }
  else t

/-- Another direct failure on the same spine: only a full one changes anything. -/
def classifySameSpine (t : SpineSets) (f : FailedLink) : SpineSets :=
  if f.failureRatio = 100 then
    if t.fullFailureSpines f.spine ≠ 1 then
      let t := { t with
        fullFailureSpines := Function.update t.fullFailureSpines f.spine 1
        numDirectFullFailurePaths := t.numDirectFullFailurePaths + 1 }
      -- the full failure takes the place of an earlier partial one
      if t.svtPartialFailure f.spine = 1 then
        { t with
          svtPartialFailure := Function.update t.svtPartialFailure f.spine (-1)
          numDirectPartialFailurePaths := t.numDirectPartialFailurePaths - 1 }
      else t
    else t
  else t

/-- A failure at some other leaf. -/
def classifyIndirect (t : SpineSets) (f : FailedLink) : SpineSets :=
  -- a spine keeps its direct failure, and the first of its indirect ones
  if t.svtNoFailure f.spine = -1 then t
  else if t.svtDaNoFailure f.spine = -1 then t
  else
    let t :=
      if f.failureRatio = 100 then
        { t with
          svtDaFullFailure := Function.update t.svtDaFullFailure f.spine 1
          numIndirectFullFailurePaths := t.numIndirectFullFailurePaths + 1 }
      else
        { t with
          svtDaPartialFailure := Function.update t.svtDaPartialFailure f.spine 1
          numIndirectPartialFailurePaths := t.numIndirectPartialFailurePaths + 1 }
    { t with svtDaNoFailure := Function.update t.svtDaNoFailure f.spine (-1) }

/-- One round of the loop over `failedLinks`. -/
def classifyFailure (t : SpineSets) (f : FailedLink) : SpineSets :=
  if cfg.direct f then
    if t.svtNoFailure f.spine = 1 then classifyFirstDirect t f else classifySameSpine t f
  else classifyIndirect t f

/-- The loop over a failure list. -/
def classify (fs : List FailedLink) : SpineSets :=
  fs.foldl (classifyFailure cfg) .initial

/-! ### The abstract table -/

/-- What the listed failures mean for one leaf pair on one spine. -/
inductive SpineClass where
  | clean
  | indirectPartial
  | indirectFull
  | directPartial
  | directFull
deriving DecidableEq, Repr

namespace SpineClass

/-- Some direct failure is on the spine. -/
def isDirect : SpineClass → Bool
  | directPartial | directFull => true
  | _ => false

/-- The class of a spine after one more failure on it. -/
def absorb (isDirectFailure isFullFailure : Bool) (c : SpineClass) : SpineClass :=
  -- direct failures outrank indirect ones, full ones outrank partial ones among the direct
  if isDirectFailure then
    if isFullFailure || c = directFull then directFull else directPartial
  else if c = clean then
    if isFullFailure then indirectFull else indirectPartial
  else c

end SpineClass

/-- One failure's effect on the table. -/
def absorbFailure (c : Nat → SpineClass) (f : FailedLink) : Nat → SpineClass :=
  Function.update c f.spine ((c f.spine).absorb (cfg.direct f) (decide (f.failureRatio = 100)))

/-- The table of a failure list. -/
def classOf (fs : List FailedLink) : Nat → SpineClass :=
  fs.foldl (absorbFailure cfg) fun _ => .clean

theorem classOf_append (fs : List FailedLink) (f : FailedLink) :
    classOf cfg (fs ++ [f]) = absorbFailure cfg (classOf cfg fs) f := by
  simp [classOf]

theorem classify_append (fs : List FailedLink) (f : FailedLink) :
    classify cfg (fs ++ [f]) = classifyFailure cfg (classify cfg fs) f := by
  simp [classify]

/-! ### The loop refines the table -/

/-- The number of spines below `n` in the class. -/
def classCount (n : Nat) (c : Nat → SpineClass) (k : SpineClass) : Int :=
  (n.count fun s => c s = k : Nat)

/-- The five sets and five counters say what the table says. -/
structure Represents (n : Nat) (c : Nat → SpineClass) (t : SpineSets) : Prop where
  noFailure : ∀ s, t.svtNoFailure s = if (c s).isDirect then -1 else 1
  partialFailure : ∀ s, t.svtPartialFailure s = if c s = .directPartial then 1 else -1
  fullFailure : ∀ s, t.fullFailureSpines s = if c s = .directFull then 1 else -1
  daPartialFailure : ∀ s, t.svtDaPartialFailure s = if c s = .indirectPartial then 1 else -1
  daFullFailure : ∀ s, t.svtDaFullFailure s = if c s = .indirectFull then 1 else -1
  daNoFailure : ∀ s, t.svtDaNoFailure s = if c s = .clean then 1 else -1
  numDirect : t.numDirectFailures =
    classCount n c .directPartial + classCount n c .directFull
  numDirectPartial : t.numDirectPartialFailurePaths = classCount n c .directPartial
  numDirectFull : t.numDirectFullFailurePaths = classCount n c .directFull
  numIndirectPartial : t.numIndirectPartialFailurePaths = classCount n c .indirectPartial
  numIndirectFull : t.numIndirectFullFailurePaths = classCount n c .indirectFull

theorem represents_initial (n : Nat) : Represents n (fun _ => .clean) .initial := by
  constructor <;> simp [SpineSets.initial, SpineClass.isDirect, classCount]

/-- Reclassifying one spine moves it from one count to another. -/
theorem classCount_update {n s : Nat} (inside : s < n) (c : Nat → SpineClass)
    (v k : SpineClass) :
    classCount n (Function.update c s v) k =
      classCount n c k - (if c s = k then 1 else 0) + (if v = k then 1 else 0) := by
  have moved := CountUpdate.count_update (fun x => x = k) c s v inside
  simp only [classCount]
  split_ifs at moved ⊢ <;> omega

/-- The record that changes only what a new class for spine `s` has to change. -/
def SpineSets.reclassify (t : SpineSets) (s : Nat) (old new : SpineClass) : SpineSets where
  svtNoFailure := Function.update t.svtNoFailure s (if new.isDirect then -1 else 1)
  svtPartialFailure := Function.update t.svtPartialFailure s
    (if new = .directPartial then 1 else -1)
  fullFailureSpines := Function.update t.fullFailureSpines s (if new = .directFull then 1 else -1)
  svtDaPartialFailure := Function.update t.svtDaPartialFailure s
    (if new = .indirectPartial then 1 else -1)
  svtDaFullFailure := Function.update t.svtDaFullFailure s (if new = .indirectFull then 1 else -1)
  svtDaNoFailure := Function.update t.svtDaNoFailure s (if new = .clean then 1 else -1)
  numDirectFailures := t.numDirectFailures -
    (if old.isDirect then 1 else 0) + (if new.isDirect then 1 else 0)
  numDirectPartialFailurePaths := t.numDirectPartialFailurePaths -
    (if old = .directPartial then 1 else 0) + (if new = .directPartial then 1 else 0)
  numDirectFullFailurePaths := t.numDirectFullFailurePaths -
    (if old = .directFull then 1 else 0) + (if new = .directFull then 1 else 0)
  numIndirectPartialFailurePaths := t.numIndirectPartialFailurePaths -
    (if old = .indirectPartial then 1 else 0) + (if new = .indirectPartial then 1 else 0)
  numIndirectFullFailurePaths := t.numIndirectFullFailurePaths -
    (if old = .indirectFull then 1 else 0) + (if new = .indirectFull then 1 else 0)

private theorem update_table {δ : Type} (g : SpineClass → δ) {a : Nat → δ} {c : Nat → SpineClass}
    (pointwise : ∀ x, a x = g (c x)) (s : Nat) (v : SpineClass) (x : Nat) :
    Function.update a s (g v) x = g (Function.update c s v x) := by
  by_cases same : x = s
  · subst same
    simp
  · simp [Function.update_of_ne same, pointwise]

theorem Represents.reclassify {n s : Nat} {c : Nat → SpineClass} {t : SpineSets}
    (h : Represents n c t) (inside : s < n) (v : SpineClass) :
    Represents n (Function.update c s v) (t.reclassify s (c s) v) where
  noFailure := update_table (fun k => if k.isDirect then -1 else 1) h.noFailure s v
  partialFailure := update_table (fun k => if k = .directPartial then 1 else -1)
    h.partialFailure s v
  fullFailure := update_table (fun k => if k = .directFull then 1 else -1) h.fullFailure s v
  daPartialFailure := update_table (fun k => if k = .indirectPartial then 1 else -1)
    h.daPartialFailure s v
  daFullFailure := update_table (fun k => if k = .indirectFull then 1 else -1) h.daFullFailure s v
  daNoFailure := update_table (fun k => if k = .clean then 1 else -1) h.daNoFailure s v
  numDirect := by
    rw [classCount_update inside, classCount_update inside]
    simp only [SpineSets.reclassify, h.numDirect]
    -- the one counter that adds up two classes
    cases c s <;> cases v <;> simp [SpineClass.isDirect] <;> omega
  numDirectPartial := by
    rw [classCount_update inside, ← h.numDirectPartial]
    rfl
  numDirectFull := by
    rw [classCount_update inside, ← h.numDirectFull]
    rfl
  numIndirectPartial := by
    rw [classCount_update inside, ← h.numIndirectPartial]
    rfl
  numIndirectFull := by
    rw [classCount_update inside, ← h.numIndirectFull]
    rfl

/-- One round of the loop is the table's rule for that failure. -/
theorem classifyFailure_eq {n : Nat} {c : Nat → SpineClass} {t : SpineSets}
    (h : Represents n c t) (f : FailedLink) :
    classifyFailure cfg t f =
      t.reclassify f.spine (c f.spine)
        ((c f.spine).absorb (cfg.direct f) (decide (f.failureRatio = 100))) := by
  have noFailure := h.noFailure f.spine
  have partialFailure := h.partialFailure f.spine
  have fullFailure := h.fullFailure f.spine
  have daPartial := h.daPartialFailure f.spine
  have daFull := h.daFullFailure f.spine
  have daNone := h.daNoFailure f.spine
  -- the old class decides which branch runs; every array then changes at `f.spine` only
  cases old : c f.spine <;>
    simp only [old, SpineClass.isDirect, reduceCtorEq, if_true, if_false, Bool.false_eq_true]
      at noFailure partialFailure fullFailure daPartial daFull daNone <;>
    cases isDirect : cfg.direct f <;> by_cases isFull : f.failureRatio = 100 <;>
    simp [classifyFailure, classifyFirstDirect, classifySameSpine, classifyIndirect,
      SpineSets.reclassify, SpineClass.absorb, SpineClass.isDirect, isDirect, isFull, noFailure,
      partialFailure, fullFailure, daPartial, daFull, daNone, SpineSets.ext_iff,
      Function.eq_update_self_iff]

/-- The loop computes the table of the list, whatever its order and its duplicates. -/
theorem classify_represents {n : Nat} {fs : List FailedLink} (inRange : ∀ f ∈ fs, f.spine < n) :
    Represents n (classOf cfg fs) (classify cfg fs) := by
  induction fs using List.reverseRecOn with
  | nil => exact represents_initial n
  | append_singleton fs f ih =>
    -- the sets before the last failure stand for a table, and the failure moves one spine in it
    have before := ih fun g hg => inRange g (List.mem_append_left _ hg)
    rw [classify_append, classOf_append, classifyFailure_eq cfg before]
    exact before.reclassify (inRange f (by simp)) _

theorem classCount_pos_iff (n : Nat) (c : Nat → SpineClass) (k : SpineClass) :
    0 < classCount n c k ↔ ∃ s < n, c s = k := by
  rw [← Nat.count_ne_iff_exists]
  simp only [classCount]
  omega

theorem classCount_nonneg (n : Nat) (c : Nat → SpineClass) (k : SpineClass) :
    0 ≤ classCount n c k := by
  simp [classCount]

/-- Every spine has exactly one class. -/
theorem classCount_sum (n : Nat) (c : Nat → SpineClass) :
    classCount n c .clean + classCount n c .indirectPartial + classCount n c .indirectFull +
      classCount n c .directPartial + classCount n c .directFull = n := by
  induction n with
  | zero => rfl
  | succ n ih =>
    simp only [classCount, Nat.count_succ] at ih ⊢
    -- spine `n` adds to the count of its own class alone
    cases c n <;> simp <;> omega

/-! ### What the classes mean -/

/-- A fact that no failure takes back tells whether a failure that establishes it is listed. -/
theorem classOf_recalls {P : SpineClass → Prop} {Q : FailedLink → Prop} (start : ¬P .clean)
    (absorbs : ∀ c f, P (c.absorb (cfg.direct f) (decide (f.failureRatio = 100))) ↔ P c ∨ Q f)
    (fs : List FailedLink) (s : Nat) :
    P (classOf cfg fs s) ↔ ∃ f ∈ fs, f.spine = s ∧ Q f := by
  induction fs using List.reverseRecOn with
  | nil => simp [classOf, start]
  | append_singleton fs f ih =>
    simp only [classOf_append, absorbFailure, List.mem_append, List.mem_singleton, or_and_right,
      exists_or, exists_eq_left, ← ih]
    by_cases here : s = f.spine
    · subst here
      rw [Function.update_self, absorbs]
      simp
    · -- the failure is on another spine
      rw [Function.update_of_ne here]
      simp [Ne.symm here]

theorem isDirect_classOf_iff (fs : List FailedLink) (s : Nat) :
    (classOf cfg fs s).isDirect = true ↔ ∃ f ∈ fs, f.spine = s ∧ cfg.direct f = true := by
  apply classOf_recalls cfg (P := fun c => c.isDirect = true) (by simp [SpineClass.isDirect])
  intro c f
  cases c <;> cases cfg.direct f <;> by_cases isFull : f.failureRatio = 100 <;>
    simp [SpineClass.absorb, SpineClass.isDirect, isFull]

theorem classOf_eq_directFull_iff (fs : List FailedLink) (s : Nat) :
    classOf cfg fs s = .directFull ↔
      ∃ f ∈ fs, f.spine = s ∧ cfg.direct f = true ∧ f.failureRatio = 100 := by
  apply classOf_recalls cfg (P := (· = .directFull)) (by simp)
  intro c f
  cases c <;> cases cfg.direct f <;> by_cases isFull : f.failureRatio = 100 <;>
    simp [SpineClass.absorb, isFull]

theorem classOf_eq_clean_iff (fs : List FailedLink) (s : Nat) :
    classOf cfg fs s = .clean ↔ ∀ f ∈ fs, f.spine ≠ s := by
  have marked : classOf cfg fs s ≠ .clean ↔ ∃ f ∈ fs, f.spine = s ∧ True := by
    apply classOf_recalls cfg (P := (· ≠ .clean)) (by simp)
    intro c f
    cases c <;> cases cfg.direct f <;> by_cases isFull : f.failureRatio = 100 <;>
      simp [SpineClass.absorb, isFull]
  rw [← not_iff_not, ← Ne, marked]
  simp

theorem classOf_eq_directPartial_iff (fs : List FailedLink) (s : Nat) :
    classOf cfg fs s = .directPartial ↔
      (∃ f ∈ fs, f.spine = s ∧ cfg.direct f = true) ∧
        ¬∃ f ∈ fs, f.spine = s ∧ cfg.direct f = true ∧ f.failureRatio = 100 := by
  rw [← isDirect_classOf_iff, ← classOf_eq_directFull_iff]
  cases classOf cfg fs s <;> simp [SpineClass.isDirect]

end Saps.Spray
