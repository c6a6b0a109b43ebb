import Mathlib.Data.List.Induction
import Saps.Library.Tally
import Saps.Script.FlowStatistics

/-!
# What the accumulators add up

The class of records that advances an accumulator, and every accumulator as a tally of the
log over its class. The fold of the main rule computes exactly these tallies, and fails
exactly when a flow that is not north-south has a zero duration.
-/
namespace Saps.Script

open Tally

namespace FlowRecord

def eastWest (r : FlowRecord) : Bool := decide (r.northSouthFlow = 0)

def northSouth (r : FlowRecord) : Bool := decide (r.northSouthFlow ≠ 0)

def interRack (r : FlowRecord) : Bool := r.eastWest && decide (r.intraRackFlow = 0)

def intraRack (r : FlowRecord) : Bool := r.eastWest && decide (r.intraRackFlow ≠ 0)

def mice (r : FlowRecord) : Bool := r.eastWest && decide (r.isElephant = 0 ∧ r.tinyMice = 1)

def medium (r : FlowRecord) : Bool := r.eastWest && decide (r.isElephant = 0 ∧ r.tinyMice ≠ 1)

def long (r : FlowRecord) : Bool := r.eastWest && decide (r.isElephant ≠ 0)

def goodLeaf (r : FlowRecord) : Bool :=
  r.eastWest && decide (r.fromFailedLeaf = 0 ∧ r.toFailedLeaf = 0)

def toFailed (r : FlowRecord) : Bool := r.eastWest && decide (r.toFailedLeaf = 1)

def fromFailed (r : FlowRecord) : Bool := r.eastWest && decide (r.fromFailedLeaf = 1)

/-- From the failed leaf, selectively sprayed, and not on the poor path. -/
def sprayed (r : FlowRecord) : Bool :=
  r.fromFailed && decide (r.selectiveSpraying = 1 ∧ r.poorPathFlow = 0)

def onPoorPath (r : FlowRecord) : Bool :=
  r.fromFailed && decide (r.selectiveSpraying = 1 ∧ r.poorPathFlow ≠ 0)

def tiny (r : FlowRecord) : Bool := decide (r.tinyMice = 1)

def gput (r : FlowRecord) : ℚ := (r.dataBytes - r.rexmitBytes) / r.duration

/-- The divisions of the main rule are defined on the record. -/
def Divisible (r : FlowRecord) : Prop := r.northSouthFlow = 0 → r.duration ≠ 0

instance (r : FlowRecord) : Decidable r.Divisible := inferInstanceAs (Decidable (_ → _))

end FlowRecord

namespace FlowStatistics

open FlowRecord

variable {log : List FlowRecord} {r : FlowRecord}

namespace ByState

variable {M : Type} [AddCommMonoid M] {p : FlowRecord → Bool} {f : FlowRecord → M}

def tally (p : FlowRecord → Bool) (f : FlowRecord → M) (log : List FlowRecord) : ByState M :=
  let part (state : Int) := Tally.tally (fun r => p r && decide (r.flowEndState = state)) f log
  ⟨part 0, part 1, part 2, part 3, part 4⟩

@[simp] theorem tally_nil : tally p f [] = fill 0 := rfl

theorem tally_append_of_not (outside : p r = false) :
    tally p f (log ++ [r]) = tally p f log := by
  simp [tally, tally_append_singleton, outside]

theorem tally_append (inside : p r = true) :
    tally p f (log ++ [r]) = (tally p f log).add r.flowEndState (f r) := by
  simp only [tally, tally_append_singleton, inside, Bool.true_and, decide_eq_true_eq, add]
  -- at most one of the five parts is advanced
  split
  next before => simp [before]
  next =>
    split
    next occurred => simp [occurred]
    next =>
      split
      next detected => simp [detected]
      next =>
        split
        next fixed => simp [fixed]
        next =>
          split
          next => simp
          next => simp [*]

/-- The five parts of a tally add up to it when the log has no other state. -/
theorem total_tally (states : ∀ r ∈ log, 0 ≤ r.flowEndState ∧ r.flowEndState ≤ 4) :
    (tally p f log).total = Tally.tally p f log := by
  have covered : ∀ r ∈ log, r.flowEndState ∈ [0, 1, 2, 3, 4] := by
    intro r member
    have range := states r member
    simp only [List.mem_cons, List.not_mem_nil]
    omega
  rw [← sum_tally_key (by decide : [(0 : Int), 1, 2, 3, 4].Nodup) flowEndState covered]
  simp [tally, total, add_assoc]

end ByState

/-! ### One group of accumulators -/

def Overall.of (log : List FlowRecord) : Overall where
  drops := tally eastWest rexmit log
  sum := tally eastWest duration log
  sumThruAll := tally eastWest throughput log
  nl := count eastWest log
  sumRexmitPk := tally eastWest rexmitPkts log
  sumCwndCuts1 := tally eastWest cwndCuts1 log
  sumEcnResponses := tally eastWest necnResponses log
  sumThruputAll := tally eastWest (fun r => r.size / r.duration) log

def Racks.of (log : List FlowRecord) : Racks where
  sumFctInterRackFlows := tally interRack duration log
  countInterRackFlows := count interRack log
  sumFctIntraRackFlows := tally intraRack duration log
  countIntraRackFlows := count intraRack log

def Mice.of (log : List FlowRecord) : Mice where
  sumFctMice := ByState.tally mice duration log
  countMice := ByState.tally mice (fun _ => 1) log

def Medium.of (log : List FlowRecord) : Medium where
  sumMedium := tally medium duration log
  mediumCount := count medium log
  sumRexmitPkMedium := tally medium rexmitPkts log
  sumFctMedium := ByState.tally medium duration log
  countMedium := ByState.tally medium (fun _ => 1) log

def Long.of (log : List FlowRecord) : Long where
  sumLong := tally long duration log
  thruputLong := tally long throughput log
  sumGputLong := tally long gput log
  longCount := count long log
  sumFctLong := ByState.tally long duration log
  sumThruLong := ByState.tally long throughput log
  countLong := ByState.tally long (fun _ => 1) log

def GoodLeaf.of (log : List FlowRecord) : GoodLeaf where
  flowsToAndFromGoodLeaf := count goodLeaf log
  sumThruToAndFromGoodLeaf := tally goodLeaf throughput log
  sumGputToAndFromGoodLeaf := tally goodLeaf gput log
  dropsToAndFromGoodLeaf := tally goodLeaf rexmit log
  rexmitPkToAndFromGoodLeaf := tally goodLeaf rexmitPkts log
  rexmitPkGL2GLSprayed :=
    tally (fun r => r.goodLeaf && decide (r.originallyHashed = 0)) rexmitPkts log
  rexmitPkGL2GLHashEnd := tally (fun r => r.goodLeaf &&
    decide (r.originallyHashed = 1 ∧ r.poorPathFlow = 1)) rexmitPkts log
  rexmitPkGL2GLRemapped := tally (fun r => r.goodLeaf &&
    decide (r.originallyHashed = 1 ∧ r.poorPathFlow = 0)) rexmitPkts log
  sumFctToAndFromGoodLeaf := tally goodLeaf duration log
  sumFctMiceToAndFromGoodLeaf := tally (fun r => r.goodLeaf && r.tiny) duration log
  miceFlowsToAndFromGoodLeaf := count (fun r => r.goodLeaf && r.tiny) log

def ToFailedLeaf.of (log : List FlowRecord) : ToFailedLeaf where
  flowsToFailedLeaf := count toFailed log
  sumThruToFailedLeaf := tally toFailed throughput log
  dropsToFailedLeaf := tally toFailed rexmit log
  rexmitPkToFailedLeaf := tally toFailed rexmitPkts log

def FromFailedLeaf.of (log : List FlowRecord) : FromFailedLeaf where
  flowsFromFailedLeaf := count fromFailed log
  sumThruFromFailedLeaf := tally fromFailed throughput log
  sumGputFromFailedLeaf := tally fromFailed gput log
  dropsFromFailedLeaf := tally fromFailed rexmit log
  rexmitPkFromFailedLeaf := tally fromFailed rexmitPkts log

def Sprayed.of (log : List FlowRecord) : Sprayed where
  flowsFromFailedLeafSprayed := count sprayed log
  sumThruFlowsFromFailedLeafSprayed := tally sprayed throughput log
  flowsMiceSprayed := count (fun r => r.sprayed && r.tiny) log
  sumFctMiceSprayed := tally (fun r => r.sprayed && r.tiny) duration log

def PoorPath.of (log : List FlowRecord) : PoorPath where
  flowsOnPoorPath := count onPoorPath log
  sumThruFlowsOnPoorPath := tally onPoorPath throughput log
  sumMiceOnPoorPath := count (fun r => r.onPoorPath && r.tiny) log
  sumThruMiceOnPoorPath := tally (fun r => r.onPoorPath && r.tiny) throughput log
  flowsMiceHashed := count (fun r => r.onPoorPath && r.tiny) log
  sumFctMiceHashed := tally (fun r => r.onPoorPath && r.tiny) duration log
  sumLongOnPoorPath :=
    count (fun r => r.onPoorPath && (!r.tiny && decide (r.isElephant = 1))) log
  sumThruLongOnPoorPath :=
    tally (fun r => r.onPoorPath && (!r.tiny && decide (r.isElephant = 1))) throughput log

def NorthSouth.of (log : List FlowRecord) : NorthSouth where
  sumFctNorthSouth := tally northSouth duration log
  countNorthSouth := count northSouth log
  sumThruNorthSouth := tally northSouth throughput log

def Totals.of (log : List FlowRecord) : Totals where
  overall := .of log
  racks := .of log
  mice := .of log
  medium := .of log
  long := .of log
  goodLeaf := .of log
  toFailedLeaf := .of log
  fromFailedLeaf := .of log
  sprayed := .of log
  poorPath := .of log
  northSouth := .of log

/-! ### A record outside the class of a group -/

theorem Overall.of_append_of_not (outside : r.eastWest = false) :
    Overall.of (log ++ [r]) = .of log := by
  simp [Overall.of, tally_append_singleton, outside]

theorem Racks.of_append_of_not (outside : r.eastWest = false) :
    Racks.of (log ++ [r]) = .of log := by
  simp [Racks.of, tally_append_singleton, interRack, intraRack, outside]

theorem Mice.of_append_of_not (outside : r.mice = false) : Mice.of (log ++ [r]) = .of log := by
  simp [Mice.of, ByState.tally_append_of_not outside]

theorem Medium.of_append_of_not (outside : r.medium = false) :
    Medium.of (log ++ [r]) = .of log := by
  simp [Medium.of, tally_append_singleton, ByState.tally_append_of_not outside, outside]

theorem Long.of_append_of_not (outside : r.long = false) : Long.of (log ++ [r]) = .of log := by
  simp [Long.of, tally_append_singleton, ByState.tally_append_of_not outside, outside]

theorem GoodLeaf.of_append_of_not (outside : r.goodLeaf = false) :
    GoodLeaf.of (log ++ [r]) = .of log := by
  simp [GoodLeaf.of, tally_append_singleton, outside]

theorem ToFailedLeaf.of_append_of_not (outside : r.toFailed = false) :
    ToFailedLeaf.of (log ++ [r]) = .of log := by
  simp [ToFailedLeaf.of, tally_append_singleton, outside]

theorem FromFailedLeaf.of_append_of_not (outside : r.fromFailed = false) :
    FromFailedLeaf.of (log ++ [r]) = .of log := by
  simp [FromFailedLeaf.of, tally_append_singleton, outside]

theorem Sprayed.of_append_of_not (outside : r.sprayed = false) :
    Sprayed.of (log ++ [r]) = .of log := by
  simp [Sprayed.of, tally_append_singleton, outside]

theorem PoorPath.of_append_of_not (outside : r.onPoorPath = false) :
    PoorPath.of (log ++ [r]) = .of log := by
  simp [PoorPath.of, tally_append_singleton, outside]

/-- A record that is not from the failed leaf reaches none of the groups behind it. -/
theorem fromFailed_append_of_not (outside : r.fromFailed = false) :
    FromFailedLeaf.of (log ++ [r]) = .of log ∧ Sprayed.of (log ++ [r]) = .of log ∧
      PoorPath.of (log ++ [r]) = .of log :=
  ⟨FromFailedLeaf.of_append_of_not outside,
    Sprayed.of_append_of_not (by simp [sprayed, outside]),
    PoorPath.of_append_of_not (by simp [onPoorPath, outside])⟩

theorem NorthSouth.of_append_of_not (outside : r.northSouth = false) :
    NorthSouth.of (log ++ [r]) = .of log := by
  simp [NorthSouth.of, tally_append_singleton, outside]

/-! ### A record of the class of a group -/

theorem Overall.add_of (inside : r.eastWest = true) (nonzero : r.duration ≠ 0) :
    (Overall.of log).add r = .ok (.of (log ++ [r])) := by
  simp only [Overall.add, divide_ok nonzero, Overall.of, tally_append_singleton, inside, ite_true]
  rfl

theorem Racks.add_of (inside : r.eastWest = true) :
    (Racks.of log).add r = .of (log ++ [r]) := by
  by_cases inter : r.intraRackFlow = 0 <;>
    simp [Racks.add, Racks.of, tally_append_singleton, interRack, intraRack, inside, inter]

theorem Mice.add_of (inside : r.mice = true) : (Mice.of log).add r = .of (log ++ [r]) := by
  simp [Mice.add, Mice.of, ByState.tally_append inside]

theorem Medium.add_of (inside : r.medium = true) : (Medium.of log).add r = .of (log ++ [r]) := by
  simp [Medium.add, Medium.of, tally_append_singleton, ByState.tally_append inside, inside]

theorem Long.add_of (inside : r.long = true) (nonzero : r.duration ≠ 0) :
    (Long.of log).add r = .ok (.of (log ++ [r])) := by
  simp only [Long.add, divide_ok nonzero, Long.of, tally_append_singleton,
    ByState.tally_append inside, inside, ite_true]
  rfl

theorem GoodLeaf.addRexmitPk_eq (t : GoodLeaf) (r : FlowRecord) : t.addRexmitPk r = { t with
    rexmitPkGL2GLSprayed :=
      t.rexmitPkGL2GLSprayed + if r.originallyHashed = 0 then r.rexmitPkts else 0
    rexmitPkGL2GLHashEnd := t.rexmitPkGL2GLHashEnd +
      if r.originallyHashed = 1 ∧ r.poorPathFlow = 1 then r.rexmitPkts else 0
    rexmitPkGL2GLRemapped := t.rexmitPkGL2GLRemapped +
      if r.originallyHashed = 1 ∧ r.poorPathFlow = 0 then r.rexmitPkts else 0 } := by
  unfold addRexmitPk
  by_cases sprayed : r.originallyHashed = 0
  · simp [sprayed]
  · by_cases hashEnd : r.originallyHashed = 1 ∧ r.poorPathFlow = 1
    · simp [hashEnd]
    · by_cases remapped : r.originallyHashed = 1 ∧ r.poorPathFlow = 0
      · simp [remapped]
      · simp only [if_neg sprayed, if_neg hashEnd, if_neg remapped, add_zero]

theorem GoodLeaf.addMice_eq (t : GoodLeaf) (r : FlowRecord) : t.addMice r = { t with
    sumFctMiceToAndFromGoodLeaf :=
      t.sumFctMiceToAndFromGoodLeaf + if r.tinyMice = 1 then r.duration else 0
    miceFlowsToAndFromGoodLeaf :=
      t.miceFlowsToAndFromGoodLeaf + if r.tinyMice = 1 then 1 else 0 } := by
  by_cases mice : r.tinyMice = 1 <;> simp [addMice, mice]

theorem GoodLeaf.add_of (inside : r.goodLeaf = true) (nonzero : r.duration ≠ 0) :
    (GoodLeaf.of log).add r = .ok (.of (log ++ [r])) := by
  have gput : divide (r.dataBytes - r.rexmitBytes) r.duration = .ok r.gput := divide_ok nonzero
  rw [GoodLeaf.add, gput]
  change Except.ok _ = Except.ok _
  simp only [addMice_eq, addRexmitPk_eq, GoodLeaf.of, tally_append_singleton, inside,
    Bool.true_and, decide_eq_true_eq, tiny, ite_true]

theorem ToFailedLeaf.add_of (inside : r.toFailed = true) :
    (ToFailedLeaf.of log).add r = .of (log ++ [r]) := by
  simp [ToFailedLeaf.add, ToFailedLeaf.of, tally_append_singleton, inside]

theorem FromFailedLeaf.add_of (inside : r.fromFailed = true) (nonzero : r.duration ≠ 0) :
    (FromFailedLeaf.of log).add r = .ok (.of (log ++ [r])) := by
  simp only [FromFailedLeaf.add, divide_ok nonzero, FromFailedLeaf.of, tally_append_singleton,
    inside, ite_true]
  rfl

theorem Sprayed.add_of (inside : r.sprayed = true) :
    (Sprayed.of log).add r = .of (log ++ [r]) := by
  by_cases mice : r.tinyMice = 1 <;>
    simp [Sprayed.add, Sprayed.of, tally_append_singleton, tiny, inside, mice]

theorem PoorPath.add_of (inside : r.onPoorPath = true) :
    (PoorPath.of log).add r = .of (log ++ [r]) := by
  by_cases mice : r.tinyMice = 1
  · simp [PoorPath.add, PoorPath.of, tally_append_singleton, tiny, inside, mice]
  · by_cases elephant : r.isElephant = 1 <;>
      simp [PoorPath.add, PoorPath.of, tally_append_singleton, tiny, inside, mice, elephant]

theorem NorthSouth.add_of (inside : r.northSouth = true) :
    (NorthSouth.of log).add r = .of (log ++ [r]) := by
  simp [NorthSouth.add, NorthSouth.of, tally_append_singleton, inside]

/-! ### The main rule -/

namespace Totals

variable {t : Totals}

theorem addSizeClass_of (eastWest : r.eastWest = true) (nonzero : r.duration ≠ 0)
    (mice : t.mice = .of log) (medium : t.medium = .of log) (long : t.long = .of log) :
    t.addSizeClass r = .ok { t with
      mice := .of (log ++ [r]), medium := .of (log ++ [r]), long := .of (log ++ [r]) } := by
  unfold addSizeClass
  split
  next notLong =>
    have outside : r.long = false := by simp [FlowRecord.long, notLong]
    split
    next tiny =>
      have inside : r.mice = true := by simp [FlowRecord.mice, eastWest, notLong, tiny]
      have notMedium : r.medium = false := by simp [FlowRecord.medium, tiny]
      rw [mice, Mice.add_of inside, Medium.of_append_of_not notMedium,
        Long.of_append_of_not outside, ← medium, ← long]
      rfl
    next large =>
      have inside : r.medium = true := by simp [FlowRecord.medium, eastWest, notLong, large]
      have notMice : r.mice = false := by simp [FlowRecord.mice, large]
      rw [medium, Medium.add_of inside, Mice.of_append_of_not notMice,
        Long.of_append_of_not outside, ← mice, ← long]
      rfl
  next elephant =>
    have inside : r.long = true := by simp [FlowRecord.long, eastWest, elephant]
    have notMice : r.mice = false := by simp [FlowRecord.mice, elephant]
    have notMedium : r.medium = false := by simp [FlowRecord.medium, elephant]
    rw [long, Long.add_of inside nonzero, Mice.of_append_of_not notMice,
      Medium.of_append_of_not notMedium, ← mice, ← medium]
    rfl

theorem addPath_of (failed : r.fromFailed = true)
    (sprayed : t.sprayed = .of log) (poorPath : t.poorPath = .of log) :
    t.addPath r = { t with sprayed := .of (log ++ [r]), poorPath := .of (log ++ [r]) } := by
  unfold addPath
  split
  next selective =>
    split
    next rich =>
      have inside : r.sprayed = true := by simp [FlowRecord.sprayed, failed, selective, rich]
      have outside : r.onPoorPath = false := by simp [onPoorPath, rich]
      rw [sprayed, Sprayed.add_of inside, PoorPath.of_append_of_not outside, ← poorPath]
    next poor =>
      have inside : r.onPoorPath = true := by simp [onPoorPath, failed, selective, poor]
      have outside : r.sprayed = false := by simp [FlowRecord.sprayed, poor]
      rw [poorPath, PoorPath.add_of inside, Sprayed.of_append_of_not outside, ← sprayed]
  next plain =>
    have notSprayed : r.sprayed = false := by simp [FlowRecord.sprayed, plain]
    have notPoor : r.onPoorPath = false := by simp [onPoorPath, plain]
    rw [Sprayed.of_append_of_not notSprayed, PoorPath.of_append_of_not notPoor, ← sprayed,
      ← poorPath]

/-- `addLeaf` reaches the five groups of a leaf and of a path. -/
theorem addLeaf_of (eastWest : r.eastWest = true) (nonzero : r.duration ≠ 0)
    (goodLeaf : t.goodLeaf = .of log) (toFailedLeaf : t.toFailedLeaf = .of log)
    (fromFailedLeaf : t.fromFailedLeaf = .of log) (sprayed : t.sprayed = .of log)
    (poorPath : t.poorPath = .of log) :
    t.addLeaf r = .ok { t with
      goodLeaf := .of (log ++ [r]), toFailedLeaf := .of (log ++ [r]),
      fromFailedLeaf := .of (log ++ [r]), sprayed := .of (log ++ [r]),
      poorPath := .of (log ++ [r]) } := by
  unfold addLeaf
  split
  next good =>
    have inside : r.goodLeaf = true := by simp [FlowRecord.goodLeaf, eastWest, good]
    have notTo : r.toFailed = false := by simp [toFailed, good]
    have notFrom : r.fromFailed = false := by simp [fromFailed, good]
    obtain ⟨sameFrom, sameSprayed, samePoor⟩ := @fromFailed_append_of_not log r notFrom
    rw [goodLeaf, GoodLeaf.add_of inside nonzero, ToFailedLeaf.of_append_of_not notTo,
      sameFrom, sameSprayed, samePoor, ← toFailedLeaf, ← fromFailedLeaf, ← sprayed, ← poorPath]
    rfl
  next failed =>
    have outside : r.goodLeaf = false := by simp [FlowRecord.goodLeaf, failed]
    have counted : (if r.toFailedLeaf = 1 then { t with toFailedLeaf := t.toFailedLeaf.add r } else t) =
        { t with toFailedLeaf := .of (log ++ [r]) } := by
      split
      next into =>
        have inside : r.toFailed = true := by simp [toFailed, eastWest, into]
        rw [toFailedLeaf, ToFailedLeaf.add_of inside]
      next elsewhere =>
        have notTo : r.toFailed = false := by simp [toFailed, elsewhere]
        rw [ToFailedLeaf.of_append_of_not notTo, ← toFailedLeaf]
    rw [counted, GoodLeaf.of_append_of_not outside, ← goodLeaf]
    split
    next leaves =>
      have inside : r.fromFailed = true := by simp [fromFailed, eastWest, leaves]
      simp only [fromFailedLeaf, FromFailedLeaf.add_of inside nonzero]
      exact congrArg Except.ok (addPath_of inside sprayed poorPath)
    next elsewhere =>
      have notFrom : r.fromFailed = false := by simp [fromFailed, elsewhere]
      obtain ⟨sameFrom, sameSprayed, samePoor⟩ := @fromFailed_append_of_not log r notFrom
      rw [sameFrom, sameSprayed, samePoor, ← fromFailedLeaf, ← sprayed, ← poorPath]
      rfl

/-- One record of the log, from the tallies of the records before it. -/
theorem mainRule_of (divisible : r.Divisible) :
    (Totals.of log).mainRule r = .ok (.of (log ++ [r])) := by
  unfold mainRule
  split
  next ew =>
    have nonzero : r.duration ≠ 0 := divisible ew
    have inside : r.eastWest = true := by simp [eastWest, ew]
    have outside : r.northSouth = false := by simp [FlowRecord.northSouth, ew]
    simp only [Totals.of, Overall.add_of inside nonzero, Racks.add_of inside, bind, Except.bind]
    rw [addSizeClass_of inside nonzero rfl rfl rfl]
    dsimp only
    rw [addLeaf_of inside nonzero rfl rfl rfl rfl rfl, NorthSouth.of_append_of_not outside]
  next ns =>
    have inside : r.northSouth = true := by simp [FlowRecord.northSouth, ns]
    have outside : r.eastWest = false := by simp [eastWest, ns]
    have notFrom : r.fromFailed = false := by simp [fromFailed, outside]
    obtain ⟨sameFrom, sameSprayed, samePoor⟩ := @fromFailed_append_of_not log r notFrom
    simp only [Totals.of, NorthSouth.add_of inside, pure, Except.pure]
    rw [Overall.of_append_of_not outside, Racks.of_append_of_not outside,
      Mice.of_append_of_not (by simp [FlowRecord.mice, outside]),
      Medium.of_append_of_not (by simp [FlowRecord.medium, outside]),
      Long.of_append_of_not (by simp [FlowRecord.long, outside]),
      GoodLeaf.of_append_of_not (by simp [FlowRecord.goodLeaf, outside]),
      ToFailedLeaf.of_append_of_not (by simp [toFailed, outside]), sameFrom, sameSprayed, samePoor]

/-- A flow without a duration stops the program at its first division. -/
theorem mainRule_error (t : Totals) (indivisible : ¬ r.Divisible) :
    t.mainRule r = .error .divisionByZero := by
  have ⟨ew, zero⟩ : r.northSouthFlow = 0 ∧ r.duration = 0 := by
    simpa [Divisible] using indivisible
  rw [mainRule, if_pos ew, Overall.add, zero, divide_zero]
  rfl

end Totals

/-- The main rule over a whole log. -/
theorem process_eq (log : List FlowRecord) :
    process log =
      if ∀ r ∈ log, r.Divisible then .ok (.of log) else .error .divisionByZero := by
  induction log using List.reverseRecOn with
  | nil => rfl
  | append_singleton log r ih =>
    rw [process, List.foldlM_append, ← process, ih]
    -- a record behind the first fault is not looked at
    by_cases earlier : ∀ r ∈ log, r.Divisible
    · rw [if_pos earlier]
      change ([r].foldlM Totals.mainRule (Totals.of log)) = _
      rw [List.foldlM_cons]
      by_cases divisible : r.Divisible
      · rw [Totals.mainRule_of divisible, if_pos]
        · rfl
        · intro e member
          rcases List.mem_append.mp member with old | new
          · exact earlier e old
          · rw [List.mem_singleton.mp new]
            exact divisible
      · rw [Totals.mainRule_error _ divisible, if_neg]
        · rfl
        · exact fun all => divisible (all r (by simp))
    · rw [if_neg earlier, if_neg]
      · rfl
      · exact fun all => earlier fun e member => all e (by simp [member])

theorem process_ok_iff {t : Totals} :
    process log = .ok t ↔ (∀ r ∈ log, r.Divisible) ∧ t = .of log := by
  rw [process_eq]
  split
  next divisible =>
    constructor
    · intro same
      exact ⟨divisible, (Except.ok.inj same).symm⟩
    · rintro ⟨_, rfl⟩
      rfl
  next indivisible =>
    constructor
    · intro impossible
      cases impossible
    · rintro ⟨divisible, _⟩
      exact absurd divisible indivisible

end FlowStatistics

end Saps.Script
