import Saps.Script.Awk

/-!
# The flow statistics

`awk_response`: the program that turns the flow records written by `done` into one line of
averages. Its accumulators are grouped by the branches that advance them.
-/
namespace Saps.Script

/-- The fields of a flow record that the program reads. -/
structure FlowRecord where
  /-- `$5` -/
  duration : ℚ
  /-- `$7` -/
  dataBytes : ℚ
  /-- `$8` -/
  rexmitBytes : ℚ
  /-- `$9` -/
  throughput : ℚ
  /-- `$10` -/
  cwndCuts1 : Int
  /-- `$11` -/
  rexmit : Int
  /-- `$12` -/
  isElephant : Int
  /-- `$13` -/
  rexmitPkts : Int
  /-- `$16` -/
  fromFailedLeaf : Int
  /-- `$17` -/
  necnResponses : Int
  /-- `$18` -/
  selectiveSpraying : Int
  /-- `$19` -/
  poorPathFlow : Int
  /-- `$20` -/
  flowEndState : Int
  /-- `$21` -/
  tinyMice : Int
  /-- `$22` -/
  toFailedLeaf : Int
  /-- `$23` -/
  northSouthFlow : Int
  /-- `$24` -/
  originallyHashed : Int
  /-- `$25` -/
  intraRackFlow : Int
  /-- `$26` -/
  size : ℚ
deriving DecidableEq

namespace FlowStatistics

/-- One value for each of the values 0 to 4 of `flowEndState`. -/
structure ByState (α : Type) where
  endBeforeFailure : α
  endAfterFailureOccurred : α
  endAfterFailureDetected : α
  endAfterFailureFixed : α
  endAfterRestorationDetected : α
deriving DecidableEq

namespace ByState

variable {α β : Type}

def fill (x : α) : ByState α := ⟨x, x, x, x, x⟩

def map (f : α → β) (t : ByState α) : ByState β :=
  ⟨f t.endBeforeFailure, f t.endAfterFailureOccurred, f t.endAfterFailureDetected,
    f t.endAfterFailureFixed, f t.endAfterRestorationDetected⟩

def add [Add α] (t : ByState α) (flowEndState : Int) (x : α) : ByState α :=
  if flowEndState = 0 then { t with endBeforeFailure := t.endBeforeFailure + x }
  else if flowEndState = 1 then { t with endAfterFailureOccurred := t.endAfterFailureOccurred + x }
  else if flowEndState = 2 then { t with endAfterFailureDetected := t.endAfterFailureDetected + x }
  else if flowEndState = 3 then { t with endAfterFailureFixed := t.endAfterFailureFixed + x }
  else if flowEndState = 4 then
    { t with endAfterRestorationDetected := t.endAfterRestorationDetected + x }
  else t

def total [Add α] (t : ByState α) : α :=
  t.endBeforeFailure + t.endAfterFailureOccurred + t.endAfterFailureDetected +
    t.endAfterFailureFixed + t.endAfterRestorationDetected

/-- The five means, each taken only where its own count is positive. -/
def means (sum : ByState ℚ) (count : ByState Nat) : Except Fault (ByState ℚ) := do
  let before ← mean sum.endBeforeFailure count.endBeforeFailure
  let occurred ← mean sum.endAfterFailureOccurred count.endAfterFailureOccurred
  let detected ← mean sum.endAfterFailureDetected count.endAfterFailureDetected
  let fixed ← mean sum.endAfterFailureFixed count.endAfterFailureFixed
  let restored ← mean sum.endAfterRestorationDetected count.endAfterRestorationDetected
  return ⟨before, occurred, detected, fixed, restored⟩

end ByState

/-! ### The accumulators -/

/-- What every flow that is not north-south adds to. -/
structure Overall where
  drops : Int := 0
  sum : ℚ := 0
  sumThruAll : ℚ := 0
  nl : Nat := 0
  sumRexmitPk : Int := 0
  sumCwndCuts1 : Int := 0
  sumEcnResponses : Int := 0
  sumThruputAll : ℚ := 0
deriving DecidableEq

structure Racks where
  sumFctInterRackFlows : ℚ := 0
  countInterRackFlows : Nat := 0
  sumFctIntraRackFlows : ℚ := 0
  countIntraRackFlows : Nat := 0
deriving DecidableEq

structure Mice where
  sumFctMice : ByState ℚ := .fill 0
  countMice : ByState Nat := .fill 0
deriving DecidableEq

structure Medium where
  sumMedium : ℚ := 0
  mediumCount : Nat := 0
  sumRexmitPkMedium : Int := 0
  sumFctMedium : ByState ℚ := .fill 0
  countMedium : ByState Nat := .fill 0
deriving DecidableEq

structure Long where
  sumLong : ℚ := 0
  thruputLong : ℚ := 0
  sumGputLong : ℚ := 0
  longCount : Nat := 0
  sumFctLong : ByState ℚ := .fill 0
  sumThruLong : ByState ℚ := .fill 0
  countLong : ByState Nat := .fill 0
deriving DecidableEq

structure GoodLeaf where
  flowsToAndFromGoodLeaf : Nat := 0
  sumThruToAndFromGoodLeaf : ℚ := 0
  sumGputToAndFromGoodLeaf : ℚ := 0
  dropsToAndFromGoodLeaf : Int := 0
  rexmitPkToAndFromGoodLeaf : Int := 0
  rexmitPkGL2GLSprayed : Int := 0
  rexmitPkGL2GLHashEnd : Int := 0
  rexmitPkGL2GLRemapped : Int := 0
  sumFctToAndFromGoodLeaf : ℚ := 0
  sumFctMiceToAndFromGoodLeaf : ℚ := 0
  miceFlowsToAndFromGoodLeaf : Nat := 0
deriving DecidableEq

structure ToFailedLeaf where
  flowsToFailedLeaf : Nat := 0
  sumThruToFailedLeaf : ℚ := 0
  dropsToFailedLeaf : Int := 0
  rexmitPkToFailedLeaf : Int := 0
deriving DecidableEq

structure FromFailedLeaf where
  flowsFromFailedLeaf : Nat := 0
  sumThruFromFailedLeaf : ℚ := 0
  sumGputFromFailedLeaf : ℚ := 0
  dropsFromFailedLeaf : Int := 0
  rexmitPkFromFailedLeaf : Int := 0
deriving DecidableEq

structure Sprayed where
  flowsFromFailedLeafSprayed : Nat := 0
  sumThruFlowsFromFailedLeafSprayed : ℚ := 0
  flowsMiceSprayed : Nat := 0
  sumFctMiceSprayed : ℚ := 0
deriving DecidableEq

structure PoorPath where
  flowsOnPoorPath : Nat := 0
  sumThruFlowsOnPoorPath : ℚ := 0
  sumMiceOnPoorPath : Nat := 0
  sumThruMiceOnPoorPath : ℚ := 0
  flowsMiceHashed : Nat := 0
  sumFctMiceHashed : ℚ := 0
  sumLongOnPoorPath : Nat := 0
  sumThruLongOnPoorPath : ℚ := 0
deriving DecidableEq

structure NorthSouth where
  sumFctNorthSouth : ℚ := 0
  countNorthSouth : Nat := 0
  sumThruNorthSouth : ℚ := 0
deriving DecidableEq

structure Totals where
  overall : Overall := {}
  racks : Racks := {}
  mice : Mice := {}
  medium : Medium := {}
  long : Long := {}
  goodLeaf : GoodLeaf := {}
  toFailedLeaf : ToFailedLeaf := {}
  fromFailedLeaf : FromFailedLeaf := {}
  sprayed : Sprayed := {}
  poorPath : PoorPath := {}
  northSouth : NorthSouth := {}
deriving DecidableEq

/-! ### The main rule -/

def Overall.add (t : Overall) (r : FlowRecord) : Except Fault Overall := do
  let thruput ← divide r.size r.duration
  return {
    drops := t.drops + r.rexmit
    sum := t.sum + r.duration
    sumThruAll := t.sumThruAll + r.throughput
    nl := t.nl + 1
    sumRexmitPk := t.sumRexmitPk + r.rexmitPkts
    sumCwndCuts1 := t.sumCwndCuts1 + r.cwndCuts1
    sumEcnResponses := t.sumEcnResponses + r.necnResponses
    sumThruputAll := t.sumThruputAll + thruput }

def Racks.add (t : Racks) (r : FlowRecord) : Racks :=
  if r.intraRackFlow = 0 then
    { t with
      sumFctInterRackFlows := t.sumFctInterRackFlows + r.duration
      countInterRackFlows := t.countInterRackFlows + 1 }
  else
    { t with
      sumFctIntraRackFlows := t.sumFctIntraRackFlows + r.duration
      countIntraRackFlows := t.countIntraRackFlows + 1 }

def Mice.add (t : Mice) (r : FlowRecord) : Mice where
  sumFctMice := t.sumFctMice.add r.flowEndState r.duration
  countMice := t.countMice.add r.flowEndState 1

def Medium.add (t : Medium) (r : FlowRecord) : Medium where
  sumMedium := t.sumMedium + r.duration
  mediumCount := t.mediumCount + 1
  sumRexmitPkMedium := t.sumRexmitPkMedium + r.rexmitPkts
  sumFctMedium := t.sumFctMedium.add r.flowEndState r.duration
  countMedium := t.countMedium.add r.flowEndState 1

def Long.add (t : Long) (r : FlowRecord) : Except Fault Long := do
  let gput ← divide (r.dataBytes - r.rexmitBytes) r.duration
  return {
    sumLong := t.sumLong + r.duration
    thruputLong := t.thruputLong + r.throughput
    sumGputLong := t.sumGputLong + gput
    longCount := t.longCount + 1
    sumFctLong := t.sumFctLong.add r.flowEndState r.duration
    sumThruLong := t.sumThruLong.add r.flowEndState r.throughput
    countLong := t.countLong.add r.flowEndState 1 }

def GoodLeaf.addRexmitPk (t : GoodLeaf) (r : FlowRecord) : GoodLeaf :=
  if r.originallyHashed = 0 then
    { t with rexmitPkGL2GLSprayed := t.rexmitPkGL2GLSprayed + r.rexmitPkts }
  -- the source tests the two remaining cases one after the other: they exclude each other
  else if r.originallyHashed = 1 ∧ r.poorPathFlow = 1 then
    { t with rexmitPkGL2GLHashEnd := t.rexmitPkGL2GLHashEnd + r.rexmitPkts }
  else if r.originallyHashed = 1 ∧ r.poorPathFlow = 0 then
    { t with rexmitPkGL2GLRemapped := t.rexmitPkGL2GLRemapped + r.rexmitPkts }
  else t

def GoodLeaf.addMice (t : GoodLeaf) (r : FlowRecord) : GoodLeaf :=
  if r.tinyMice = 1 then
    { t with
      sumFctMiceToAndFromGoodLeaf := t.sumFctMiceToAndFromGoodLeaf + r.duration
      miceFlowsToAndFromGoodLeaf := t.miceFlowsToAndFromGoodLeaf + 1 }
  else t

def GoodLeaf.add (t : GoodLeaf) (r : FlowRecord) : Except Fault GoodLeaf := do
  let gput ← divide (r.dataBytes - r.rexmitBytes) r.duration
  let counted := { t with
    flowsToAndFromGoodLeaf := t.flowsToAndFromGoodLeaf + 1
    sumThruToAndFromGoodLeaf := t.sumThruToAndFromGoodLeaf + r.throughput
    sumGputToAndFromGoodLeaf := t.sumGputToAndFromGoodLeaf + gput
    dropsToAndFromGoodLeaf := t.dropsToAndFromGoodLeaf + r.rexmit
    rexmitPkToAndFromGoodLeaf := t.rexmitPkToAndFromGoodLeaf + r.rexmitPkts
    sumFctToAndFromGoodLeaf := t.sumFctToAndFromGoodLeaf + r.duration }
  return (counted.addRexmitPk r).addMice r

def ToFailedLeaf.add (t : ToFailedLeaf) (r : FlowRecord) : ToFailedLeaf where
  flowsToFailedLeaf := t.flowsToFailedLeaf + 1
  sumThruToFailedLeaf := t.sumThruToFailedLeaf + r.throughput
  dropsToFailedLeaf := t.dropsToFailedLeaf + r.rexmit
  rexmitPkToFailedLeaf := t.rexmitPkToFailedLeaf + r.rexmitPkts

def FromFailedLeaf.add (t : FromFailedLeaf) (r : FlowRecord) : Except Fault FromFailedLeaf := do
  let gput ← divide (r.dataBytes - r.rexmitBytes) r.duration
  return {
    flowsFromFailedLeaf := t.flowsFromFailedLeaf + 1
    sumThruFromFailedLeaf := t.sumThruFromFailedLeaf + r.throughput
    sumGputFromFailedLeaf := t.sumGputFromFailedLeaf + gput
    dropsFromFailedLeaf := t.dropsFromFailedLeaf + r.rexmit
    rexmitPkFromFailedLeaf := t.rexmitPkFromFailedLeaf + r.rexmitPkts }

def Sprayed.add (t : Sprayed) (r : FlowRecord) : Sprayed :=
  let counted := { t with
    flowsFromFailedLeafSprayed := t.flowsFromFailedLeafSprayed + 1
    sumThruFlowsFromFailedLeafSprayed := t.sumThruFlowsFromFailedLeafSprayed + r.throughput }
  if r.tinyMice = 1 then
    { counted with
      flowsMiceSprayed := counted.flowsMiceSprayed + 1
      sumFctMiceSprayed := counted.sumFctMiceSprayed + r.duration }
  else counted

def PoorPath.add (t : PoorPath) (r : FlowRecord) : PoorPath :=
  let counted := { t with
    flowsOnPoorPath := t.flowsOnPoorPath + 1
    sumThruFlowsOnPoorPath := t.sumThruFlowsOnPoorPath + r.throughput }
  if r.tinyMice = 1 then
    { counted with
      sumMiceOnPoorPath := counted.sumMiceOnPoorPath + 1
      sumThruMiceOnPoorPath := counted.sumThruMiceOnPoorPath + r.throughput
      flowsMiceHashed := counted.flowsMiceHashed + 1
      sumFctMiceHashed := counted.sumFctMiceHashed + r.duration }
  else if r.isElephant = 1 then
    { counted with
      sumLongOnPoorPath := counted.sumLongOnPoorPath + 1
      sumThruLongOnPoorPath := counted.sumThruLongOnPoorPath + r.throughput }
  else counted

def NorthSouth.add (t : NorthSouth) (r : FlowRecord) : NorthSouth where
  sumFctNorthSouth := t.sumFctNorthSouth + r.duration
  countNorthSouth := t.countNorthSouth + 1
  sumThruNorthSouth := t.sumThruNorthSouth + r.throughput

namespace Totals

/-- Long, medium-sized or mice. -/
def addSizeClass (t : Totals) (r : FlowRecord) : Except Fault Totals :=
  if r.isElephant = 0 then
    if r.tinyMice = 1 then return { t with mice := t.mice.add r }
    else return { t with medium := t.medium.add r }
  else do
    let long ← t.long.add r
    return { t with long }

/-- Sprayed or on the poor path, for a selectively sprayed flow from the failed leaf. -/
def addPath (t : Totals) (r : FlowRecord) : Totals :=
  if r.selectiveSpraying = 1 then
    if r.poorPathFlow = 0 then { t with sprayed := t.sprayed.add r }
    else { t with poorPath := t.poorPath.add r }
  else t

def addLeaf (t : Totals) (r : FlowRecord) : Except Fault Totals :=
  if r.fromFailedLeaf = 0 ∧ r.toFailedLeaf = 0 then do
    let goodLeaf ← t.goodLeaf.add r
    return { t with goodLeaf }
  else do
    let t := if r.toFailedLeaf = 1 then { t with toFailedLeaf := t.toFailedLeaf.add r } else t
    if r.fromFailedLeaf = 1 then
      let fromFailedLeaf ← t.fromFailedLeaf.add r
      return { t with fromFailedLeaf }.addPath r
    else return t

/-- The rule that runs for each record. -/
def mainRule (t : Totals) (r : FlowRecord) : Except Fault Totals :=
  if r.northSouthFlow = 0 then do
    let overall ← t.overall.add r
    let t ← { t with overall, racks := t.racks.add r }.addSizeClass r
    t.addLeaf r
  else return { t with northSouth := t.northSouth.add r }

end Totals

/-- The accumulators after a log. -/
def process (log : List FlowRecord) : Except Fault Totals :=
  log.foldlM Totals.mainRule {}

/-! ### `END` -/

structure OverallAverages where
  av : ℚ := 0
  /-- `avg_thruput_all`. -/
  avgThruAll : ℚ := 0
  avgThruputAll : ℚ := 0
deriving DecidableEq

structure NorthSouthAverages where
  avgThruNorthSouth : ℚ := 0
  afctNorthSouth : ℚ := 0
deriving DecidableEq

structure MiceAverages where
  afctMice : ℚ := 0
  afctMiceByState : ByState ℚ := .fill 0
deriving DecidableEq

structure MediumAverages where
  avMedium : ℚ := 0
  afctMediumByState : ByState ℚ := .fill 0
deriving DecidableEq

structure LongAverages where
  avLong : ℚ := 0
  avThruputLong : ℚ := 0
  avGoodputLong : ℚ := 0
  avgThruLongByState : ByState ℚ := .fill 0
  afctLongByState : ByState ℚ := .fill 0
deriving DecidableEq

structure GoodLeafAverages where
  avgThruToAndFromGoodLeaf : ℚ := 0
  avGoodputToAndFromGoodLeaf : ℚ := 0
  afctToAndFromGoodLeaf : ℚ := 0
  afctMiceToAndFromGoodLeaf : ℚ := 0
deriving DecidableEq

structure FailedLeafAverages where
  avgThruToFailedLeaf : ℚ := 0
  avgThruFromFailedLeaf : ℚ := 0
  avGoodputFromFailedLeaf : ℚ := 0
  avgThruFlowsFromFailedLeafSprayed : ℚ := 0
deriving DecidableEq

structure PoorPathAverages where
  avgThruFlowsOnPoorPath : ℚ := 0
  avgThruLongOnPoorPath : ℚ := 0
  avgThruMiceOnPoorPath : ℚ := 0
  afctMiceSprayed : ℚ := 0
  afctMiceHashed : ℚ := 0
deriving DecidableEq

structure RackAverages where
  afctIntraRackFlows : ℚ := 0
  afctInterRackFlows : ℚ := 0
deriving DecidableEq

def Overall.averages (t : Overall) : Except Fault OverallAverages :=
  if t.nl = 0 then return { av := 0 }
  else do
    let av ← divide t.sum t.nl
    let thru ← divide t.sumThruAll t.nl
    let thruput ← divide t.sumThruputAll t.nl
    return { av, avgThruAll := megabits thru, avgThruputAll := megabits thruput }

def NorthSouth.averages (t : NorthSouth) : Except Fault NorthSouthAverages :=
  if 0 < t.countNorthSouth then do
    let thru ← divide t.sumThruNorthSouth t.countNorthSouth
    let afct ← divide t.sumFctNorthSouth t.countNorthSouth
    return { avgThruNorthSouth := megabits thru, afctNorthSouth := afct }
  else return {}

/-- `count_mice` and `sum_fct_mice` are formed here, from their parts by state. -/
def Mice.averages (t : Mice) : Except Fault MiceAverages :=
  if 0 < t.countMice.total then do
    let afctMice ← divide t.sumFctMice.total t.countMice.total
    let afctMiceByState ← ByState.means t.sumFctMice t.countMice
    return { afctMice, afctMiceByState }
  else return {}

def Medium.averages (t : Medium) : Except Fault MediumAverages :=
  if 0 < t.mediumCount then do
    let avMedium ← divide t.sumMedium t.mediumCount
    let afctMediumByState ← ByState.means t.sumFctMedium t.countMedium
    return { avMedium, afctMediumByState }
  else return {}

def Long.averages (t : Long) : Except Fault LongAverages :=
  if 0 < t.longCount then do
    let avLong ← divide t.sumLong t.longCount
    let thru ← divide t.thruputLong t.longCount
    let gput ← divide t.sumGputLong t.longCount
    let thruByState ← ByState.means t.sumThruLong t.countLong
    let afctLongByState ← ByState.means t.sumFctLong t.countLong
    return {
      avLong
      avThruputLong := megabits thru
      avGoodputLong := megabits gput
      avgThruLongByState := thruByState.map megabits
      afctLongByState }
  else return {}

def GoodLeaf.averages (t : GoodLeaf) : Except Fault GoodLeafAverages :=
  if 0 < t.flowsToAndFromGoodLeaf then do
    let thru ← divide t.sumThruToAndFromGoodLeaf t.flowsToAndFromGoodLeaf
    let gput ← divide t.sumGputToAndFromGoodLeaf t.flowsToAndFromGoodLeaf
    let afct ← divide t.sumFctToAndFromGoodLeaf t.flowsToAndFromGoodLeaf
    let afctMice ← mean t.sumFctMiceToAndFromGoodLeaf t.miceFlowsToAndFromGoodLeaf
    return {
      avgThruToAndFromGoodLeaf := megabits thru
      avGoodputToAndFromGoodLeaf := megabits gput
      afctToAndFromGoodLeaf := afct
      afctMiceToAndFromGoodLeaf := afctMice }
  else return {}

def Totals.failedLeafAverages (t : Totals) : Except Fault FailedLeafAverages := do
  let thruTo ← mean t.toFailedLeaf.sumThruToFailedLeaf t.toFailedLeaf.flowsToFailedLeaf
  let thruFrom ←
    mean t.fromFailedLeaf.sumThruFromFailedLeaf t.fromFailedLeaf.flowsFromFailedLeaf
  let gputFrom ←
    mean t.fromFailedLeaf.sumGputFromFailedLeaf t.fromFailedLeaf.flowsFromFailedLeaf
  let thruSprayed ←
    mean t.sprayed.sumThruFlowsFromFailedLeafSprayed t.sprayed.flowsFromFailedLeafSprayed
  return {
    avgThruToFailedLeaf := megabits thruTo
    avgThruFromFailedLeaf := megabits thruFrom
    avGoodputFromFailedLeaf := megabits gputFrom
    avgThruFlowsFromFailedLeafSprayed := megabits thruSprayed }

/-- Only the count of all flows on the poor path guards the five divisions. -/
def Totals.poorPathAverages (t : Totals) : Except Fault PoorPathAverages :=
  if 0 < t.poorPath.flowsOnPoorPath then do
    let thru ← divide t.poorPath.sumThruFlowsOnPoorPath t.poorPath.flowsOnPoorPath
    let thruLong ← divide t.poorPath.sumThruLongOnPoorPath t.poorPath.sumLongOnPoorPath
    let thruMice ← divide t.poorPath.sumThruMiceOnPoorPath t.poorPath.sumMiceOnPoorPath
    let afctSprayed ← divide t.sprayed.sumFctMiceSprayed t.sprayed.flowsMiceSprayed
    let afctHashed ← divide t.poorPath.sumFctMiceHashed t.poorPath.flowsMiceHashed
    return {
      avgThruFlowsOnPoorPath := megabits thru
      avgThruLongOnPoorPath := megabits thruLong
      avgThruMiceOnPoorPath := megabits thruMice
      afctMiceSprayed := afctSprayed
      afctMiceHashed := afctHashed }
  else return {}

def Racks.averages (t : Racks) : Except Fault RackAverages := do
  let afctIntraRackFlows ← mean t.sumFctIntraRackFlows t.countIntraRackFlows
  let afctInterRackFlows ← mean t.sumFctInterRackFlows t.countInterRackFlows
  return { afctIntraRackFlows, afctInterRackFlows }

/-- What the line printed at the end reports: the averages, and the counts in the totals. -/
structure Summary where
  totals : Totals
  overall : OverallAverages
  northSouth : NorthSouthAverages
  mice : MiceAverages
  medium : MediumAverages
  long : LongAverages
  goodLeaf : GoodLeafAverages
  failedLeaf : FailedLeafAverages
  poorPath : PoorPathAverages
  racks : RackAverages
deriving DecidableEq

def endBlock (totals : Totals) : Except Fault Summary := do
  let overall ← totals.overall.averages
  let northSouth ← totals.northSouth.averages
  let mice ← totals.mice.averages
  let medium ← totals.medium.averages
  let long ← totals.long.averages
  let goodLeaf ← totals.goodLeaf.averages
  let failedLeaf ← totals.failedLeafAverages
  let poorPath ← totals.poorPathAverages
  let racks ← totals.racks.averages
  return { totals, overall, northSouth, mice, medium, long, goodLeaf, failedLeaf, poorPath, racks }

/-- The whole program: the line it prints for a log. -/
def awkResponse (log : List FlowRecord) : Except Fault Summary := do
  let totals ← process log
  endBlock totals

end FlowStatistics

end Saps.Script
