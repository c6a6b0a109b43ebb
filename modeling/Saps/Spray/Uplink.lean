import Saps.Spray.FirstPacket
import Saps.Library.CyclicSearch

/-!
# Choosing the uplink of a packet

One definition for each scheme's branch of `output()`, in the order of the source.
-/
namespace Saps.Spray

variable (cfg : SprayConfig)

/-- `ndatapack_ % flowcellSizePkts_ == 0`: the packet starts a flowcell. -/
def startsFlowcell (a : SprayAgent) : Bool := decide (a.ndatapack % cfg.flowcellSizePkts = 0)

/-- `linkID_ = (linkID_ + 1) % numUplinks`. -/
def nextLink (a : SprayAgent) : SprayAgent :=
  { a with linkID := (a.linkID + 1) % cfg.numUplinks }

@[simp] theorem nextLink_linkID (a : SprayAgent) :
    (nextLink cfg a).linkID = (a.linkID + 1) % cfg.numUplinks := rfl

/-- The guarded rotation that most branches fall back on. -/
def rotateFlowcell (a : SprayAgent) : SprayAgent :=
  if startsFlowcell cfg a then nextLink cfg a else a

/-- `ndatapack_ % flowCellMod_ == 0`; the remainder's sign plays no role here. -/
def onFlowCellMod (a : SprayAgent) : Except Fault Bool :=
  if a.flowCellMod = 0 then .error .divisionByZero
  else .ok (decide ((a.ndatapack : Int) % a.flowCellMod = 0))

/-! ### Selective spraying with several failures -/

/-- A flow past its threshold leaves the weak set it was mapped to. -/
def remap (a : SprayAgent) : SprayAgent :=
  if cfg.dynamicMapping ≠ 0 ∧ (a.svtMapping = 1 ∨ a.svtMapping = 11 ∨ a.svtMapping = 12) then
    if a.svtMapping = 1 ∧ a.ndatabytes > cfg.dynamicMappingThreshold then
      -- a `DA_sprayOnly_` other than 1 counts as unset here, though the draw took it as set
      if cfg.daSprayOnly = 1 then { a with svtMapping := 0 } else { a with svtMapping := 10 }
    else if (a.svtMapping = 11 ∨ a.svtMapping = 12) ∧
        a.ndatabytes > cfg.dynamicMappingThresholdGL2GL then
      { a with svtMapping := 10 }
    else a
  else a

/-- The array that `svtMapping` names. -/
def mappedSet (a : SprayAgent) : Option (Nat → Int) :=
  if a.svtMapping = 0 then some a.sets.svtNoFailure
  else if a.svtMapping = 1 then some a.sets.svtPartialFailure
  else if a.svtMapping = 10 then some a.sets.svtDaNoFailure
  else if a.svtMapping = 11 then some a.sets.svtDaPartialFailure
  else if a.svtMapping = 12 then some a.sets.svtDaFullFailure
  else none

/-- Step to the next uplink of the mapped set. The `while` loop of the source has no
bound; after `numUplinks` looks it repeats itself, which the model reports as endless. -/
def nextValidLink (a : SprayAgent) : Except Fault SprayAgent :=
  let linkID := (a.linkID + 1) % cfg.numUplinks
  match mappedSet a with
  | none => .ok { a with linkID }
  | some svt =>
    match CyclicSearch.search cfg.numUplinks (fun s => svt s ≠ -1) cfg.numUplinks linkID with
    | some valid => .ok { a with linkID := valid }
    | none => .error .endlessSearch

/-! ### Selective spraying, the remaining branches -/

/-- `thresh`, which depends on the kind of the flow. -/
def poorPathThreshold : Int :=
  if cfg.fromFailedLeaf || cfg.toFailedLeaf then cfg.dynamicMappingThreshold
  else cfg.dynamicMappingThresholdGL2GL

/-- A poor-path flow under a partial failure. Nothing here asks for a flowcell start. -/
def poorPathPartial (a : SprayAgent) : Except Fault SprayAgent :=
  if cfg.dynamicMapping ≠ 0 ∧ a.ndatabytes > poorPathThreshold cfg then
    -- from here on the flow is sprayed
    let a := nextLink cfg { a with poorPathFlow := false }
    if cfg.numFailures > 1 then pure a
    else do
      let f ← firstFailure cfg
      pure (if a.linkID = f.spine then nextLink cfg a else a)
  else if cfg.numFailures > 1 then pure a
  else do
    let f ← firstFailure cfg
    pure { a with linkID := f.spine }

/-- A poor-path flow under a full failure, again on every packet. -/
def poorPathFull (a : SprayAgent) : Except Fault SprayAgent := do
  let f ← firstFailure cfg
  let a := { a with linkID := f.spine }
  if cfg.dynamicMapping ≠ 0 ∧ a.ndatabytes > cfg.dynamicMappingThresholdGL2GL then
    let a := nextLink cfg { a with poorPathFlow := false }
    pure (if a.linkID = f.spine then nextLink cfg a else a)
  else
    pure a

/-- Whether a sprayed selective flow has to step over the failed spine. -/
def avoidsFailedSpine : Bool :=
  (!cfg.healthyPathOnly && decide (cfg.daSprayOnly = 0)) ||
    (cfg.fromFailedLeaf || cfg.toFailedLeaf)

/-- One step of the rotation that skips the first listed spine if `skip` says so. -/
def skipFailedSpine (skip : Bool) (a : SprayAgent) : Except Fault SprayAgent := do
  let a := nextLink cfg a
  let f ← firstFailure cfg
  pure (if a.linkID = f.spine ∧ skip then nextLink cfg a else a)

def selectivePartial (a : SprayAgent) : Except Fault SprayAgent :=
  if cfg.daFlow && decide (cfg.numFailures > 1) then pure a
  else if a.poorPathFlow then poorPathPartial cfg a
  else if startsFlowcell cfg a && decide (a.ndatapack > 0) then
    if cfg.numFailures > 1 then pure (nextLink cfg a)
    else skipFailedSpine cfg (avoidsFailedSpine cfg) a
  else pure a

def selectiveFull (a : SprayAgent) : Except Fault SprayAgent :=
  if a.poorPathFlow then poorPathFull cfg a
  else if startsFlowcell cfg a then skipFailedSpine cfg (avoidsFailedSpine cfg) a
  else pure a

/-! ### Weighted spraying -/

/-- `isSpineFailed`: 0 for not failed, 1 for partial, 2 for full failure. -/
def isSpineFailed (spine : Nat) : Nat :=
  match cfg.failedLinks.find? fun f => cfg.direct f && decide (spine = f.spine) with
  | some f => if f.failureRatio = 100 then 2 else 1
  | none => 0

/-- It is the turn of the weak spines. -/
def weakSpinesTurn (a : SprayAgent) : Except Fault Bool := do
  let due ← onFlowCellMod a
  pure (due && decide (a.ndatapack > 0) || decide (a.toggleWeakSpines ≠ 0))

/-- A weak spine takes its turn; the last one of the round sets the next round. -/
def takeWeakTurn (a : SprayAgent) : SprayAgent :=
  let toggle := a.toggleWeakSpines + 1
  -- one flowcell for each weak spine, then `rfactor` for the others
  if (toggle : Int) ≥ a.sets.numDirectPartialFailurePaths then
    { a with
      toggleWeakSpines := 0
      flowCellMod := a.flowCellMod +
        (cfg.flowcellSizePkts * a.sets.numDirectPartialFailurePaths +
          cfg.flowcellSizePkts * a.rfactor) }
  else { a with toggleWeakSpines := toggle }

/-- The search loop, with the number of rounds it may still make. -/
def weightedSearch : Nat → SprayAgent → Except Fault SprayAgent
  -- the loop gives up after `numUplinks` rounds and keeps the uplink it stands on
  | 0, a => .ok a
  | rounds + 1, a =>
    if isSpineFailed cfg a.linkID = 2 then weightedSearch rounds (nextLink cfg a)
    else if isSpineFailed cfg a.linkID = 1 then do
      if ← weakSpinesTurn a then pure (takeWeakTurn cfg a)
      else weightedSearch rounds (nextLink cfg a)
    else do
      if ← weakSpinesTurn a then weightedSearch rounds (nextLink cfg a) else pure a

def weightedMultiple (a : SprayAgent) : Except Fault SprayAgent :=
  let a := nextLink cfg a
  if a.sets.numDirectFailures > 0 then weightedSearch cfg cfg.numUplinks a else pure a

/-- The failed link gets its turn whenever the rotation meets it on `flowCellMod_`. -/
def weightedSingle (a : SprayAgent) : Except Fault SprayAgent := do
  let a := nextLink cfg a
  let f ← firstFailure cfg
  if a.linkID = f.spine ∧ (cfg.fromFailedLeaf || cfg.toFailedLeaf) then do
    if !(← onFlowCellMod a) || decide (f.failureRatio = 100) then pure (nextLink cfg a)
    else
      pure { a with
        flowCellMod := a.flowCellMod + cfg.flowcellSizePkts + cfg.flowcellSizePkts * a.rfactor }
  else pure a

def weightedPartial (a : SprayAgent) : Except Fault SprayAgent :=
  if startsFlowcell cfg a then
    if cfg.numFailures > 1 then weightedMultiple cfg a else weightedSingle cfg a
  else pure a

def weightedFull (a : SprayAgent) : Except Fault SprayAgent :=
  if startsFlowcell cfg a then skipFailedSpine cfg (cfg.fromFailedLeaf || cfg.toFailedLeaf) a
  else pure a

/-! ### Probabilistic spraying -/

/-- The do-while loop over the weights, from uplink `counter` on. -/
def pickUplink (weights : Nat → Nat) (randomNumber : Int) : Nat → Nat → Nat → Option Nat
  | 0, _, _ => none
  | left + 1, counter, weightsAdded =>
    let weightsAdded := weightsAdded + weights counter
    if randomNumber < weightsAdded then some counter
    else pickUplink weights randomNumber left (counter + 1) weightsAdded

def drawUplink (e : PacketEnv) (a : SprayAgent) : Except Fault SprayAgent := do
  let randomNumber ← randomInteger a.totalUplinkWeights e.randomNumber
  match pickUplink a.uplinkWeights randomNumber cfg.numUplinks 0 0 with
  | some linkID => pure { a with linkID }
  | none =>
    -- the weights ran out below the number drawn
    let linkID ← randomInteger cfg.numUplinks e.randomUplink
    pure { a with linkID := linkID.toNat }

def probabilistic (e : PacketEnv) (a : SprayAgent) : Except Fault SprayAgent :=
  if startsFlowcell cfg a then drawUplink cfg e a else pure a

/-! ### Static failures -/

def staticRoundRobin (a : SprayAgent) : Except Fault SprayAgent :=
  if cfg.selectiveSpraying && a.poorPathFlow && (cfg.fromFailedLeaf || cfg.toFailedLeaf) then
    pure a
  else if startsFlowcell cfg a then do
    let a := nextLink cfg a
    let f ← firstFailure cfg
    if a.linkID = f.spine then
      if cfg.selectiveSpraying && (cfg.fromFailedLeaf || cfg.toFailedLeaf) && !a.poorPathFlow then
        pure (nextLink cfg a)
      else if ← onFlowCellMod a then
        pure { a with
          flowCellMod := a.flowCellMod + cfg.flowcellSizePkts + cfg.flowcellSizePkts * a.rfactor }
      else pure (nextLink cfg a)
    else pure a
  else pure a

/-! ### The choice of branch -/

/-- A detected failure under round robin, once the multi-failure search is ruled out. -/
def detectedByCase (a : SprayAgent) : Except Fault SprayAgent :=
  if cfg.failureCase = 1 then
    if cfg.selectiveSpraying then selectivePartial cfg a else weightedPartial cfg a
  else if cfg.failureCase = 2 then
    if cfg.selectiveSpraying then selectiveFull cfg a else weightedFull cfg a
  -- any other failure case: only the weighted scheme goes on spraying
  else if cfg.selectiveSpraying then pure a
  else pure (rotateFlowcell cfg a)

/-- The packet is routed by `nextValidLink`. -/
def searchesSpineSet (e : PacketEnv) (a : SprayAgent) : Bool :=
  cfg.failureAware && cfg.realisticFailure && cfg.roundRobin && cfg.failureDetected e.now &&
    (cfg.selectiveSpraying && decide (cfg.numFailures > 1) && startsFlowcell cfg a)

def chooseUplink (e : PacketEnv) (a : SprayAgent) : Except Fault SprayAgent :=
  if cfg.failureAware = false then pure (rotateFlowcell cfg a)
  else if cfg.realisticFailure then
    if cfg.roundRobin then
      if cfg.failureDetected e.now then
        if cfg.selectiveSpraying && decide (cfg.numFailures > 1) && startsFlowcell cfg a then
          nextValidLink cfg (remap cfg a)
        else detectedByCase cfg a
      else pure (rotateFlowcell cfg a)
    else if cfg.failureDetected e.now then probabilistic cfg e a
    else pure (rotateFlowcell cfg a)
  else if cfg.roundRobin then staticRoundRobin cfg a
  else probabilistic cfg e a

end Saps.Spray
