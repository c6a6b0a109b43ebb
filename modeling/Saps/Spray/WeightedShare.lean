import Saps.Spray.FlowcellRuns
import Saps.Library.WeakTurn

/-!
# The share of a degraded uplink

Weighted flowcell spraying with a single partial failure is the rotation of
`WeakTurn`, one round a flowcell: the packets of a run carry what that rotation
serves. The degraded uplink gets its exact share only as the last uplink.
-/
namespace Saps.Spray

open DrivenRun (bind_eq_ok)

variable {cfg : SprayConfig} {e : PacketEnv} {a b : SprayAgent} {failure : FailedLink}

/-- A weighted flow with one partial failure on its leaf pair. -/
structure WeightedSingleFailure (cfg : SprayConfig) (failure : FailedLink) : Prop where
  listed : cfg.failedLinks = [failure]
  ratio : failure.failureRatio = cfg.failureRatio
  positive : 1 ≤ cfg.failureRatio
  isPartial : cfg.failureRatio ≠ 100
  several : 2 ≤ cfg.numUplinks
  aware : cfg.failureAware = true
  robin : cfg.roundRobin = true
  sprays : cfg.selectiveSpraying = false
  affected : (cfg.fromFailedLeaf || cfg.toFailedLeaf) = true
  failureCase : cfg.failureCase = 1

/-- The value of `rfactor`: how many flowcells go to the other uplinks between two turns. -/
def otherTurns (cfg : SprayConfig) : Nat := (cfg.numUplinks - 1) * cfg.failureRatio

/-- The agent with `started` flowcells behind it is where the rotation is. -/
structure Rotates (cfg : SprayConfig) (failure : FailedLink) (started : Nat) (a : SprayAgent) :
    Prop where
  linkID : a.linkID =
    (WeakTurn.rotation cfg.numUplinks failure.spine (otherTurns cfg) started).last
  flowCellMod : a.flowCellMod = cfg.flowcellSizePkts *
    ((WeakTurn.rotation cfg.numUplinks failure.spine (otherTurns cfg) started).due : Int)
  rfactor : a.rfactor = otherTurns cfg

theorem WeightedSingleFailure.otherTurns_pos (scheme : WeightedSingleFailure cfg failure) :
    0 < otherTurns cfg := by
  have several := scheme.several
  exact Nat.mul_pos (by omega) scheme.positive

theorem WeightedSingleFailure.first (scheme : WeightedSingleFailure cfg failure) :
    firstFailure cfg = .ok failure :=
  firstFailure_of_listed scheme.listed

theorem WeightedSingleFailure.single (scheme : WeightedSingleFailure cfg failure) :
    ¬cfg.numFailures > 1 := by
  simp [SprayConfig.numFailures, scheme.listed]

/-- The first packet puts the agent before round 0. -/
theorem firstPacket_rotates (scheme : WeightedSingleFailure cfg failure) (e : PacketEnv) :
    ∃ b, firstPacket cfg e (fresh cfg) = .ok b ∧ b.ndatapack = 0 ∧ Rotates cfg failure 0 b := by
  have several := scheme.several
  have listed : cfg.numFailures > 0 := by simp [SprayConfig.numFailures, scheme.listed]
  have turns : ((cfg.numUplinks : Int) - 1) * cfg.failureRatio = otherTurns cfg := by
    rw [otherTurns, Nat.cast_mul, Nat.cast_sub (by omega), Nat.cast_one]
  refine ⟨_, bind_eq_ok.mpr ⟨{ fresh cfg with linkID := cfg.numUplinks - 1, rfactor := 0 }, ?_,
    bind_eq_ok.mpr ⟨{ fresh cfg with linkID := cfg.numUplinks - 1, rfactor := otherTurns cfg }, ?_,
    rfl⟩⟩, rfl, rfl, rfl, rfl⟩
  · simp only [mapToSpineSet]
    rw [if_neg scheme.single, if_pos listed]
    rfl
  · simp only [initScheme]
    simp only [scheme.aware, scheme.affected, scheme.robin, scheme.sprays, scheme.single, if_true,
      if_false, Bool.false_eq_true, fresh, turns]
    rfl

/-- The test on `flowCellMod_` at the start of a flowcell asks whether the turn is due. -/
theorem onFlowCellMod_due {j due : Nat} (start : a.ndatapack = j * cfg.flowcellSizePkts)
    (positive : 0 < due) (mark : a.flowCellMod = cfg.flowcellSizePkts * (due : Int)) :
    onFlowCellMod a = .ok (decide (j % due = 0)) := by
  have cell := cfg.cell_pos
  have scaled : (a.ndatapack : Int) % a.flowCellMod =
      cfg.flowcellSizePkts * ((j % due : Nat) : Int) := by
    rw [start, mark, Nat.cast_mul, Int.mul_comm, Int.mul_emod_mul_of_pos _ _ (by omega)]
    rfl
  have nonzero : a.flowCellMod ≠ 0 := by
    rw [mark]
    exact Int.mul_ne_zero (by omega) (by omega)
  have same : (cfg.flowcellSizePkts * ((j % due : Nat) : Int) = 0) ↔ j % due = 0 := by
    rw [Int.mul_eq_zero]
    omega
  rw [onFlowCellMod, if_neg nonzero, scaled]
  simp only [same]

/-- A flowcell start is one round of the rotation. -/
theorem weightedSingle_rotates (scheme : WeightedSingleFailure cfg failure) {j : Nat}
    (start : a.ndatapack = j * cfg.flowcellSizePkts) (rotates : Rotates cfg failure j a) :
    ∃ b, weightedSingle cfg a = .ok b ∧ b.ndatapack = a.ndatapack ∧
      Rotates cfg failure (j + 1) b := by
  have positive := WeakTurn.due_pos (n := cfg.numUplinks) (p := failure.spine)
    scheme.otherTurns_pos j
  have round : WeakTurn.rotation cfg.numUplinks failure.spine (otherTurns cfg) (j + 1) =
      WeakTurn.step cfg.numUplinks failure.spine (otherTurns cfg) j
        (WeakTurn.rotation cfg.numUplinks failure.spine (otherTurns cfg) j) := rfl
  obtain ⟨link, mark, turns⟩ := rotates
  generalize WeakTurn.rotation cfg.numUplinks failure.spine (otherTurns cfg) j = turn at *
  obtain ⟨last, due⟩ := turn
  have due_eq := @onFlowCellMod_due cfg (nextLink cfg a) j _ start positive mark
  have ratio : failure.failureRatio ≠ 100 := scheme.ratio ▸ scheme.isPartial
  simp only [weightedSingle]
  simp only [scheme.first, scheme.affected, due_eq, ratio, nextLink_linkID, link, bind,
    Except.bind, pure, Except.pure, and_true, decide_false, Bool.or_false, Bool.not_eq_true',
    decide_eq_false_iff_not]
  -- the three cases of a round: the weak uplink is served, passed over, or not met
  split_ifs with weak now
  · rw [WeakTurn.step_serve weak now] at round
    refine ⟨_, rfl, rfl, ?_, ?_, turns⟩
    · rw [round]
      exact weak
    · rw [round]
      show a.flowCellMod + cfg.flowcellSizePkts + cfg.flowcellSizePkts * a.rfactor = _
      rw [mark, turns]
      push_cast
      ring
  · rw [WeakTurn.step_skip weak now] at round
    refine ⟨_, rfl, rfl, ?_, ?_, turns⟩
    · rw [round, nextLink_linkID, nextLink_linkID, link, weak]
    · rw [round]
      exact mark
  · rw [WeakTurn.step_pass weak] at round
    refine ⟨_, rfl, rfl, ?_, ?_, turns⟩
    · rw [round, nextLink_linkID, link]
    · rw [round]
      exact mark

/-- Under the detected failure only the start of a flowcell is a round. -/
theorem chooseUplink_round (scheme : WeightedSingleFailure cfg failure)
    (detected : cfg.failureDetected e.now = true) :
    chooseUplink cfg e a = if startsFlowcell cfg a then weightedSingle cfg a else .ok a := by
  have realistic : cfg.realisticFailure = true := by
    simp_all [SprayConfig.failureDetected]
  simp only [chooseUplink, detectedByCase, weightedPartial, scheme.aware, realistic, scheme.robin,
    detected, scheme.sprays, scheme.failureCase, scheme.single, if_true, if_false,
    Bool.false_and, Bool.false_eq_true, reduceCtorEq]
  rfl

theorem WeightedSingleFailure.moves (scheme : WeightedSingleFailure cfg failure)
    {envs : Nat → PacketEnv} (detected : ∀ k, cfg.failureDetected (envs k).now = true) :
    MovesByFlowcell cfg envs (Rotates cfg failure) where
  first := by
    obtain ⟨p, started, -, rotates⟩ := firstPacket_rotates scheme (envs 0)
    exact ⟨p, started, rotates⟩
  starts j a place rotates := by
    obtain ⟨b, chosen, -, next⟩ := weightedSingle_rotates scheme place rotates
    rw [chooseUplink_round scheme (detected _), if_pos (by simp [startsFlowcell, place])]
    exact ⟨b, chosen, next⟩
  stays k a count mid _ := by
    rw [chooseUplink_round scheme (detected k), if_neg (by simp [startsFlowcell, count, mid])]
  counters _ _ _ _ rotates := ⟨rotates.linkID, rotates.flowCellMod, rotates.rfactor⟩

end Saps.Spray
