import Saps.Spray.Faults
import Saps.Spray.FlowcellPath
import Saps.Spray.WeightedShare
import Saps.Spray.HealthViews

/-!
# The rotation while no failure is known

A flow of the weighted schemes rotates over the uplinks like a failure-unaware one
until the failure is detected, and again when it no longer is.
-/
namespace Saps.Spray

open DrivenRun (bind_eq_ok)

variable {cfg : SprayConfig} {e : PacketEnv} {envs : Nat → PacketEnv} {a b p q : SprayAgent}
  {k : Nat} {st : Stamp}

/-! ### Flows that have only rotated -/

/-- The agent before packet `k` of a flow that was prepared as `p` and has only rotated since. -/
def TurnedBefore (cfg : SprayConfig) (p : SprayAgent) (k : Nat) (a : SprayAgent) : Prop :=
  (k = 0 ∧ a = fresh cfg) ∨
    (0 < k ∧ a.ndatapack = k ∧ a.flowCellMod = p.flowCellMod ∧
      a.linkID = (p.linkID + startedCells cfg.flowcellSizePkts k) % cfg.numUplinks)

theorem TurnedBefore.prepare (started : firstPacket cfg (envs 0) (fresh cfg) = .ok p)
    (before : TurnedBefore cfg p k a) :
    ∃ q, prepare cfg (envs k) a = .ok q ∧ q.ndatapack = k ∧ q.flowCellMod = p.flowCellMod ∧
      q.linkID = (p.linkID + startedCells cfg.flowcellSizePkts k) % cfg.numUplinks := by
  rcases before with ⟨rfl, rfl⟩ | ⟨later, count, modulus, link⟩
  · obtain ⟨count, -, inside⟩ := (firstPacket_ends (envs 0) (fresh cfg)).of_ok started
    refine ⟨p, (prepare_first rfl).trans started, count, rfl, ?_⟩
    rw [startedCells_start cfg.cell_pos (Nat.zero_mod _), Nat.zero_div, Nat.add_zero,
      Nat.mod_eq_of_lt inside]
  · exact ⟨a, prepare_later (by omega), count, modulus, link⟩

/-- One packet of the rotation, at the start of a flowcell or inside it. -/
theorem rotateFlowcell_linkID {start : Nat} (count : q.ndatapack = k)
    (link : q.linkID = (start + startedCells cfg.flowcellSizePkts k) % cfg.numUplinks) :
    (rotateFlowcell cfg q).linkID =
      (start + (k / cfg.flowcellSizePkts + 1)) % cfg.numUplinks := by
  by_cases starts : k % cfg.flowcellSizePkts = 0
  · have moves : rotateFlowcell cfg q = nextLink cfg q :=
      if_pos (by simp [startsFlowcell, count, starts])
    rw [moves, nextLink_linkID, link, startedCells_start cfg.cell_pos starts, Nat.mod_add_mod,
      Nat.add_assoc]
  · have stays : rotateFlowcell cfg q = q := if_neg (by simp [startsFlowcell, count, starts])
    rw [stays, link, startedCells_mid cfg.cell_pos starts]

theorem rotateFlowcell_ndatapack (q : SprayAgent) :
    (rotateFlowcell cfg q).ndatapack = q.ndatapack := by
  simp only [rotateFlowcell]
  split <;> rfl

theorem rotateFlowcell_flowCellMod (q : SprayAgent) :
    (rotateFlowcell cfg q).flowCellMod = q.flowCellMod := by
  simp only [rotateFlowcell]
  split <;> rfl

theorem TurnedBefore.output {ndatabytes : Int} (count : q.ndatapack = k)
    (modulus : q.flowCellMod = p.flowCellMod)
    (link : q.linkID = (p.linkID + startedCells cfg.flowcellSizePkts k) % cfg.numUplinks) :
    TurnedBefore cfg p (k + 1)
      { rotateFlowcell cfg q with ndatapack := (rotateFlowcell cfg q).ndatapack + 1, ndatabytes } := by
  refine .inr ⟨Nat.succ_pos k, ?_, (rotateFlowcell_flowCellMod q).trans modulus, ?_⟩
  · exact congrArg (· + 1) ((rotateFlowcell_ndatapack q).trans count)
  · rw [startedCells_succ cfg.cell_pos]
    exact rotateFlowcell_linkID count link

/-- A run whose packets before `k` only rotate reaches packet `k`. -/
theorem turned_before (started : firstPacket cfg (envs 0) (fresh cfg) = .ok p)
    (rotates : ∀ j < k, ∀ a q, agentAt cfg envs j = .ok a → prepare cfg (envs j) a = .ok q →
      q.flowCellMod = p.flowCellMod →
      chooseUplink cfg (envs j) q = .ok (rotateFlowcell cfg q)) :
    ∃ a, agentAt cfg envs k = .ok a ∧ TurnedBefore cfg p k a := by
  induction k with
  | zero => exact ⟨fresh cfg, rfl, .inl ⟨rfl, rfl⟩⟩
  | succ k ih =>
    obtain ⟨a, reached, before⟩ := ih fun j lt => rotates j (by omega)
    obtain ⟨q, prepared, count, modulus, link⟩ := before.prepare started
    have chosen := rotates k (Nat.lt_succ_self k) a q reached prepared modulus
    exact ⟨_, DrivenRun.stateAt_succ_iff.mpr ⟨a, _, reached, output_sent prepared chosen⟩,
      .output count modulus link⟩

/-- The same flow with `failureAware_` unset. -/
def SprayConfig.unaware (cfg : SprayConfig) : SprayConfig := { cfg with failureAware := false }

end Saps.Spray
