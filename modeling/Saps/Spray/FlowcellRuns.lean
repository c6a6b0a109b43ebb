import Saps.Spray.SelectiveRuns

/-!
# Flowcell by flowcell

Most schemes move the uplink at the start of a flowcell only. A run of such a flow is
followed by a property of its agent that counts the flowcells started so far.
-/
namespace Saps.Spray

open DrivenRun (bind_eq_ok)

variable {cfg : SprayConfig} {envs : Nat → PacketEnv} {a : SprayAgent} {k : Nat}

/-- The number of flowcells that the packets before number `k` have started. -/
def startedCells (f k : Nat) : Nat := (k + f - 1) / f

theorem startedCells_succ {f : Nat} (cell : 0 < f) (k : Nat) :
    startedCells f (k + 1) = k / f + 1 := by
  rw [startedCells, show k + 1 + f - 1 = k + f by omega, Nat.add_div_right k cell]

theorem startedCells_start {f k : Nat} (cell : 0 < f) (start : k % f = 0) :
    startedCells f k = k / f := by
  have whole := Nat.div_add_mod' k f
  apply Nat.div_eq_of_lt_le (by omega)
  rw [Nat.succ_mul]
  omega

theorem startedCells_mid {f k : Nat} (cell : 0 < f) (mid : k % f ≠ 0) :
    startedCells f k = k / f + 1 := by
  have whole := Nat.div_add_mod' k f
  have below := Nat.mod_lt k cell
  apply Nat.div_eq_of_lt_le
  · rw [Nat.succ_mul]
    omega
  · rw [Nat.succ_mul, Nat.succ_mul]
    omega

/-- `I j` holds of the agent with `j` flowcells behind it, and only the start of a flowcell
changes the agent. -/
structure MovesByFlowcell (cfg : SprayConfig) (envs : Nat → PacketEnv)
    (I : Nat → SprayAgent → Prop) : Prop where
  first : ∃ p, firstPacket cfg (envs 0) (fresh cfg) = .ok p ∧ I 0 p
  starts : ∀ j a, a.ndatapack = j * cfg.flowcellSizePkts → I j a →
    ∃ b, chooseUplink cfg (envs (j * cfg.flowcellSizePkts)) a = .ok b ∧ I (j + 1) b
  stays : ∀ k a, a.ndatapack = k → k % cfg.flowcellSizePkts ≠ 0 →
    I (k / cfg.flowcellSizePkts + 1) a → chooseUplink cfg (envs k) a = .ok a
  counters : ∀ j a ndatapack ndatabytes, I j a → I j { a with ndatapack, ndatabytes }

/-- The agent as the packets before number `k` leave it. -/
def BeforePacket (cfg : SprayConfig) (I : Nat → SprayAgent → Prop) (k : Nat) (a : SprayAgent) :
    Prop :=
  (k = 0 ∧ a = fresh cfg) ∨
    (0 < k ∧ a.ndatapack = k ∧ I (startedCells cfg.flowcellSizePkts k) a)

namespace MovesByFlowcell

variable {I : Nat → SprayAgent → Prop}

theorem prepare (moves : MovesByFlowcell cfg envs I) (before : BeforePacket cfg I k a) :
    ∃ p, prepare cfg (envs k) a = .ok p ∧ p.ndatapack = k ∧
      I (startedCells cfg.flowcellSizePkts k) p := by
  rcases before with ⟨rfl, rfl⟩ | ⟨later, count, holds⟩
  · obtain ⟨p, started, holds⟩ := moves.first
    rw [startedCells_start cfg.cell_pos (Nat.zero_mod _), Nat.zero_div]
    exact ⟨p, (prepare_first rfl).trans started, ((firstPacket_ends _ _).of_ok started).1, holds⟩
  · exact ⟨a, prepare_later (by omega), count, holds⟩

/-- A packet at the start of a flowcell moves the agent, one inside it does not. -/
theorem choose (moves : MovesByFlowcell cfg envs I) (count : a.ndatapack = k)
    (holds : I (startedCells cfg.flowcellSizePkts k) a) :
    ∃ b, chooseUplink cfg (envs k) a = .ok b ∧ I (k / cfg.flowcellSizePkts + 1) b := by
  by_cases start : k % cfg.flowcellSizePkts = 0
  · have place : k / cfg.flowcellSizePkts * cfg.flowcellSizePkts = k :=
      Nat.div_mul_cancel (Nat.dvd_of_mod_eq_zero start)
    rw [startedCells_start cfg.cell_pos start] at holds
    have moved := moves.starts _ a (count.trans place.symm) holds
    rwa [place] at moved
  · rw [startedCells_mid cfg.cell_pos start] at holds
    exact ⟨a, moves.stays k a count start holds, holds⟩

theorem output (moves : MovesByFlowcell cfg envs I) (before : BeforePacket cfg I k a) :
    ∃ q b, I (k / cfg.flowcellSizePkts + 1) q ∧
      output cfg (envs k) a = .ok (b, ⟨q.linkID, k / cfg.flowcellSizePkts,
        cfg.failureDetected (envs k).now⟩) ∧ BeforePacket cfg I (k + 1) b := by
  obtain ⟨p, prepared, count, holds⟩ := moves.prepare before
  obtain ⟨q, chosen, next⟩ := moves.choose count holds
  have sent := output_sent prepared chosen
  rw [chooseUplink_ndatapack chosen, count] at sent
  refine ⟨q, _, next, sent, .inr ⟨Nat.succ_pos k, rfl, ?_⟩⟩
  rw [startedCells_succ cfg.cell_pos]
  exact moves.counters _ q _ _ next

theorem agentAt (moves : MovesByFlowcell cfg envs I) (k : Nat) :
    ∃ a, agentAt cfg envs k = .ok a ∧ BeforePacket cfg I k a := by
  refine DrivenRun.progress (.inl ⟨rfl, rfl⟩) ?_ le_rfl
  intro j s _ before
  obtain ⟨q, b, -, answer, next⟩ := moves.output before
  exact ⟨b, _, answer, next⟩

/-- Every packet is sent, on the uplink of the agent that its flowcell has led to. -/
theorem stampAt (moves : MovesByFlowcell cfg envs I) (k : Nat) :
    ∃ q, I (k / cfg.flowcellSizePkts + 1) q ∧ stampAt cfg envs k = .ok
      ⟨q.linkID, k / cfg.flowcellSizePkts, cfg.failureDetected (envs k).now⟩ := by
  obtain ⟨a, reached, before⟩ := moves.agentAt k
  obtain ⟨q, b, holds, answer, -⟩ := moves.output before
  exact ⟨q, holds, DrivenRun.outputAt_eq_ok_iff.mpr ⟨a, b, reached, answer⟩⟩

end MovesByFlowcell

end Saps.Spray
