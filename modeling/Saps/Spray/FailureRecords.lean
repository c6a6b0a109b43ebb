import Saps.Spray.Faults
import Saps.Spray.FlowcellPath

/-!
# Reads of the failure list

Every read of the list is of its first record. A list without one is read by the
flows that are placed by a failure, and by the round-robin flows whose failure is
static or gets detected at the start of a flowcell; no other run does.
-/
namespace Saps.Spray

open DrivenRun (bind_eq_ok bind_eq_error)
open Outcome (Ends)

variable {cfg : SprayConfig} {e : PacketEnv} {envs : Nat → PacketEnv} {a p : SprayAgent}
  {k : Nat}

/-- Some packet of the run takes a branch that reads the first listed failure. -/
def RunReadsRecord (cfg : SprayConfig) (envs : Nat → PacketEnv) : Prop :=
  cfg.failureAware = true ∧ cfg.roundRobin = true ∧
    (cfg.selectiveSpraying = true ∨ cfg.realisticFailure = false ∨
      ((cfg.failureCase = 1 ∨ cfg.failureCase = 2) ∧
        ∃ c, cfg.failureDetected (envs (c * cfg.flowcellSizePkts)).now = true))

/-! ### Runs that read a missing record -/

theorem chooseUplink_noRecord (fails : chooseUplink cfg e a = .error .noFailureRecord) :
    cfg.failedLinks = [] ∧ ReadsRecord cfg e a := by
  have blame : Fails (fun fault => fault = .noFailureRecord →
      cfg.failedLinks = [] ∧ ReadsRecord cfg e a) (chooseUplink cfg e a) :=
    chooseUplink_fails (fun reads none _ => ⟨none, reads⟩) (fun _ => nofun) (fun _ => nofun)
  exact blame.of_error fails rfl

theorem runReadsRecord_of_fails (fails : stampAt cfg envs k = .error .noFailureRecord) :
    cfg.failedLinks = [] ∧ RunReadsRecord cfg envs := by
  obtain ⟨j, -, a, reached, fails⟩ := DrivenRun.outputAt_eq_error_iff.mp fails
  have count := (agentAt_inside reached).1
  rcases bind_eq_error.mp fails with first | ⟨p, prepared, fails⟩
  · -- only the first packet has something to prepare
    obtain rfl : j = 0 := by
      by_contra started
      rw [prepare_later (by omega)] at first
      cases first
    cases reached
    obtain ⟨none, aware, robin, selective⟩ := (firstPacket_fails cfg (envs 0)).of_error first
    exact ⟨none, aware, robin, .inl selective⟩
  · rcases bind_eq_error.mp fails with chosen | ⟨q, -, impossible⟩
    · obtain ⟨none, aware, robin, branch⟩ := chooseUplink_noRecord chosen
      refine ⟨none, aware, robin, branch.imp_right (Or.imp_right fun detected => ?_)⟩
      -- a detected failure is looked up where a flowcell starts
      have start : j % cfg.flowcellSizePkts = 0 := by
        simpa [startsFlowcell, (prepare_counts prepared).1, count] using detected.2.2
      refine ⟨detected.1, j / cfg.flowcellSizePkts, ?_⟩
      rw [Nat.div_mul_cancel (Nat.dvd_of_mod_eq_zero start)]
      exact detected.2.1
    · cases impossible

/-! ### Runs without a listed failure -/

theorem numFailures_unlisted (none : cfg.failedLinks = []) : cfg.numFailures = 0 := by
  rw [SprayConfig.numFailures, none, List.length_nil]

theorem firstFailure_unlisted (none : cfg.failedLinks = []) :
    firstFailure cfg = .error .noFailureRecord := by
  rw [firstFailure, none]

/-- A flow placed by a failure reads the list in its first packet. -/
theorem firstPacket_unlisted_placed (none : cfg.failedLinks = []) (placed : PlacedByFailure cfg)
    (e : PacketEnv) : firstPacket cfg e (fresh cfg) = .error .noFailureRecord := by
  obtain ⟨aware, robin, selective⟩ := placed
  have unread (a : SprayAgent) : initSelective cfg a = .error .noFailureRecord := by
    simp only [initSelective, numFailures_unlisted none, firstFailure_unlisted none]
    split <;> rfl
  simp only [firstPacket, mapToSpineSet, initScheme, numFailures_unlisted none, aware, robin,
    selective, unread, if_true, Bool.true_eq_false, if_false]
  split_ifs <;> simp_all

theorem firstPacket_unlisted_sprayed (none : cfg.failedLinks = [])
    (robin : cfg.roundRobin = true) (sprays : cfg.selectiveSpraying = false) (e : PacketEnv) :
    ∃ p, firstPacket cfg e (fresh cfg) = .ok p := by
  have drawn : mapToSpineSet cfg e { fresh cfg with linkID := cfg.numUplinks - 1, rfactor := 0 } =
      .ok { fresh cfg with linkID := cfg.numUplinks - 1, rfactor := 0 } := by
    simp [mapToSpineSet, numFailures_unlisted none, pure, Except.pure]
  have scheme (a : SprayAgent) : ∃ b, initScheme cfg a = .ok b := by
    simp only [initScheme, robin, sprays, Bool.true_eq_false, Bool.false_eq_true, if_true, if_false]
    split_ifs <;> exact ⟨_, rfl⟩
  obtain ⟨b, started⟩ := scheme { fresh cfg with linkID := cfg.numUplinks - 1, rfactor := 0 }
  exact ⟨_, bind_eq_ok.mpr ⟨_, drawn, bind_eq_ok.mpr ⟨b, started, rfl⟩⟩⟩

/-- Without a listed failure a weighted flow reads the missing record at the first
flowcell that starts under a detected failure. -/
theorem chooseUplink_unlisted (none : cfg.failedLinks = []) (aware : cfg.failureAware = true)
    (robin : cfg.roundRobin = true) (sprays : cfg.selectiveSpraying = false)
    (realistic : cfg.realisticFailure = true) (failureCase : cfg.failureCase = 1 ∨ cfg.failureCase = 2)
    (e : PacketEnv) (a : SprayAgent) :
    if cfg.failureDetected e.now = true ∧ startsFlowcell cfg a = true then
      chooseUplink cfg e a = .error .noFailureRecord
    else ∃ b, chooseUplink cfg e a = .ok b := by
  have single : weightedSingle cfg a = .error .noFailureRecord := by
    rw [weightedSingle, firstFailure_unlisted none]
    rfl
  have skips : skipFailedSpine cfg (cfg.fromFailedLeaf || cfg.toFailedLeaf) a =
      .error .noFailureRecord := by
    rw [skipFailedSpine, firstFailure_unlisted none]
    rfl
  simp only [chooseUplink, aware, robin, realistic, sprays, detectedByCase, weightedPartial,
    weightedFull, numFailures_unlisted none, single, skips]
  rcases failureCase with isCase | isCase <;> cases cfg.failureDetected e.now <;>
    cases startsFlowcell cfg a <;> simp [isCase, pure, Except.pure]

/-- The step of a run that has not read the missing record yet. -/
theorem unlisted_step (none : cfg.failedLinks = []) (aware : cfg.failureAware = true)
    (robin : cfg.roundRobin = true) (sprays : cfg.selectiveSpraying = false)
    (realistic : cfg.realisticFailure = true) (failureCase : cfg.failureCase = 1 ∨ cfg.failureCase = 2)
    (reached : agentAt cfg envs k = .ok a) (unread : stampAt cfg envs k ≠ .error .noFailureRecord) :
    (∃ b, agentAt cfg envs (k + 1) = .ok b) ∧
      ¬(cfg.failureDetected (envs k).now = true ∧ k % cfg.flowcellSizePkts = 0) := by
  have count := (agentAt_inside reached).1
  obtain ⟨p, prepared⟩ : ∃ p, prepare cfg (envs k) a = .ok p := by
    rcases Nat.eq_zero_or_pos k with rfl | started
    · cases reached
      rw [prepare_first rfl]
      exact firstPacket_unlisted_sprayed none robin sprays _
    · exact ⟨a, prepare_later (by omega)⟩
  have start : startsFlowcell cfg p = true ↔ k % cfg.flowcellSizePkts = 0 := by
    simp [startsFlowcell, (prepare_counts prepared).1, count]
  have chosen := chooseUplink_unlisted none aware robin sprays realistic failureCase (envs k) p
  simp only [start] at chosen
  -- the uplink is chosen without a record, except at the start of a flowcell once detected
  split at chosen
  · exact absurd (DrivenRun.outputAt_eq_error_iff.mpr ⟨k, le_rfl, a, reached,
      bind_eq_error.mpr (.inr ⟨p, prepared, bind_eq_error.mpr (.inl chosen)⟩)⟩) unread
  next other =>
    obtain ⟨q, chosen⟩ := chosen
    exact ⟨⟨_, DrivenRun.stateAt_succ_iff.mpr ⟨a, _, reached, output_sent prepared chosen⟩⟩, other⟩

theorem fails_of_runReadsRecord (none : cfg.failedLinks = [])
    (reads : RunReadsRecord cfg envs) : ∃ k, stampAt cfg envs k = .error .noFailureRecord := by
  obtain ⟨aware, robin, branch⟩ := reads
  cases sprays : cfg.selectiveSpraying with
  | true =>
    refine ⟨0, DrivenRun.outputAt_eq_error_iff.mpr ⟨0, le_rfl, fresh cfg, rfl, ?_⟩⟩
    exact bind_eq_error.mpr (.inl (firstPacket_unlisted_placed none ⟨aware, robin, sprays⟩ _))
  | false =>
    rcases branch with selective | fixed | ⟨failureCase, c, detected⟩
    · simp [sprays] at selective
    · -- a static failure is looked up by the first packet already
      obtain ⟨p, started⟩ := firstPacket_unlisted_sprayed none robin sprays (envs 0)
      have count := ((firstPacket_ends (envs 0) (fresh cfg)).of_ok started).1
      have start : startsFlowcell cfg p = true := by
        simp [startsFlowcell, count, fresh]
      have chosen : chooseUplink cfg (envs 0) p = .error .noFailureRecord := by
        simp [chooseUplink, staticRoundRobin, aware, robin, fixed, sprays, start,
          firstFailure_unlisted none, bind, Except.bind]
      exact ⟨0, DrivenRun.outputAt_eq_error_iff.mpr ⟨0, le_rfl, fresh cfg, rfl,
        bind_eq_error.mpr (.inr ⟨p, started, bind_eq_error.mpr (.inl chosen)⟩)⟩⟩
    -- the run without a fault would reach the flowcell that looks the record up
    · by_contra never
      have realistic : cfg.realisticFailure = true := by
        simp_all [SprayConfig.failureDetected]
      have unread (k : Nat) : stampAt cfg envs k ≠ .error .noFailureRecord :=
        fun fails => never ⟨k, fails⟩
      have reaches (k : Nat) : ∃ a, agentAt cfg envs k = .ok a := by
        induction k with
        | zero => exact ⟨_, rfl⟩
        | succ k ih =>
          obtain ⟨a, reached⟩ := ih
          exact (unlisted_step none aware robin sprays realistic failureCase reached (unread k)).1
      obtain ⟨a, reached⟩ := reaches (c * cfg.flowcellSizePkts)
      exact (unlisted_step none aware robin sprays realistic failureCase reached (unread _)).2
        ⟨detected, Nat.mul_mod_left c _⟩

/-! ### All reads find a record -/

/-- In a run every read of the failure list finds its record, and every stamp an uplink,
exactly when a failure is listed or no packet of the run reads the list. -/
theorem failureRecords_exist_iff (cfg : SprayConfig) (envs : Nat → PacketEnv) :
    (∀ k, stampAt cfg envs k ≠ .error .noFailureRecord ∧
      ∀ st, stampAt cfg envs k = .ok st → st.linkID < cfg.numUplinks) ↔
    (cfg.failedLinks ≠ [] ∨ ¬RunReadsRecord cfg envs) := by
  constructor
  · intro safe
    by_contra bad
    rw [not_or, not_not, not_not] at bad
    obtain ⟨k, fails⟩ := fails_of_runReadsRecord bad.1 bad.2
    exact (safe k).1 fails
  · intro listed k
    refine ⟨fun fails => ?_, fun st sent => stampAt_inside sent⟩
    obtain ⟨none, reads⟩ := runReadsRecord_of_fails fails
    rcases listed with some | unread
    · exact some none
    · exact unread reads

/-- A weighted round-robin flow in a fabric without failures, with the scripts' other defaults. -/
def noFailureBaseline : SprayConfig where
  numUplinks := 4
  failedLinks := []
  uplinks_pos := fourUplinks_pos
  inRange := by simp
  flowcellSizePkts := 10
  cell_pos := Nat.succ_pos 9
  failureAware := true
  realisticFailure := false
  roundRobin := true
  selectiveSpraying := false
  healthyPathOnly := false
  daSprayOnly := 0
  daFlow := false
  poorPathFlow := false
  failureCase := 0
  failureRatio := 10
  fromFailedLeaf := false
  toFailedLeaf := false
  srcLeaf := 0
  destLeaf := 3
  dynamicMapping := 0
  dynamicMappingThreshold := 0
  dynamicMappingThresholdGL2GL := 0
  healthyLinkCapacity := 40
  flowsizeBytes := 1000000
  timing := ⟨0, 0, 0⟩

/-- Its first packet reads the first record of the list that was never allocated. -/
theorem noFailureBaseline_readsRecord :
    2 ≤ noFailureBaseline.numUplinks ∧ noFailureBaseline.numFailures = 0 ∧
      ∀ e, stampAt noFailureBaseline (fun _ => e) 0 = .error .noFailureRecord :=
  ⟨by decide, rfl, fun _ => rfl⟩

end Saps.Spray
