import Saps.Spray.SelectiveRuns

/-!
# The path of a flowcell

All packets of one flowcell should leave on one uplink. In the middle of a
flowcell only the two branches for poor-path flows touch the uplink; what they
need to leave it where it is, is `KeepsPath`.
-/
namespace Saps.Spray

open DrivenRun (bind_eq_ok)
open CyclicSearch (next_eq)

variable {cfg : SprayConfig} {e : PacketEnv} {a b : SprayAgent}

/-! ### The uplink stays inside the fabric -/

theorem chooseUplink_inside (inside : a.linkID < cfg.numUplinks)
    (h : chooseUplink cfg e a = .ok b) : b.linkID < cfg.numUplinks := by
  rcases chooseUplink_eq e a with ⟨-, same⟩ | ⟨-, kept⟩
  · rw [same] at h
    exact (nextValidLink_ok h).2.1
  · exact (kept.of_ok h).2 inside

/-! ### In the middle of a flowcell -/

/-- The packet takes one of the branches of poor-path flows. -/
def onPoorPath (cfg : SprayConfig) (e : PacketEnv) (a : SprayAgent) : Bool :=
  cfg.failureAware && cfg.realisticFailure && cfg.roundRobin && cfg.failureDetected e.now &&
    cfg.selectiveSpraying && a.poorPathFlow &&
    (decide (cfg.failureCase = 1) && !(cfg.daFlow && decide (cfg.numFailures > 1)) ||
      decide (cfg.failureCase = 2))

/-- The poor-path branches, if taken, find the uplink where they would put it. -/
def KeepsPath (cfg : SprayConfig) (e : PacketEnv) (a : SprayAgent) : Prop :=
  onPoorPath cfg e a = true → ∀ f ∈ cfg.failedLinks.head?,
    if cfg.failureCase = 1 then
      if cfg.dynamicMapping ≠ 0 ∧ a.ndatabytes > poorPathThreshold cfg then
        cfg.numUplinks = 1 ∨ (cfg.numUplinks = 2 ∧ cfg.numFailures ≤ 1 ∧ a.linkID ≠ f.spine)
      else 1 < cfg.numFailures ∨ a.linkID = f.spine
    else if cfg.dynamicMapping ≠ 0 ∧ a.ndatabytes > cfg.dynamicMappingThresholdGL2GL then
      a.linkID = (f.spine + 1) % cfg.numUplinks
    else a.linkID = f.spine

theorem poorPathPartial_keeps_iff {f : FailedLink} {rest : List FailedLink}
    (listed : cfg.failedLinks = f :: rest) (inside : a.linkID < cfg.numUplinks)
    (h : poorPathPartial cfg a = .ok b) :
    b.linkID = a.linkID ↔
      if cfg.dynamicMapping ≠ 0 ∧ a.ndatabytes > poorPathThreshold cfg then
        cfg.numUplinks = 1 ∨ (cfg.numUplinks = 2 ∧ cfg.numFailures ≤ 1 ∧ a.linkID ≠ f.spine)
      else 1 < cfg.numFailures ∨ a.linkID = f.spine := by
  have failed : f.spine < cfg.numUplinks := cfg.inRange f (by simp [listed])
  have once := next_eq inside
  have twice := next_eq (i := (a.linkID + 1) % cfg.numUplinks) (Nat.mod_lt _ cfg.uplinks_pos)
  simp only [poorPathPartial] at h
  rw [firstFailure_of_listed listed] at h
  simp only [bind, Except.bind, pure, Except.pure] at h
  split_ifs at h ⊢ with past several again several
  · -- one step, which comes back only where there is one uplink
    cases h
    rw [nextLink_linkID, once]
    split_ifs <;> omega
  · -- two steps, as the first one led to the failed spine: with two uplinks they come back
    cases h
    rw [nextLink_linkID] at again
    rw [nextLink_linkID, nextLink_linkID, twice, once]
    rw [once] at again
    split_ifs at again ⊢ <;> omega
  · cases h
    -- one step, which did not lead to the failed spine
    rw [nextLink_linkID] at again ⊢
    rw [once] at again ⊢
    split_ifs at again ⊢ <;> omega
  · cases h
    simp [several]
  · cases h
    simp [several, eq_comm]

theorem poorPathFull_keeps_iff {f : FailedLink} {rest : List FailedLink}
    (listed : cfg.failedLinks = f :: rest) (h : poorPathFull cfg a = .ok b) :
    b.linkID = a.linkID ↔
      if cfg.dynamicMapping ≠ 0 ∧ a.ndatabytes > cfg.dynamicMappingThresholdGL2GL then
        a.linkID = (f.spine + 1) % cfg.numUplinks
      else a.linkID = f.spine := by
  have failed : f.spine < cfg.numUplinks := cfg.inRange f (by simp [listed])
  have once := next_eq failed
  simp only [poorPathFull] at h
  rw [firstFailure_of_listed listed] at h
  simp only [bind, Except.bind, pure, Except.pure] at h
  split_ifs at h ⊢ with past again
  · cases h
    -- one uplink only: the step past the failed spine comes back to it
    have alone : cfg.numUplinks = 1 := by
      rw [nextLink_linkID] at again
      dsimp only at again
      rw [once] at again
      split_ifs at again <;> omega
    simp [alone, Nat.mod_one, eq_comm]
  · cases h
    simp [eq_comm]
  · cases h
    simp [eq_comm]

/-- Off the poor-path branches nothing moves the uplink before the next flowcell. -/
theorem midcell_unchanged (mid : startsFlowcell cfg a = false)
    (sprayed : onPoorPath cfg e a = false) (h : chooseUplink cfg e a = .ok b) : b = a := by
  have rotated : rotateFlowcell cfg a = a := by simp [rotateFlowcell, mid]
  simp only [chooseUplink] at h
  split_ifs at h with aware realistic robin detected searches robin
  · cases h
    exact rotated
  · simp [mid] at searches
  · -- what is left of the failure cases waits for the start of a flowcell
    simp only [detectedByCase, selectivePartial, selectiveFull, weightedPartial, weightedFull] at h
    simp only [mid, rotated, Bool.false_and, Bool.false_eq_true, if_false, pure, Except.pure] at h
    simp only [onPoorPath, aware, realistic, robin, detected] at sprayed
    grind
  · cases h
    exact rotated
  · simp only [probabilistic, mid, Bool.false_eq_true, if_false, pure, Except.pure] at h
    cases h
    rfl
  · cases h
    exact rotated
  · simp only [staticRoundRobin, mid, Bool.false_eq_true, if_false, ite_self, pure,
      Except.pure] at h
    cases h
    rfl
  · simp only [probabilistic, mid, Bool.false_eq_true, if_false, pure, Except.pure] at h
    cases h
    rfl

/-- What a packet in the middle of a flowcell needs to stay on the flowcell's uplink. -/
theorem midcell_keeps_iff (failure : 0 < cfg.numFailures) (inside : a.linkID < cfg.numUplinks)
    (mid : startsFlowcell cfg a = false) (h : chooseUplink cfg e a = .ok b) :
    b.linkID = a.linkID ↔ KeepsPath cfg e a := by
  cases poor : onPoorPath cfg e a with
  | false => simp [KeepsPath, poor, midcell_unchanged mid poor h]
  | true =>
    obtain ⟨f, rest, listed⟩ := List.exists_cons_of_length_pos failure
    have cases := poor
    simp only [onPoorPath, Bool.and_eq_true, Bool.or_eq_true, decide_eq_true_eq,
      Bool.not_eq_true'] at cases
    obtain ⟨⟨⟨⟨⟨⟨aware, realistic⟩, robin⟩, detected⟩, selective⟩, poorPath⟩, failureCase⟩ := cases
    have byCase : detectedByCase cfg a = .ok b := by
      simpa [chooseUplink, aware, realistic, robin, detected, mid] using h
    simp only [KeepsPath, poor, listed, List.head?_cons, Option.mem_some_iff, forall_eq',
      forall_const]
    -- the two failure cases move the flow each in its own way
    rcases failureCase with ⟨isPartial, several⟩ | isFull
    · simp only [detectedByCase, isPartial, selective, selectivePartial, several, poorPath, if_true,
        Bool.false_eq_true, if_false] at byCase
      rw [if_pos isPartial]
      exact poorPathPartial_keeps_iff listed inside byCase
    · simp only [detectedByCase, isFull, selective, selectiveFull, poorPath, if_true] at byCase
      rw [if_neg (by omega)]
      exact poorPathFull_keeps_iff listed byCase

/-! ### Runs -/

variable {envs : Nat → PacketEnv} {k : Nat} {st : Stamp}

theorem agentAt_inside (reached : agentAt cfg envs k = .ok a) :
    a.ndatapack = k ∧ (0 < k → a.linkID < cfg.numUplinks) := by
  refine DrivenRun.invariant (I := fun k s => s.ndatapack = k ∧ (0 < k → s.linkID < cfg.numUplinks))
    ⟨rfl, fun none => absurd none (lt_irrefl 0)⟩ ?_ reached
  rintro k s t st ⟨count, inside⟩ sent
  obtain ⟨p, q, prepared, chosen, rfl, -⟩ := output_ok sent
  have packs := (chooseUplink_ndatapack chosen).trans (prepare_counts prepared).1
  have started := ((prepare_ends (envs k) s).of_ok prepared).2.2 (count ▸ inside)
  have kept := chooseUplink_inside started chosen
  exact ⟨by simp [packs, count], fun _ => kept⟩

theorem stampAt_ok (sent : stampAt cfg envs k = .ok st) :
    ∃ a b, agentAt cfg envs k = .ok a ∧ output cfg (envs k) a = .ok (b, st) ∧
      agentAt cfg envs (k + 1) = .ok b ∧ b.linkID = st.linkID ∧
      st.flowcellSeq = k / cfg.flowcellSizePkts := by
  obtain ⟨a, b, reached, answer⟩ := DrivenRun.outputAt_eq_ok_iff.mp sent
  obtain ⟨p, q, prepared, chosen, rfl, rfl⟩ := output_ok answer
  have packs := (chooseUplink_ndatapack chosen).trans (prepare_counts prepared).1
  refine ⟨a, _, reached, answer, DrivenRun.stateAt_succ_iff.mpr ⟨a, _, reached, answer⟩, rfl, ?_⟩
  rw [packs, (agentAt_inside reached).1]

theorem stampAt_inside (sent : stampAt cfg envs k = .ok st) : st.linkID < cfg.numUplinks := by
  obtain ⟨a, b, -, -, after, link, -⟩ := stampAt_ok sent
  rw [← link]
  exact (agentAt_inside after).2 (Nat.succ_pos k)

theorem midcell_stamp (failure : 0 < cfg.numFailures) (mid : k % cfg.flowcellSizePkts ≠ 0)
    (reached : agentAt cfg envs k = .ok a) (sent : stampAt cfg envs k = .ok st) :
    st.linkID = a.linkID ↔ KeepsPath cfg (envs k) a := by
  obtain ⟨count, inside⟩ := agentAt_inside reached
  have started : k ≠ 0 := by
    rintro rfl
    simp at mid
  obtain ⟨a', b, reached', answer, -⟩ := stampAt_ok sent
  cases reached.symm.trans reached'
  obtain ⟨p, q, prepared, chosen, rfl, rfl⟩ := output_ok answer
  rw [prepare_later (by omega)] at prepared
  cases prepared
  exact midcell_keeps_iff failure (inside (by omega)) (by simp [startsFlowcell, count, mid]) chosen

/-- Between packets the agent keeps the uplink of the last stamp. -/
theorem stampAt_before (reached : agentAt cfg envs (k + 1) = .ok a) :
    ∃ st, stampAt cfg envs k = .ok st ∧ a.linkID = st.linkID := by
  obtain ⟨s, st, before, answer⟩ := DrivenRun.stateAt_succ_iff.mp reached
  have sent : stampAt cfg envs k = .ok st :=
    DrivenRun.outputAt_eq_ok_iff.mpr ⟨s, a, before, answer⟩
  obtain ⟨s', b, -, -, after, link, -⟩ := stampAt_ok sent
  cases reached.symm.trans after
  exact ⟨st, sent, link⟩

private theorem sameCell_iff {f k : Nat} : (k + 1) / f = k / f ↔ (k + 1) % f ≠ 0 := by
  rw [Nat.succ_div, Ne, ← Nat.dvd_iff_mod_eq_zero]
  split
  next starts => simp [starts]
  next inside => simp [inside]

/-- In a run, every flowcell stays on one uplink exactly when the poor-path branches
never meet, in the middle of a flowcell, an uplink other than the one they assign. -/
theorem flowcell_onePath_iff (cfg : SprayConfig) (envs : Nat → PacketEnv)
    (failure : 0 < cfg.numFailures) :
    (∀ j k sj sk, stampAt cfg envs j = .ok sj → stampAt cfg envs k = .ok sk →
      sj.flowcellSeq = sk.flowcellSeq → sj.linkID = sk.linkID) ↔
    (∀ k a st, k % cfg.flowcellSizePkts ≠ 0 → agentAt cfg envs k = .ok a →
      stampAt cfg envs k = .ok st → KeepsPath cfg (envs k) a) := by
  have seq : ∀ {k st}, stampAt cfg envs k = .ok st → st.flowcellSeq = k / cfg.flowcellSizePkts :=
    fun sent => by
      obtain ⟨a, b, -, -, -, -, seq⟩ := stampAt_ok sent
      exact seq
  constructor
  · intro onePath k a st mid reached sent
    -- the packet before it belongs to the same cell, and the agent kept that packet's uplink
    obtain ⟨k, rfl⟩ : ∃ i, k = i + 1 := Nat.exists_eq_succ_of_ne_zero (by rintro rfl; simp at mid)
    obtain ⟨st', sent', link⟩ := stampAt_before reached
    rw [← midcell_stamp failure mid reached sent, link]
    apply onePath _ _ _ _ sent sent'
    rw [seq sent, seq sent']
    exact sameCell_iff.mpr mid
  · intro keeps
    -- from the earlier packet of the cell on, every later one repeats its uplink
    have forward : ∀ j sj, stampAt cfg envs j = .ok sj → ∀ k, j ≤ k → ∀ sk,
        stampAt cfg envs k = .ok sk → sj.flowcellSeq = sk.flowcellSeq →
        sj.linkID = sk.linkID := by
      intro j sj sentj k after
      induction k, after using Nat.le_induction with
      | base =>
        intro sk sentk _
        cases sentj.symm.trans sentk
        rfl
      | succ k after ih =>
        intro sk sentk sameSeq
        rw [seq sentj, seq sentk] at sameSeq
        -- packet `k` lies between two packets of the cell, so it is of the cell too
        have cell : (k + 1) / cfg.flowcellSizePkts = k / cfg.flowcellSizePkts := by
          have low := Nat.div_le_div_right (c := cfg.flowcellSizePkts) after
          have high := Nat.div_le_div_right (c := cfg.flowcellSizePkts) (Nat.le_add_right k 1)
          omega
        obtain ⟨a, b, reached, -⟩ := stampAt_ok sentk
        obtain ⟨st, sent, link⟩ := stampAt_before reached
        have mid := sameCell_iff.mp cell
        rw [(midcell_stamp failure mid reached sentk).mpr (keeps _ _ _ mid reached sentk), link]
        apply ih st sent
        rw [seq sentj, seq sent, sameSeq, cell]
    intro j k sj sk sentj sentk sameSeq
    rcases le_total j k with after | after
    · exact forward j sj sentj k after sk sentk sameSeq
    · exact (forward k sk sentk j after sj sentj sameSeq.symm).symm

/-- A flow on the degraded uplink that is moved off it after 1000 bytes. -/
def poorPathExample : SprayConfig where
  numUplinks := 4
  failedLinks := [⟨0, 1, 10⟩]
  uplinks_pos := fourUplinks_pos
  inRange := by decide
  flowcellSizePkts := 2
  cell_pos := Nat.two_pos
  failureAware := true
  realisticFailure := true
  roundRobin := true
  selectiveSpraying := true
  healthyPathOnly := false
  daSprayOnly := 0
  daFlow := false
  poorPathFlow := true
  failureCase := 1
  failureRatio := 10
  fromFailedLeaf := true
  toFailedLeaf := false
  srcLeaf := 0
  destLeaf := 3
  dynamicMapping := 1
  dynamicMappingThreshold := 1000
  dynamicMappingThresholdGL2GL := 1000
  healthyLinkCapacity := 40
  flowsizeBytes := 1000000
  timing := ⟨0, 0, 0⟩

/-- Full packets, all sent while the failure is known. -/
def fullPackets (_ : Nat) : PacketEnv where
  now := 1
  databytes := 1500
  incomingTrafficToDestLeaf := 0
  randNumTotalBW := 0
  randNumHealthyBW := 0
  randNumDaIndirectFailureBW := 0
  randomNumber := 0
  randomUplink := 0

/-- The first flowcell is split: the threshold is crossed between its two packets. -/
theorem poorPathExample_splits :
    ∃ sj sk, stampAt poorPathExample fullPackets 0 = .ok sj ∧
      stampAt poorPathExample fullPackets 1 = .ok sk ∧ sj.flowcellSeq = sk.flowcellSeq ∧
      sj.linkID ≠ sk.linkID :=
  ⟨⟨1, 0, true⟩, ⟨2, 0, true⟩, by decide +kernel, by decide +kernel, rfl, by decide⟩

/-- Packets sent before the failure begins. -/
def earlyPackets (_ : Nat) : PacketEnv := ⟨0, 1500, 0, 0, 0, 0, 0, 0⟩

theorem earlyPackets_keep (k : Nat) (a : SprayAgent) :
    KeepsPath poorPathExample (earlyPackets k) a := by
  intro poorly
  have undetected : poorPathExample.failureDetected (earlyPackets k).now = false := by
    simp [SprayConfig.failureDetected, poorPathExample, earlyPackets]
  simp [onPoorPath, undetected] at poorly

/-- Once the failure is known flowcells are split; before that they stay on their paths. -/
theorem flowcell_onePath_iff_poorPathExample :
    ((∀ j k sj sk, stampAt poorPathExample fullPackets j = .ok sj →
        stampAt poorPathExample fullPackets k = .ok sk →
        sj.flowcellSeq = sk.flowcellSeq → sj.linkID = sk.linkID) ↔
      (∀ k a st, k % 2 ≠ 0 → agentAt poorPathExample fullPackets k = .ok a →
        stampAt poorPathExample fullPackets k = .ok st →
        KeepsPath poorPathExample (fullPackets k) a)) ∧
    ∀ j k sj sk, stampAt poorPathExample earlyPackets j = .ok sj →
      stampAt poorPathExample earlyPackets k = .ok sk →
      sj.flowcellSeq = sk.flowcellSeq → sj.linkID = sk.linkID :=
  ⟨flowcell_onePath_iff poorPathExample fullPackets (by decide),
    (flowcell_onePath_iff poorPathExample earlyPackets (by decide)).mpr
      fun k a _ _ _ _ => earlyPackets_keep k a⟩

end Saps.Spray
