import Saps.Spray.Classification
import Saps.Library.DrivenRun

/-!
# The first packet of a flow

The block of `output()` under `ndatapack_ == 0`: classification, the draw of the
spine set the flow is mapped to, and the initial values of the chosen scheme.
-/
namespace Saps.Spray

variable (cfg : SprayConfig)

structure Bandwidths where
  partialFailurePathsBW : Int
  healthyPathsBW : Int
  indirectFailurePathsBW : Int
  totalBW : Int

def bandwidths (t : SpineSets) (failureRatio : Nat) : Except Fault Bandwidths :=
  if failureRatio = 0 then .error .divisionByZero
  else
    let capacity : Int := cfg.healthyLinkCapacity
    let partialFailurePathsBW :=
      t.numDirectPartialFailurePaths * ((cfg.healthyLinkCapacity / failureRatio : Nat) : Int)
    let healthyPathsBW :=
      (cfg.numUplinks - t.numDirectPartialFailurePaths - t.numDirectFullFailurePaths) * capacity
    let totalBW := partialFailurePathsBW + healthyPathsBW
    .ok {
      partialFailurePathsBW
      healthyPathsBW
      indirectFailurePathsBW :=
        (t.numIndirectFullFailurePaths + t.numIndirectPartialFailurePaths) * capacity
      -- extra cautious for the to-failed-leaf case
      totalBW := if cfg.toFailedLeaf then totalBW * (cfg.numUplinks - 1) else totalBW }

/-- Short flows, and all flows under dynamic mapping, may start on the weak direct set. -/
def mayStartWeak : Bool :=
  decide (cfg.flowsizeBytes < cfg.dynamicMappingThreshold) || decide (cfg.dynamicMapping = 1)

/-- The same rule for the indirect sets, with their own threshold. -/
def mayStartIndirect : Bool :=
  decide (cfg.flowsizeBytes < cfg.dynamicMappingThresholdGL2GL) ||
    decide (cfg.dynamicMapping = 1)

/-- The choice of `svtMapping`. -/
def chooseSvtMapping (t : SpineSets) (b : Bandwidths) (e : PacketEnv) : Except Fault Nat := do
  -- drawn before any of the settings is looked at
  let randNumTotalBW ← randomInteger b.totalBW e.randNumTotalBW
  if mayStartWeak cfg ∧ cfg.healthyPathOnly = false ∧
      randNumTotalBW < b.partialFailurePathsBW then
    pure 1
  else if (cfg.healthyPathOnly = false ∧ cfg.daSprayOnly = 0) ∧
      t.numIndirectFullFailurePaths + t.numIndirectPartialFailurePaths > 0 ∧
      e.incomingTrafficToDestLeaf ≠ 0 then do
    let randNumHealthyBW ← randomInteger b.healthyPathsBW e.randNumHealthyBW
    if mayStartIndirect cfg ∧ randNumHealthyBW < b.indirectFailurePathsBW then do
      let randNumDaIndirectFailureBW ←
        randomInteger b.indirectFailurePathsBW e.randNumDaIndirectFailureBW
      -- full capacity is counted for a partly failed indirect path too
      if randNumDaIndirectFailureBW <
          t.numIndirectPartialFailurePaths * (cfg.healthyLinkCapacity : Int) then
        pure 11
      else
        pure 12
    else
      pure 10
  else
    pure 0

/-- The arrays are allocated afresh, the counters are those of the agent. -/
def SpineSets.allocate (t : SpineSets) : SpineSets :=
  { SpineSets.initial with
    numDirectFailures := t.numDirectFailures
    numDirectPartialFailurePaths := t.numDirectPartialFailurePaths
    numDirectFullFailurePaths := t.numDirectFullFailurePaths
    numIndirectPartialFailurePaths := t.numIndirectPartialFailurePaths
    numIndirectFullFailurePaths := t.numIndirectFullFailurePaths }

/-- The spine sets and the mapping, when failures are listed at all. -/
def mapToSpineSet (e : PacketEnv) (a : SprayAgent) : Except Fault SprayAgent :=
  if cfg.numFailures > 1 then do
    let sets := cfg.failedLinks.foldl (classifyFailure cfg) a.sets.allocate
    let b ← bandwidths cfg sets a.failureRatio
    let svtMapping ← chooseSvtMapping cfg sets b e
    pure { a with sets, svtMapping }
  else if cfg.numFailures > 0 then
    -- a single failure fills no sets: the other branches read it from the list
    pure { a with sets := a.sets.allocate }
  else
    pure a

/-- `uplinkFailureRatio`: the first direct failure listed for the spine decides. -/
def uplinkFailureRatio (i : Nat) : Nat :=
  match cfg.failedLinks.find? fun f => decide (i = f.spine) && cfg.direct f with
  | some f => f.failureRatio
  | none => 1

/-- The weight of uplink `i` for a flow from or to a failed leaf. -/
def directWeight (i : Nat) : Except Fault Nat :=
  if uplinkFailureRatio cfg i = 100 then .ok 0
  else if uplinkFailureRatio cfg i = 0 then .error .divisionByZero
  else .ok (10 / uplinkFailureRatio cfg i)

/-- The loop that fills `uplinkWeights` and adds up `totalUplinkWeights`. -/
def assignWeights (weight : Nat → Except Fault Nat) (a : SprayAgent) : Except Fault SprayAgent :=
  (List.range cfg.numUplinks).foldlM (fun a i => do
    let w ← weight i
    pure { a with
      uplinkWeights := Function.update a.uplinkWeights i w
      totalUplinkWeights := a.totalUplinkWeights + w }) a

/-- A selective single-failure flow starts on the failed spine or just past it. -/
def initSelective (a : SprayAgent) : Except Fault SprayAgent :=
  if a.poorPathFlow then
    if cfg.numFailures > 1 then pure a
    else do
      let f ← firstFailure cfg
      pure { a with linkID := f.spine }
  else if cfg.numFailures > 1 then pure a
  else do
    let f ← firstFailure cfg
    pure { a with linkID := (f.spine + 1) % cfg.numUplinks }

/-- The initial values of the chosen scheme. -/
def initScheme (a : SprayAgent) : Except Fault SprayAgent :=
  if cfg.failureAware then
    if cfg.fromFailedLeaf || cfg.toFailedLeaf then
      if cfg.roundRobin then
        if cfg.selectiveSpraying then
          -- the loop that placed these flows is commented out in the source
          if !a.poorPathFlow && cfg.daFlow && decide (cfg.numFailures > 0) then pure a
          else initSelective cfg a
        else if cfg.numFailures > 1 then
          pure { a with rfactor := (cfg.numUplinks - a.sets.numDirectFailures) * a.failureRatio }
        else
          pure { a with rfactor := ((cfg.numUplinks : Int) - 1) * a.failureRatio }
      else assignWeights cfg (directWeight cfg) a
    else if cfg.roundRobin = false then assignWeights cfg (fun _ => .ok 10) a
    else if cfg.selectiveSpraying then initSelective cfg a
    else pure { a with failureRatio := 1, rfactor := (cfg.numUplinks : Int) - 1 }
  else pure { a with failureRatio := 1, rfactor := (cfg.numUplinks : Int) - 1 }

/-- Everything the first packet does before an uplink is chosen. -/
def firstPacket (e : PacketEnv) (a : SprayAgent) : Except Fault SprayAgent := do
  -- the last uplink, so that the first step of a rotation leads to uplink 0
  let a ← mapToSpineSet cfg e { a with linkID := cfg.numUplinks - 1, rfactor := 0 }
  let a ← initScheme cfg a
  pure { a with flowCellMod := cfg.flowcellSizePkts * a.rfactor }

/-! ### What the first packet leaves alone -/

variable {cfg} {a b : SprayAgent}

open DrivenRun (bind_eq_ok)
open Outcome (Ends)

/-- What each round keeps of the weights before it holds of all weights in the end. -/
theorem assignWeights_rounds {weight : Nat → Except Fault Nat} {I : Nat → SprayAgent → Prop}
    (initial : I 0 a)
    (round : ∀ m a w, I m a → weight m = .ok w → I (m + 1) { a with
      uplinkWeights := Function.update a.uplinkWeights m w
      totalUplinkWeights := a.totalUplinkWeights + w })
    (h : assignWeights cfg weight a = .ok b) : I cfg.numUplinks b := by
  have ends : Ends (fun _ => True) (I cfg.numUplinks) (assignWeights cfg weight a) := by
    refine Ends.foldlM_range initial fun m _ a holds => ?_
    exact (Ends.any (weight m)).bind_known fun w known => round m a w holds known
  exact ends.of_ok h

theorem assignWeights_ok {weight : Nat → Except Fault Nat}
    (h : assignWeights cfg weight a = .ok b) :
    ∀ i < cfg.numUplinks, weight i = .ok (b.uplinkWeights i) := by
  -- an uplink's weight is written in its own round and stays
  apply assignWeights_rounds (I := fun m c => ∀ i < m, weight i = .ok (c.uplinkWeights i)) ?_ ?_ h
  · exact fun i before => absurd before (Nat.not_lt_zero i)
  · intro m c w written known i before
    rcases Nat.lt_succ_iff_lt_or_eq.mp before with earlier | rfl
    · rw [written i earlier]
      dsimp only
      rw [Function.update_of_ne earlier.ne]
    · rw [known]
      dsimp only
      rw [Function.update_self]

theorem assignWeights_keepsFlow {weight : Nat → Except Fault Nat}
    (finite : ∀ i, Ends (· ≠ .endlessSearch) (fun _ => True) (weight i)) (a : SprayAgent) :
    KeepsFlow cfg a (assignWeights cfg weight a) := by
  simp only [assignWeights]
  apply Ends.foldlM ⟨SameFlow.refl a, id⟩
  intro c i kept
  exact (finite i).bind fun w _ => KeepsFlow.answer (kept.1.trans ⟨rfl, rfl, rfl, rfl⟩) kept.2

theorem directWeight_ends (i : Nat) :
    Ends (· ≠ .endlessSearch) (fun _ => True) (directWeight cfg i) := by
  simp only [directWeight]
  split_ifs
  · trivial
  · exact nofun
  · trivial

theorem initSelective_keepsFlow (a : SprayAgent) : KeepsFlow cfg a (initSelective cfg a) := by
  simp only [initSelective]
  split_ifs
  · exact KeepsFlow.unchanged a
  · apply (firstFailure_ends cfg).bind
    intro f inside
    exact KeepsFlow.answer ⟨rfl, rfl, rfl, rfl⟩ fun _ => inside
  · exact KeepsFlow.unchanged a
  · apply (firstFailure_ends cfg).bind
    intro f inside
    exact KeepsFlow.answer ⟨rfl, rfl, rfl, rfl⟩ fun _ => Nat.mod_lt _ cfg.uplinks_pos

theorem initScheme_keepsFlow (a : SprayAgent) : KeepsFlow cfg a (initScheme cfg a) := by
  simp only [initScheme]
  split_ifs
  · exact KeepsFlow.unchanged a
  · exact initSelective_keepsFlow a
  · exact KeepsFlow.answer ⟨rfl, rfl, rfl, rfl⟩ id
  · exact KeepsFlow.answer ⟨rfl, rfl, rfl, rfl⟩ id
  · exact assignWeights_keepsFlow directWeight_ends a
  · exact @assignWeights_keepsFlow cfg (fun _ => .ok 10) (fun _ => trivial) a
  · exact initSelective_keepsFlow a
  · exact KeepsFlow.answer ⟨rfl, rfl, rfl, rfl⟩ id
  · exact KeepsFlow.answer ⟨rfl, rfl, rfl, rfl⟩ id

theorem chooseSvtMapping_ends (t : SpineSets) (bw : Bandwidths) (e : PacketEnv) :
    Ends (· ≠ .endlessSearch) (fun _ => True) (chooseSvtMapping cfg t bw e) := by
  simp only [chooseSvtMapping]
  apply (randomInteger_ends _ _).bind
  intro total _
  split_ifs
  · trivial
  · apply (randomInteger_ends _ _).bind
    intro healthy _
    split_ifs
    · apply (randomInteger_ends _ _).bind
      intro kind _
      split_ifs <;> trivial
    · trivial
  · trivial

/-- The draw of the spine set moves neither the counters nor the uplink. -/
theorem mapToSpineSet_ends (e : PacketEnv) (a : SprayAgent) :
    Ends (· ≠ .endlessSearch) (fun b => b.ndatapack = a.ndatapack ∧
      b.ndatabytes = a.ndatabytes ∧ b.linkID = a.linkID) (mapToSpineSet cfg e a) := by
  have known (t : SpineSets) (r : Nat) :
      Ends (· ≠ .endlessSearch) (fun _ => True) (bandwidths cfg t r) := by
    simp only [bandwidths]
    split
    · exact nofun
    · trivial
  simp only [mapToSpineSet]
  split_ifs
  · apply (known _ _).bind
    intro bw _
    apply (chooseSvtMapping_ends _ bw e).bind
    intro m _
    exact And.intro rfl ⟨rfl, rfl⟩
  · exact And.intro rfl ⟨rfl, rfl⟩
  · exact And.intro rfl ⟨rfl, rfl⟩

/-- The first packet keeps the counters, which `output()` moves at its end, and puts the
uplink inside the fabric. -/
theorem firstPacket_ends (e : PacketEnv) (a : SprayAgent) :
    Ends (· ≠ .endlessSearch) (fun b => b.ndatapack = a.ndatapack ∧
      b.ndatabytes = a.ndatabytes ∧ b.linkID < cfg.numUplinks) (firstPacket cfg e a) := by
  have uplinks := cfg.uplinks_pos
  simp only [firstPacket]
  apply (mapToSpineSet_ends e _).bind
  rintro mapped ⟨packs, bytes, link⟩
  apply (initScheme_keepsFlow mapped).bind
  rintro started ⟨same, inside⟩
  have last : mapped.linkID < cfg.numUplinks := by
    rw [link]
    show cfg.numUplinks - 1 < cfg.numUplinks
    omega
  exact And.intro (same.ndatapack.trans packs) ⟨same.ndatabytes.trans bytes, inside last⟩

end Saps.Spray
