import Saps.Library.CyclicRotation
import Saps.Spray.FlowcellPath
import Saps.Spray.FlowcellRuns

/-!
# Selective spraying with a single failure

The two copies of the rotation that steps over the failed spine, one for partial
and one for full failures. They differ in whether the first flowcell moves the
uplink; from then on both go round the spines that the flow may use.
-/
namespace Saps.Spray

open CyclicRotation
open CyclicSearch (next_eq)
open DrivenRun (bind_eq_ok)

variable {cfg : SprayConfig} {e : PacketEnv} {a b : SprayAgent} {failure : FailedLink}

/-- A selectively sprayed flow off the poor path, with one failure in the fabric. -/
structure SelectiveSingleFailure (cfg : SprayConfig) (failure : FailedLink) : Prop where
  listed : cfg.failedLinks = [failure]
  several : 2 ≤ cfg.numUplinks
  aware : cfg.failureAware = true
  realistic : cfg.realisticFailure = true
  robin : cfg.roundRobin = true
  selective : cfg.selectiveSpraying = true
  sprayed : cfg.poorPathFlow = false
  failureCase : cfg.failureCase = 1 ∨ cfg.failureCase = 2

/-- Where the first packet puts the flow. -/
def startLink (cfg : SprayConfig) (failure : FailedLink) : Nat :=
  if (cfg.fromFailedLeaf || cfg.toFailedLeaf) && cfg.daFlow then cfg.numUplinks - 1
  else (failure.spine + 1) % cfg.numUplinks

/-- The uplink after `linkID` in the rotation that steps over `p` if `skip` says so. -/
def stepOver (n p : Nat) (skip : Bool) (linkID : Nat) : Nat :=
  let next := (linkID + 1) % n
  if next = p ∧ skip then (next + 1) % n else next

/-- The uplink of flowcell `j`. Under a full failure the first flowcell moves it already. -/
def selectiveLink (cfg : SprayConfig) (failure : FailedLink) : Nat → Nat
  | 0 =>
    if cfg.failureCase = 2 then
      stepOver cfg.numUplinks failure.spine (avoidsFailedSpine cfg) (startLink cfg failure)
    else startLink cfg failure
  | j + 1 =>
    stepOver cfg.numUplinks failure.spine (avoidsFailedSpine cfg) (selectiveLink cfg failure j)

/-- The uplink that `j` flowcells have led to. -/
def linkBefore (cfg : SprayConfig) (failure : FailedLink) : Nat → Nat
  | 0 => startLink cfg failure
  | j + 1 => selectiveLink cfg failure j

/-- The agent with `j` flowcells behind it is where the rotation is. -/
structure Selected (cfg : SprayConfig) (failure : FailedLink) (j : Nat) (a : SprayAgent) :
    Prop where
  sprayed : a.poorPathFlow = false
  linkID : a.linkID = linkBefore cfg failure j

namespace SelectiveSingleFailure

theorem first (scheme : SelectiveSingleFailure cfg failure) : firstFailure cfg = .ok failure :=
  firstFailure_of_listed scheme.listed

theorem single (scheme : SelectiveSingleFailure cfg failure) : cfg.numFailures = 1 := by
  rw [SprayConfig.numFailures, scheme.listed]
  rfl

theorem inside (scheme : SelectiveSingleFailure cfg failure) : failure.spine < cfg.numUplinks :=
  cfg.inRange failure (by simp [scheme.listed])

/-- The initial values: a flow that counts as DA flow keeps the last uplink. -/
theorem initScheme_eq (scheme : SelectiveSingleFailure cfg failure)
    (sprayed : a.poorPathFlow = false) (last : a.linkID = cfg.numUplinks - 1) :
    initScheme cfg a = .ok { a with linkID := startLink cfg failure } := by
  have placed : initSelective cfg a =
      .ok { a with linkID := (failure.spine + 1) % cfg.numUplinks } := by
    simp [initSelective, sprayed, scheme.single, scheme.first, bind, Except.bind, pure, Except.pure]
  simp only [initScheme]
  rw [if_pos scheme.aware, if_pos scheme.robin, if_pos scheme.selective, placed, startLink]
  cases affected : cfg.fromFailedLeaf || cfg.toFailedLeaf with
  | false => simp [scheme.robin, scheme.selective]
  | true =>
    cases isDa : cfg.daFlow with
    | false => simp
    | true =>
      have kept : { a with linkID := cfg.numUplinks - 1 } = a := by rw [← last]
      rw [if_pos rfl, if_pos (by simp [sprayed, scheme.single]), Bool.and_self, if_pos rfl, kept]
      rfl

theorem firstPacket_selected (scheme : SelectiveSingleFailure cfg failure) (e : PacketEnv) :
    ∃ p, firstPacket cfg e (fresh cfg) = .ok p ∧ Selected cfg failure 0 p := by
  have mapping : mapToSpineSet cfg e { fresh cfg with linkID := cfg.numUplinks - 1, rfactor := 0 } =
      .ok { fresh cfg with linkID := cfg.numUplinks - 1, rfactor := 0 } := by
    simp only [mapToSpineSet, scheme.single]
    rfl
  have sprayed : (fresh cfg).poorPathFlow = false := scheme.sprayed
  exact ⟨_, bind_eq_ok.mpr ⟨_, mapping, bind_eq_ok.mpr
    ⟨_, scheme.initScheme_eq sprayed rfl, rfl⟩⟩, sprayed, rfl⟩

theorem skipFailedSpine_eq (scheme : SelectiveSingleFailure cfg failure) (skip : Bool) :
    skipFailedSpine cfg skip a =
      .ok { a with linkID := stepOver cfg.numUplinks failure.spine skip a.linkID } := by
  simp only [skipFailedSpine, scheme.first, bind, Except.bind, pure, Except.pure]
  by_cases failed : (nextLink cfg a).linkID = failure.spine ∧ skip = true
  · have next : stepOver cfg.numUplinks failure.spine skip a.linkID =
        ((a.linkID + 1) % cfg.numUplinks + 1) % cfg.numUplinks := if_pos failed
    rw [if_pos failed, next]
    rfl
  · have next : stepOver cfg.numUplinks failure.spine skip a.linkID =
        (a.linkID + 1) % cfg.numUplinks := if_neg failed
    rw [if_neg failed, next]
    rfl

/-- What a detected failure comes to: a step of the rotation, which under a partial failure
the first flowcell of the flow does not take. -/
theorem chooseUplink_eq (scheme : SelectiveSingleFailure cfg failure)
    (detected : cfg.failureDetected e.now = true) (sprayed : a.poorPathFlow = false) :
    chooseUplink cfg e a =
      if startsFlowcell cfg a && (decide (a.ndatapack > 0) || decide (cfg.failureCase = 2)) then
        skipFailedSpine cfg (avoidsFailedSpine cfg) a
      else .ok a := by
  have single : decide (cfg.numFailures > 1) = false := by simp [scheme.single]
  have branch : chooseUplink cfg e a = detectedByCase cfg a := by
    simp only [chooseUplink, scheme.aware, scheme.realistic, scheme.robin, detected, single,
      Bool.and_false, Bool.false_and, Bool.false_eq_true, reduceCtorEq, if_true, if_false]
  rw [branch, detectedByCase]
  -- the two failure cases differ in whether the first packet moves
  rcases scheme.failureCase with isPartial | isFull
  · have notFull : cfg.failureCase ≠ 2 := by omega
    rw [if_pos isPartial, if_pos scheme.selective, selectivePartial, single, Bool.and_false,
      sprayed]
    simp [notFull, scheme.single, pure, Except.pure]
  · have notPartial : cfg.failureCase ≠ 1 := by omega
    rw [if_neg notPartial, if_pos isFull, if_pos scheme.selective, selectiveFull, sprayed]
    simp [isFull, pure, Except.pure]

/-- The start of a flowcell takes the agent to the uplink of that flowcell. -/
theorem starts_selected (scheme : SelectiveSingleFailure cfg failure)
    (detected : cfg.failureDetected e.now = true) {j : Nat}
    (place : a.ndatapack = j * cfg.flowcellSizePkts) (selected : Selected cfg failure j a) :
    ∃ b, chooseUplink cfg e a = .ok b ∧ Selected cfg failure (j + 1) b := by
  have starts : startsFlowcell cfg a = true := by simp [startsFlowcell, place]
  have link := selected.linkID
  rw [scheme.chooseUplink_eq detected selected.sprayed, starts, Bool.true_and,
    scheme.skipFailedSpine_eq]
  -- the first flowcell keeps its uplink in the partial case
  cases j with
  | zero =>
    have firstPacket : decide (a.ndatapack > 0) = false := by simp [place]
    rw [firstPacket, Bool.false_or]
    by_cases isFull : cfg.failureCase = 2
    · refine ⟨_, if_pos (decide_eq_true isFull), selected.sprayed, ?_⟩
      rw [linkBefore, selectiveLink, if_pos isFull, link]
      rfl
    · refine ⟨a, if_neg (by simp [isFull]), selected.sprayed, ?_⟩
      rw [linkBefore, selectiveLink, if_neg isFull, link]
      rfl
  | succ j =>
    have later : decide (a.ndatapack > 0) = true := by
      simp [place, cfg.cell_pos]
    refine ⟨_, if_pos (by rw [later, Bool.true_or]), selected.sprayed, ?_⟩
    rw [linkBefore, selectiveLink, link]
    rfl

theorem moves (scheme : SelectiveSingleFailure cfg failure) {envs : Nat → PacketEnv}
    (detected : ∀ k, cfg.failureDetected (envs k).now = true) :
    MovesByFlowcell cfg envs (Selected cfg failure) where
  first := scheme.firstPacket_selected (envs 0)
  starts _ _ place selected := scheme.starts_selected (detected _) place selected
  stays k a count mid selected := by
    rw [scheme.chooseUplink_eq (detected k) selected.sprayed]
    exact if_neg (by simp [startsFlowcell, count, mid])
  counters _ _ _ _ selected := ⟨selected.sprayed, selected.linkID⟩

end SelectiveSingleFailure

/-! ### The rotation -/

/-- Stepping over the failed spine leads to the first other one. -/
theorem stepOver_first {n p : Nat} (several : 2 ≤ n) (linkID : Nat) :
    First n (fun s => decide (s ≠ p)) ((linkID + 1) % n) (stepOver n p true linkID) := by
  have inside : (linkID + 1) % n < n := Nat.mod_lt _ (by omega)
  simp only [stepOver, and_true]
  split
  next failed =>
    rw [failed] at inside ⊢
    have other : (p + 1) % n ≠ p := by
      rw [next_eq inside]
      split <;> omega
    refine ⟨decide_eq_true other, 1, several, rfl, fun e early => ?_⟩
    rw [Nat.lt_one_iff.mp early, Nat.add_zero, Nat.mod_eq_of_lt inside]
    exact decide_eq_false (not_not.mpr rfl)
  next other => exact First.here inside (decide_eq_true other)

theorem stepOver_plain {n p : Nat} (several : 2 ≤ n) (linkID : Nat) :
    First n (fun _ => true) ((linkID + 1) % n) (stepOver n p false linkID) := by
  have plain : stepOver n p false linkID = (linkID + 1) % n := if_neg (fun failed => nomatch failed.2)
  rw [plain]
  exact First.here (Nat.mod_lt _ (by omega)) rfl

theorem rank_other {n p : Nat} (inside : p < n) : rank (fun s => decide (s ≠ p)) n = n - 1 := by
  simp only [rank, decide_eq_true_eq]
  rw [Nat.count_eq_card_filter_range, Finset.filter_ne',
    Finset.card_erase_of_mem (Finset.mem_range.mpr inside), Finset.card_range]

theorem rank_all (n : Nat) : rank (fun _ => true) n = n := by simp [rank]

/-- After the first flowcell of a run under the detected failure, a flow that has to avoid
the failed spine goes round the other ones, and any other flow goes round them all. -/
theorem selective_fair (cfg : SprayConfig) (failure : FailedLink)
    (scheme : SelectiveSingleFailure cfg failure) (envs : Nat → PacketEnv)
    (detected : ∀ k, cfg.failureDetected (envs k).now = true) :
    ∃ link : Nat → Nat,
      (∀ k, ∃ st, stampAt cfg envs k = .ok st ∧ st.flowcellSeq = k / cfg.flowcellSizePkts ∧
        st.linkID = link st.flowcellSeq) ∧
      ((cfg.fromFailedLeaf = true ∨ cfg.toFailedLeaf = true) ∨
          (cfg.healthyPathOnly = false ∧ cfg.daSprayOnly = 0) →
        (∀ j, link (j + 1) ≠ failure.spine) ∧
        ∀ c, ∀ s < cfg.numUplinks, s ≠ failure.spine →
          (cfg.numUplinks - 1).count (fun i => link (c + i + 1) = s) = 1) ∧
      (¬((cfg.fromFailedLeaf = true ∨ cfg.toFailedLeaf = true) ∨
          (cfg.healthyPathOnly = false ∧ cfg.daSprayOnly = 0)) →
        ∀ c, ∀ s < cfg.numUplinks,
          cfg.numUplinks.count (fun i => link (c + i + 1) = s) = 1) := by
  have policy : ((cfg.fromFailedLeaf = true ∨ cfg.toFailedLeaf = true) ∨
      (cfg.healthyPathOnly = false ∧ cfg.daSprayOnly = 0)) ↔ avoidsFailedSpine cfg = true := by
    simp [avoidsFailedSpine, or_comm]
  have next (j : Nat) : selectiveLink cfg failure (j + 1) = stepOver cfg.numUplinks failure.spine
      (avoidsFailedSpine cfg) (selectiveLink cfg failure j) := rfl
  rw [policy]
  refine ⟨selectiveLink cfg failure, fun k => ?_, fun avoids => ?_, fun plain => ?_⟩
  · obtain ⟨q, selected, sent⟩ := (scheme.moves detected).stampAt k
    exact ⟨_, sent, rfl, selected.linkID⟩
  · have turn (j : Nat) : First cfg.numUplinks (fun s => decide (s ≠ failure.spine))
        ((selectiveLink cfg failure j + 1) % cfg.numUplinks) (selectiveLink cfg failure (j + 1)) := by
      rw [next, avoids]
      exact stepOver_first scheme.several _
    refine ⟨fun j => of_decide_eq_true (turn j).marked, fun c s below other => ?_⟩
    -- a round has one turn less, as the failed spine's uplink has none
    have once := Rotates.whole_rounds (R := 1) (fun i _ => turn (c + i)) below
      (decide_eq_true other)
    rwa [rank_other scheme.inside, Nat.one_mul] at once
  · have turn (j : Nat) : First cfg.numUplinks (fun _ => true)
        ((selectiveLink cfg failure j + 1) % cfg.numUplinks) (selectiveLink cfg failure (j + 1)) := by
      have never : avoidsFailedSpine cfg = false := by simpa using plain
      rw [next, never]
      exact stepOver_plain scheme.several _
    intro c s below
    have once := Rotates.whole_rounds (R := 1) (fun i _ => turn (c + i)) below rfl
    rwa [rank_all, Nat.one_mul] at once

/-- Four uplinks, the second of them dead, in the branch for full failures. -/
def deadSecondUplink : SprayConfig :=
  { (Fabric.mk 4 [⟨0, 1, 100⟩] fourUplinks_pos (by decide)).flow with
    flowcellSizePkts := 2
    cell_pos := Nat.two_pos
    selectiveSpraying := true
    failureCase := 2 }

theorem deadSecondUplink_detected (k : Nat) :
    deadSecondUplink.failureDetected (fullPackets k).now = true := by
  simp [SprayConfig.failureDetected, deadSecondUplink, Fabric.flow, fullPackets]

theorem selective_fair_deadSecondUplink :
    ∃ link : Nat → Nat,
      (∀ k, ∃ st, stampAt deadSecondUplink fullPackets k = .ok st ∧ st.flowcellSeq = k / 2 ∧
        st.linkID = link st.flowcellSeq) ∧
      (∀ j, link (j + 1) ≠ 1) ∧ ∀ c, Nat.count (fun i => link (c + i + 1) = 3) 3 = 1 := by
  obtain ⟨link, runs, avoids, -⟩ := selective_fair deadSecondUplink ⟨0, 1, 100⟩
    ⟨rfl, by decide, rfl, rfl, rfl, rfl, rfl, .inr rfl⟩ fullPackets deadSecondUplink_detected
  obtain ⟨never, once⟩ := avoids (.inl (.inl rfl))
  exact ⟨link, runs, never, fun c => once c 3 (by decide) (by decide)⟩

end Saps.Spray
