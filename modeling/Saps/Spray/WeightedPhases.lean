import Saps.Library.PhasedRotation
import Saps.Spray.Faults
import Saps.Spray.FlowcellPath
import Saps.Spray.SpineClasses
import Saps.Spray.WeightedShare

/-!
# Weighted spraying with several failures

A weighted flow under several failures is the rotation of `PhasedRotation`, one round a
flowcell: the healthy spines are the strong members, the degraded ones the weak members,
and the dead ones are out of use.
-/
namespace Saps.Spray

open CyclicRotation
open DrivenRun (bind_eq_ok)
open PhasedRotation (Phase)

variable {cfg : SprayConfig} {e : PacketEnv} {envs : Nat → PacketEnv} {a b : SprayAgent}
  {j s : Nat}

/-- A weighted flow of an affected leaf pair, with several failures on spines of their own. -/
structure WeightedSeveralFailures (cfg : SprayConfig) : Prop where
  several : 1 < cfg.numFailures
  distinct : (cfg.failedLinks.map FailedLink.spine).Nodup
  healthy : ∃ s < cfg.numUplinks, ¬HasDirect cfg s
  positive : 1 ≤ cfg.failureRatio
  aware : cfg.failureAware = true
  realistic : cfg.realisticFailure = true
  robin : cfg.roundRobin = true
  sprays : cfg.selectiveSpraying = false
  affected : cfg.fromFailedLeaf = true ∨ cfg.toFailedLeaf = true
  failureCase : cfg.failureCase = 1

def isHealthy (cfg : SprayConfig) (s : Nat) : Bool := decide (isSpineFailed cfg s = 0)

def isWeak (cfg : SprayConfig) (s : Nat) : Bool := decide (isSpineFailed cfg s = 1)

/-- The value of `rfactor`. -/
def healthyTurns (cfg : SprayConfig) : Nat :=
  cfg.failureRatio * rank (isHealthy cfg) cfg.numUplinks

def weakTurns (cfg : SprayConfig) : Nat := rank (isWeak cfg) cfg.numUplinks

/-- The rotation before flowcell `j`. -/
def phase (cfg : SprayConfig) (j : Nat) : Phase :=
  PhasedRotation.rotation cfg.numUplinks (isHealthy cfg) (isWeak cfg) (healthyTurns cfg)
    (weakTurns cfg) j

/-! ### The spines of the three kinds -/

theorem isSpineFailed_range (cfg : SprayConfig) (s : Nat) : isSpineFailed cfg s ≤ 2 := by
  rw [isSpineFailed_eq]
  split
  · split <;> omega
  · omega

theorem isHealthy_iff : isHealthy cfg s = true ↔ ¬HasDirect cfg s := by
  have sorted := classify_represents cfg cfg.inRange
  rw [isHealthy, decide_eq_true_eq, (sets_isSpineFailed sorted).1, sorted.directExact.noFailure]

theorem healthyTurns_eq (cfg : SprayConfig) :
    ((cfg.numUplinks : Int) - (classify cfg cfg.failedLinks).numDirectFailures) * cfg.failureRatio =
      healthyTurns cfg := by
  have sorted := classify_represents cfg cfg.inRange
  have healthy : rank (isHealthy cfg) cfg.numUplinks = cfg.numUplinks.count (¬HasDirect cfg ·) :=
    CountUpdate.count_congr fun s _ => isHealthy_iff
  have all := CountUpdate.count_add_count_not (HasDirect cfg) cfg.numUplinks
  rw [sorted.directExact.numDirect, healthyTurns, healthy, Nat.mul_comm, Nat.cast_mul]
  congr 1
  omega

namespace WeightedSeveralFailures

theorem listedOnce (scheme : WeightedSeveralFailures cfg) {f g : FailedLink}
    (first : f ∈ cfg.failedLinks) (second : g ∈ cfg.failedLinks) (same : f.spine = g.spine) :
    f = g :=
  List.inj_on_of_nodup_map scheme.distinct first second same

theorem fullListedFirst (scheme : WeightedSeveralFailures cfg) (s : Nat) :
    FullListedFirst cfg s := by
  rintro ⟨g, listed, here, -, isFull⟩ f first
  obtain ⟨listed', here', -⟩ := firstDirect_some first
  rw [scheme.listedOnce listed' listed (here'.trans here.symm)]
  exact isFull

theorem isWeak_iff (scheme : WeightedSeveralFailures cfg) :
    isWeak cfg s = true ↔ HasDirect cfg s ∧ ¬HasFullDirect cfg s := by
  have sorted := classify_represents cfg cfg.inRange
  rw [isWeak, decide_eq_true_eq, (sets_isSpineFailed sorted).2.2.mpr (scheme.fullListedFirst s),
    sorted.directExact.partially]

theorem someHealthy (scheme : WeightedSeveralFailures cfg) :
    ∃ s < cfg.numUplinks, isHealthy cfg s = true := by
  obtain ⟨s, below, free⟩ := scheme.healthy
  exact ⟨s, below, isHealthy_iff.mpr free⟩

theorem healthyTurns_pos (scheme : WeightedSeveralFailures cfg) : 0 < healthyTurns cfg := by
  obtain ⟨s, below, marked⟩ := scheme.someHealthy
  exact Nat.mul_pos scheme.positive ((Nat.zero_le _).trans_lt (rank_lt below marked))

/-- Two failures are on two spines. -/
theorem uplinks (scheme : WeightedSeveralFailures cfg) : 2 ≤ cfg.numUplinks := by
  have inside : cfg.failedLinks.map FailedLink.spine ⊆ List.range cfg.numUplinks := by
    intro s listed
    obtain ⟨f, member, rfl⟩ := List.mem_map.mp listed
    exact List.mem_range.mpr (cfg.inRange f member)
  have room := (scheme.distinct.subperm inside).length_le
  rw [List.length_map, List.length_range] at room
  exact scheme.several.trans_le room

theorem numPartial (scheme : WeightedSeveralFailures cfg) :
    (classify cfg cfg.failedLinks).numDirectPartialFailurePaths = weakTurns cfg := by
  have sorted := classify_represents cfg cfg.inRange
  rw [sorted.directExact.numPartial]
  exact congrArg Nat.cast (CountUpdate.count_congr fun s _ => scheme.isWeak_iff.symm)

end WeightedSeveralFailures

/-! ### The first packet -/

/-- The agent is where the rotation is. -/
structure Phased (cfg : SprayConfig) (s : Phase) (a : SprayAgent) : Prop where
  linkID : a.linkID = s.last
  flowCellMod : a.flowCellMod = cfg.flowcellSizePkts * (s.mark : Int)
  toggleWeakSpines : a.toggleWeakSpines = s.taken
  rfactor : a.rfactor = healthyTurns cfg
  sets : a.sets = classify cfg cfg.failedLinks

theorem WeightedSeveralFailures.firstPacket (scheme : WeightedSeveralFailures cfg)
    (capacity : 0 < cfg.healthyLinkCapacity) (e : PacketEnv) :
    ∃ p, firstPacket cfg e (fresh cfg) = .ok p ∧ Phased cfg (phase cfg 0) p := by
  have sound : SoundDraws cfg :=
    ⟨fun _ => scheme.uplinks, capacity, healthySpine_of_free scheme.healthy⟩
  obtain ⟨bw, m, -, -, started⟩ := firstPacket_drawn scheme.several scheme.positive sound e
  have affected : (cfg.fromFailedLeaf || cfg.toFailedLeaf) = true := by simpa using scheme.affected
  have init : initScheme cfg (drawnAgent cfg m) =
      .ok { drawnAgent cfg m with rfactor := healthyTurns cfg } := by
    simp only [initScheme]
    rw [if_pos scheme.aware, if_pos affected, if_pos scheme.robin,
      if_neg (by simp [scheme.sprays]), if_pos scheme.several, ← healthyTurns_eq]
    rfl
  exact ⟨_, started _ init, rfl, rfl, rfl, rfl, rfl⟩

/-! ### The search -/

/-- The spines that the search stops at. -/
def isDue (cfg : SprayConfig) (turn : Bool) : Nat → Bool :=
  cond turn (isWeak cfg) (isHealthy cfg)

/-- What a round of the search makes of the spine it stops at. -/
def stopAt (cfg : SprayConfig) (turn : Bool) (a : SprayAgent) : SprayAgent :=
  cond turn (takeWeakTurn cfg a) a

variable {turn : Bool} {rounds : Nat}

/-- A round stops at a spine whose kind has the turn. -/
theorem weightedSearch_stop (decided : weakSpinesTurn a = .ok turn)
    (due : isDue cfg turn a.linkID = true) :
    weightedSearch cfg (rounds + 1) a = .ok (stopAt cfg turn a) := by
  cases turn with
  | true =>
    have weak : isSpineFailed cfg a.linkID = 1 := by simpa [isDue, isWeak] using due
    simp [weightedSearch, weak, decided, stopAt, bind, Except.bind, pure, Except.pure]
  | false =>
    have healthy : isSpineFailed cfg a.linkID = 0 := by simpa [isDue, isHealthy] using due
    simp [weightedSearch, healthy, decided, stopAt, bind, Except.bind, pure, Except.pure]

/-- It passes any other one, dead or not. -/
theorem weightedSearch_pass (decided : weakSpinesTurn a = .ok turn)
    (other : isDue cfg turn a.linkID = false) :
    weightedSearch cfg (rounds + 1) a = weightedSearch cfg rounds (nextLink cfg a) := by
  have range := isSpineFailed_range cfg a.linkID
  cases turn with
  | true =>
    have notWeak : isSpineFailed cfg a.linkID ≠ 1 := by simpa [isDue, isWeak] using other
    simp [weightedSearch, notWeak, decided, bind, Except.bind]
  | false =>
    have notHealthy : isSpineFailed cfg a.linkID ≠ 0 := by simpa [isDue, isHealthy] using other
    by_cases dead : isSpineFailed cfg a.linkID = 2
    · simp [weightedSearch, dead]
    · have weak : isSpineFailed cfg a.linkID = 1 := by omega
      simp [weightedSearch, weak, decided, bind, Except.bind]

theorem weightedSearch_found (decided : weakSpinesTurn a = .ok turn) {linkID : Nat}
    (found : CyclicSearch.search cfg.numUplinks (isDue cfg turn) rounds a.linkID = some linkID) :
    weightedSearch cfg rounds a = .ok (stopAt cfg turn { a with linkID }) := by
  induction rounds generalizing a with
  | zero => cases found
  | succ rounds ih =>
    rw [CyclicSearch.search] at found
    split at found
    next due =>
      cases found
      exact weightedSearch_stop decided due
    next other =>
      rw [weightedSearch_pass decided (by simpa using other)]
      -- a step on leaves everything but the uplink as it is
      exact @ih (nextLink cfg a) decided found

/-- A search without success walks on by its number of rounds. -/
theorem weightedSearch_missed (decided : weakSpinesTurn a = .ok turn)
    (inside : a.linkID < cfg.numUplinks)
    (missed : CyclicSearch.search cfg.numUplinks (isDue cfg turn) rounds a.linkID = none) :
    weightedSearch cfg rounds a =
      .ok { a with linkID := (a.linkID + rounds) % cfg.numUplinks } := by
  induction rounds generalizing a with
  | zero =>
    rw [Nat.add_zero, Nat.mod_eq_of_lt inside]
    rfl
  | succ rounds ih =>
    rw [CyclicSearch.search] at missed
    split at missed
    · cases missed
    next other =>
      have later := @ih (nextLink cfg a) decided (Nat.mod_lt _ cfg.uplinks_pos) missed
      rw [weightedSearch_pass decided (by simpa using other), later]
      simp only [nextLink, Nat.mod_add_mod]
      rw [Nat.add_assoc, Nat.add_comm 1]

/-! ### A flowcell is a round -/

namespace Phased

variable {phase : Phase}

theorem move (phased : Phased cfg phase a) (linkID : Nat) :
    Phased cfg { phase with last := linkID } { a with linkID } :=
  ⟨rfl, phased.flowCellMod, phased.toggleWeakSpines, phased.rfactor, phased.sets⟩

theorem takeWeakTurn (scheme : WeightedSeveralFailures cfg) (phased : Phased cfg phase a) :
    Phased cfg (PhasedRotation.takeTurn (healthyTurns cfg) (weakTurns cfg) phase)
      (takeWeakTurn cfg a) := by
  have weak : a.sets.numDirectPartialFailurePaths = weakTurns cfg := by
    rw [phased.sets, scheme.numPartial]
  have taken := phased.toggleWeakSpines
  simp only [Spray.takeWeakTurn, PhasedRotation.takeTurn, weak, taken]
  by_cases last : phase.taken + 1 ≥ weakTurns cfg
  · rw [if_pos last, if_pos (by omega)]
    refine ⟨phased.linkID, ?_, rfl, phased.rfactor, phased.sets⟩
    dsimp only
    rw [phased.flowCellMod, phased.rfactor]
    push_cast
    ring
  · rw [if_neg last, if_neg (by omega)]
    exact ⟨phased.linkID, phased.flowCellMod, rfl, phased.rfactor, phased.sets⟩

end Phased

/-- The start of flowcell `j` asks whether round `j` is a turn of the weak members. -/
theorem weakSpinesTurn_eq (scheme : WeightedSeveralFailures cfg)
    (place : a.ndatapack = j * cfg.flowcellSizePkts) (phased : Phased cfg (phase cfg j) a) :
    weakSpinesTurn a = .ok (PhasedRotation.weakTurn j (phase cfg j)) := by
  have due := onFlowCellMod_due place (PhasedRotation.mark_pos scheme.healthyTurns_pos j)
    phased.flowCellMod
  have later : decide (a.ndatapack > 0) = decide (0 < j) := by
    rw [place]
    simp [cfg.cell_pos]
  rw [weakSpinesTurn, due, phased.toggleWeakSpines, PhasedRotation.weakTurn, later]
  rfl

/-- Without direct failures every spine is healthy, and the plain step finds the next one. -/
theorem phase_undirected (scheme : WeightedSeveralFailures cfg) (none : ∀ s, ¬HasDirect cfg s)
    (j : Nat) :
    phase cfg (j + 1) = { phase cfg j with last := ((phase cfg j).last + 1) % cfg.numUplinks } := by
  have inside := Nat.mod_lt ((phase cfg j).last + 1) cfg.uplinks_pos
  rw [phase, PhasedRotation.rotation]
  cases turn : PhasedRotation.weakTurn j (phase cfg j) with
  | true =>
    refine PhasedRotation.step_none cfg.uplinks_pos (fun s _ => ?_) turn
    rw [← Bool.not_eq_true, scheme.isWeak_iff]
    exact fun weak => none s weak.1
  | false =>
    obtain ⟨last, next, first⟩ := @PhasedRotation.step_strong cfg.numUplinks (isHealthy cfg)
      (isWeak cfg) (healthyTurns cfg) (weakTurns cfg) j _ cfg.uplinks_pos scheme.someHealthy turn
    rw [first.unique inside (First.here inside (isHealthy_iff.mpr (none _)))] at next
    exact next

/-- A round of the rotation makes the same search. -/
theorem phase_succ (cfg : SprayConfig) (j : Nat) :
    phase cfg (j + 1) = (CyclicSearch.search cfg.numUplinks
      (isDue cfg (PhasedRotation.weakTurn j (phase cfg j))) cfg.numUplinks
      (((phase cfg j).last + 1) % cfg.numUplinks)).elim
        { phase cfg j with last := ((phase cfg j).last + 1) % cfg.numUplinks }
        fun last => cond (PhasedRotation.weakTurn j (phase cfg j))
          (PhasedRotation.takeTurn (healthyTurns cfg) (weakTurns cfg) { phase cfg j with last })
          { phase cfg j with last } :=
  PhasedRotation.step_eq rfl

/-- The start of a flowcell is one round of the rotation. -/
theorem weightedMultiple_phased (scheme : WeightedSeveralFailures cfg)
    (place : a.ndatapack = j * cfg.flowcellSizePkts) (phased : Phased cfg (phase cfg j) a) :
    ∃ b, weightedMultiple cfg a = .ok b ∧ Phased cfg (phase cfg (j + 1)) b := by
  have inside : (a.linkID + 1) % cfg.numUplinks < cfg.numUplinks := Nat.mod_lt _ cfg.uplinks_pos
  have behind : Phased cfg { phase cfg j with last := ((phase cfg j).last + 1) % cfg.numUplinks }
      (nextLink cfg a) := by
    rw [← phased.linkID]
    exact phased.move _
  have decided : weakSpinesTurn (nextLink cfg a) =
      .ok (PhasedRotation.weakTurn j (phase cfg j)) := @weakSpinesTurn_eq cfg a j scheme place phased
  simp only [weightedMultiple]
  split
  · cases search : CyclicSearch.search cfg.numUplinks
        (isDue cfg (PhasedRotation.weakTurn j (phase cfg j))) cfg.numUplinks
        ((a.linkID + 1) % cfg.numUplinks) with
    | some linkID =>
      refine ⟨_, weightedSearch_found decided search, ?_⟩
      rw [phased.linkID] at search
      rw [phase_succ, search, Option.elim_some, stopAt]
      have moved := phased.move linkID
      cases PhasedRotation.weakTurn j (phase cfg j) with
      | true => exact moved.takeWeakTurn scheme
      | false => exact moved
    | none =>
      refine ⟨_, weightedSearch_missed decided inside search, ?_⟩
      rw [phased.linkID] at search
      rw [phase_succ, search, Option.elim_none, nextLink_linkID, Nat.add_mod_right, Nat.mod_mod]
      exact behind
  -- with no direct failure the search is left out, and the rotation is plain
  next none =>
    refine ⟨_, rfl, ?_⟩
    have exact := (classify_represents cfg cfg.inRange).directExact
    have undirected : cfg.numUplinks.count (HasDirect cfg) = 0 := by
      have sets : (nextLink cfg a).sets = classify cfg cfg.failedLinks := phased.sets
      rw [sets, exact.numDirect] at none
      omega
    rw [phase_undirected scheme]
    · exact behind
    · rintro s ⟨f, listed, rfl, direct⟩
      exact Nat.count_iff_forall_not.mp undirected _ (cfg.inRange f listed) ⟨f, listed, rfl, direct⟩

/-- A run under the detected failures follows the rotation flowcell by flowcell. -/
theorem WeightedSeveralFailures.moves (scheme : WeightedSeveralFailures cfg)
    (capacity : 0 < cfg.healthyLinkCapacity)
    (detected : ∀ k, cfg.failureDetected (envs k).now = true) :
    MovesByFlowcell cfg envs (fun j a => Phased cfg (phase cfg j) a) := by
  have branch (k : Nat) (a : SprayAgent) : chooseUplink cfg (envs k) a =
      if startsFlowcell cfg a then weightedMultiple cfg a else .ok a := by
    have several : cfg.numFailures > 1 := scheme.several
    simp only [chooseUplink, detectedByCase, weightedPartial, scheme.aware, scheme.realistic,
      scheme.robin, detected k, scheme.sprays, scheme.failureCase, several, if_true,
      Bool.false_and, Bool.false_eq_true, if_false, reduceCtorEq]
    rfl
  refine ⟨scheme.firstPacket capacity (envs 0), fun j a place phased => ?_,
    fun k a count mid _ => ?_, fun _ _ _ _ phased => ?_⟩
  · rw [branch, if_pos (by simp [startsFlowcell, place])]
    exact weightedMultiple_phased scheme place phased
  · rw [branch, if_neg (by simp [startsFlowcell, count, mid])]
  · exact ⟨phased.linkID, phased.flowCellMod, phased.toggleWeakSpines, phased.rfactor, phased.sets⟩

/-- The packets of a run are stamped as the rotation serves. -/
theorem WeightedSeveralFailures.stamped (scheme : WeightedSeveralFailures cfg)
    (capacity : 0 < cfg.healthyLinkCapacity)
    (detected : ∀ k, cfg.failureDetected (envs k).now = true) (k : Nat) :
    stampAt cfg envs k = .ok ⟨(phase cfg (k / cfg.flowcellSizePkts + 1)).last,
      k / cfg.flowcellSizePkts, true⟩ := by
  obtain ⟨q, phased, sent⟩ := (scheme.moves capacity detected).stampAt k
  rw [sent, phased.linkID, detected k]

end Saps.Spray
