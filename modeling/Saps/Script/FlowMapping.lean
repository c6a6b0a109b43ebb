import Mathlib.Algebra.Order.Floor.Ring
import Mathlib.Data.List.Dedup
import Mathlib.Data.Rat.Floor
import Saps.Script.FailureSchedule

/-!
# Mapping flows onto the affected paths

While a failure is detected, `size_aware.tcl` draws for each new flow whether it goes over the
paths that the failure affects, so that these get no more than their share. `PoorFlow` marks a
flow for a path that is affected at all, `DAFlow` one for a spine whose failure is at another leaf.
-/
namespace Saps.Script

/-- `round` of Tcl, which takes halves away from zero. -/
def tclRound (x : ℚ) : Int :=
  if 0 ≤ x then ⌊x + 1 / 2⌋ else ⌈x - 1 / 2⌉

/-- What the traffic of a leaf-spine topology depends on; sizes are in kilobytes. -/
structure TrafficSettings extends FailureSettings where
  numToRs : Nat
  numAggs : Nat
  numHostsPerLeaf : Nat
  numFailures : Int
  selectiveSpraying : Int
  healthyPathOnly : Int
  daSprayOnly : Int
  daHashSome : Int
  dynamicMapping : Int
  spsPoorPathFlowMultiplier : ℚ
  spsThresh : ℚ
  spsThreshGL2GL : ℚ
  fsThreshold : ℚ
  simTime : ℚ

/-- The values that the random variables of the mapping give for a flow, should they be asked. -/
structure HashDraws where
  chanceHashFFL : ℚ
  chanceHash2FL : ℚ
  chanceSprayWeakLinksFFL : ℚ
  chanceSprayWeakLinks2FL : ℚ
  chanceHashGLGL : ℚ
  chanceSprayAffectedSpinesGLGL : ℚ
  chanceHashAffectedSpine : ℚ

/-- What the mapping makes of a flow. -/
structure Mapping where
  poorFlow : Bool
  daFlow : Bool
deriving DecidableEq, Repr

def Mapping.default : Mapping := ⟨false, false⟩

namespace TrafficSettings

variable (s : TrafficSettings)

/-- `failedLinkLeafs` and `failedLinkSpines`, which are set for two failures only. -/
def failedLinks : List Uplink :=
  if s.multipleFailure = 1 ∧ s.numFailures = 2 then [s.failed, s.secondFailed] else []

/-! ### Capacities, in gigabits -/

/-- `none` stands for a variable that is not set. -/
def poorLinkCapacity : Except Fault (Option ℚ) :=
  if (s.failureCase = 1 ∨ s.failureCase = 2) ∧ s.selectiveSpraying = 1 then do
    let capacity ← divide (s.spsPoorPathFlowMultiplier * (s.bwTorAgg / 1000)) s.failureRatio
    pure (some capacity)
  else pure none

def totalCapacity : ℚ :=
  (s.numAggs - 1) * (s.bwTorAgg / 1000) + s.bwTorAgg / 1000 / s.failureRatio

def totalCapacityTwoFailures : ℚ :=
  (s.numAggs - 2) * (s.bwTorAgg / 1000) + 2 * (s.bwTorAgg / 1000 / s.failureRatio)

end TrafficSettings

/-- The ranges that the script sets for the random variables of the mapping. -/
structure HashDraws.InRange (s : TrafficSettings) (d : HashDraws) : Prop where
  chanceHashFFL : d.chanceHashFFL ∈ Set.Icc (-1 / 2) (s.totalCapacity - 1 + 1 / 2)
  chanceHash2FL : d.chanceHash2FL ∈ Set.Icc (-1 / 2) ((s.numToRs - 1) * s.totalCapacity - 1 + 1 / 2)
  chanceSprayWeakLinksFFL :
    d.chanceSprayWeakLinksFFL ∈ Set.Icc (-1 / 2) (s.totalCapacityTwoFailures - 1 + 1 / 2)
  chanceSprayWeakLinks2FL : d.chanceSprayWeakLinks2FL ∈
    Set.Icc (-1 / 2) ((s.numToRs - 1) * s.totalCapacityTwoFailures - 1 + 1 / 2)
  chanceHashGLGL : d.chanceHashGLGL ∈ Set.Icc (-1 / 2) (s.numAggs - 1 + 1 / 2 : ℚ)
  chanceSprayAffectedSpinesGLGL :
    d.chanceSprayAffectedSpinesGLGL ∈ Set.Icc (-1 / 2) (s.numAggs - 3 + 1 / 2 : ℚ)
  chanceHashAffectedSpine :
    d.chanceHashAffectedSpine ∈ Set.Icc (-1 / 2) (s.numAggs - 2 + 1 / 2 : ℚ)

namespace TrafficSettings

variable (s : TrafficSettings)

/-! ### The flow and the failures -/

def fromFailedLeaf (src : Int) : Bool :=
  decide (s.failureCase ≠ 0) &&
    (decide (src = s.failed.leaf) ||
      decide (s.multipleFailure = 1) && decide (src = s.secondFailed.leaf))

/-- With one failure, a flow inside the leaf is one from it. -/
def toFailedLeaf (src dst : Int) : Bool :=
  decide (s.failureCase ≠ 0) &&
    if s.multipleFailure = 1 then
      decide (dst = s.failed.leaf) || decide (dst = s.secondFailed.leaf)
    else decide (src ≠ s.failed.leaf) && decide (dst = s.failed.leaf)

/-- The failures at one of two leaves. -/
def atLeaves (src dst : Int) : List Uplink :=
  s.failedLinks.filter fun f => decide (f.leaf = src) || decide (f.leaf = dst)

/-- The array is indexed by both leaves in one number, for all pairs of leaves. -/
def leafPairNumFailures (index : Int) : Option Nat :=
  if 0 ≤ index ∧ index < s.numToRs * s.numToRs ∧ s.multipleFailure = 1 then
    let src := index / s.numToRs
    let dst := index % s.numToRs
    some (if src = dst then 0 else (s.atLeaves src dst).length)
  else none

/-- The script's view of the failure when it makes a flow. -/
def failureDetected (now : ℚ) : Bool :=
  decide (s.realisticFailure = 1) &&
    decide (now > s.failureStartTime + s.failureDetectionDelay) &&
    (decide (s.failureDuration = 0) ||
      decide (s.failureDuration > 0) &&
        decide (now < s.failureStartTime + s.failureDuration + s.failureDetectionDelay))

/-! ### The draws -/

/-- Flows that are mapped at all. -/
def candidate (fromFailed toFailed : Bool) (size : ℚ) : Bool :=
  decide (s.dynamicMapping = 1) ||
    (toFailed || fromFailed) && decide (size < s.spsThresh) ||
    !toFailed && !fromFailed && decide (size < s.spsThreshGL2GL) ||
    decide (s.multipleFailure = 1) && (toFailed || fromFailed) && decide (size < s.spsThreshGL2GL)

/-- Delay asymmetry makes no difference: its spines get their part of what is sprayed. -/
def sprayedOnly : Bool :=
  decide (s.daSprayOnly = 1) && decide (s.daHashSome = 0)

/-- Whether both failures are at one spine. -/
def sharedSpine : Option Bool :=
  match s.failedLinks with
  | [first, second] => some (decide (first.spine = second.spine))
  | _ => none

/-- Both ends of the flow are at a failed leaf. -/
def mapBothEnds (poor : Option ℚ) (d : HashDraws) (size : ℚ) : Option Mapping :=
  if s.multipleFailure = 1 ∧ size < s.spsThresh then do
    let shared ← s.sharedSpine
    let poor ← poor
    if shared then pure ⟨decide (tclRound d.chanceHashFFL < poor), false⟩
    else pure ⟨decide (tclRound d.chanceSprayWeakLinksFFL < 2 * poor), false⟩
  else pure .default

/-- One end is; flows to it and flows from it are drawn for with random variables of their own. -/
def mapOneEnd (poor : Option ℚ) (hash spray affected : ℚ) (src dst : Int) (size : ℚ) :
    Option Mapping :=
  if s.failureCase = 1 then do
    let poor ← poor
    if s.multipleFailure = 1 then
      let direct ← s.leafPairNumFailures (src * s.numToRs + dst)
      if direct = 2 ∧ size < s.spsThresh then
        pure ⟨decide (tclRound spray < 2 * poor), false⟩
      else if tclRound hash < poor ∧ size < s.spsThresh then
        pure ⟨true, false⟩
      else if s.sprayedOnly then
        pure .default
      else
        let shared ← s.sharedSpine
        pure ⟨false, !shared && decide (tclRound affected < 1)⟩
    else pure ⟨decide (tclRound hash < poor), false⟩
  else pure .default

/-- One spine has all the failures. -/
def oneSpine : Option Bool :=
  if s.multipleFailure = 1 then s.sharedSpine else some true

/-- Neither end is, and the failures only affect how much traffic a spine gets. -/
def mapNoEnd (poor : Option ℚ) (d : HashDraws) : Option Mapping := do
  let one ← s.oneSpine
  -- the random variables are set up together with `poorLinkCapacity`
  let _ ← poor
  let hashed := if one then decide (tclRound d.chanceHashGLGL < 1)
    else decide (tclRound d.chanceSprayAffectedSpinesGLGL < 2)
  pure (if hashed && !s.sprayedOnly then ⟨true, true⟩ else .default)

/-- A flow that is made now is drawn for. -/
def Drawn (now : ℚ) (intraRack : Bool) (src dst : Int) (size : ℚ) : Prop :=
  s.failureCase ≠ 0 ∧ s.selectiveSpraying = 1 ∧ s.healthyPathOnly = 0 ∧
    s.failureDetected now = true ∧ intraRack = false ∧
    s.candidate (s.fromFailedLeaf src) (s.toFailedLeaf src dst) size = true

instance (now : ℚ) (intraRack : Bool) (src dst : Int) (size : ℚ) :
    Decidable (s.Drawn now intraRack src dst size) :=
  inferInstanceAs (Decidable (_ ∧ _))

/-- The mapping of a flow between hosts of two leaves. -/
def mapFlow (poor : Option ℚ) (d : HashDraws) (now : ℚ) (intraRack : Bool) (src dst : Int)
    (size : ℚ) : Option Mapping :=
  if s.Drawn now intraRack src dst size then
    if s.toFailedLeaf src dst && s.fromFailedLeaf src then s.mapBothEnds poor d size
    else if s.toFailedLeaf src dst then
      s.mapOneEnd poor d.chanceHash2FL d.chanceSprayWeakLinks2FL d.chanceHashAffectedSpine
        src dst size
    else if s.fromFailedLeaf src then
      s.mapOneEnd poor d.chanceHashFFL d.chanceSprayWeakLinksFFL d.chanceHashAffectedSpine
        src dst size
    else s.mapNoEnd poor d
  else pure .default

/-! ### What the mapping is for -/

/-- The uplinks that fail. -/
def failures : List Uplink :=
  if s.multipleFailure = 1 then [s.failed, s.secondFailed] else [s.failed]

/-- The spines over which the paths between two leaves are poor. -/
def weakSpines (src dst : Int) : List Int :=
  ((s.failures.filter fun f => decide (f.leaf = src) || decide (f.leaf = dst)).map
    (·.spine)).dedup

/-- The spines that a failure affects anywhere. -/
def affectedSpines : List Int := (s.failures.map (·.spine)).dedup

/-- What a leaf has of capacity if so many of its links are poor. -/
def capacity (weak : Nat) : ℚ :=
  (s.numAggs - weak) * (s.bwTorAgg / 1000) + weak * (s.bwTorAgg / 1000 / s.failureRatio)

/-- A draw between -0.5 and `whole - 0.5`, in which `part` is for the affected paths. -/
structure Share where
  draw : ℚ
  part : ℚ
  whole : ℚ

def Share.Hit (share : Share) : Prop := share.draw < -1 / 2 + ⌈share.part⌉

/-- The share of the affected paths. Of the traffic to a leaf, each of the others has a part. -/
def share (poor : ℚ) (d : HashDraws) (src dst : Int) : Share :=
  let weak := (s.weakSpines src dst).length
  let affected := s.affectedSpines.length
  if s.fromFailedLeaf src then
    ⟨if weak = 2 then d.chanceSprayWeakLinksFFL else d.chanceHashFFL, weak * poor,
      s.capacity weak⟩
  else if s.toFailedLeaf src dst then
    ⟨if weak = 2 then d.chanceSprayWeakLinks2FL else d.chanceHash2FL, weak * poor,
      (s.numToRs - 1) * s.capacity weak⟩
  else
    ⟨if affected = 2 then d.chanceSprayAffectedSpinesGLGL else d.chanceHashGLGL, affected,
      if affected = 2 then s.numAggs - 2 else s.numAggs⟩

/-- The mapping may put the flow onto an affected path. With two failures, large flows stay away
from poor paths; and only between two failed leaves a full failure makes no difference. -/
def Open (src dst : Int) (size : ℚ) : Prop :=
  if s.toFailedLeaf src dst = true ∧ s.fromFailedLeaf src = true then
    s.multipleFailure = 1 ∧ size < s.spsThresh
  else if s.toFailedLeaf src dst = true ∨ s.fromFailedLeaf src = true then
    s.failureCase = 1 ∧ (s.multipleFailure = 1 → size < s.spsThresh)
  else s.sprayedOnly = false

/-- Failures of a run that the mapping provides for. -/
structure Planned : Prop where
  failureCase : s.failureCase = 1 ∨ s.failureCase = 2
  two : s.multipleFailure = 1 → s.numFailures = 2 ∧ s.failed ≠ s.secondFailed

/-- Two different leaves. -/
structure Apart (src dst : Int) : Prop where
  src_nonneg : 0 ≤ src
  src_lt : src < s.numToRs
  dst_nonneg : 0 ≤ dst
  dst_lt : dst < s.numToRs
  ne : src ≠ dst

end TrafficSettings

theorem tclRound_lt_iff {x c : ℚ} (pos : 0 < c) : (tclRound x : ℚ) < c ↔ x < -1 / 2 + ⌈c⌉ := by
  have ceil : (1 : ℚ) ≤ ⌈c⌉ := by exact_mod_cast Int.ceil_pos.mpr pos
  rw [← Int.lt_ceil, tclRound]
  split_ifs with nonneg
  · rw [Int.floor_lt]
    constructor <;> intro below <;> linarith
  · have low : ⌈x - 1 / 2⌉ ≤ 0 := Int.ceil_le.mpr (by push_cast; linarith)
    have high : 0 < ⌈c⌉ := Int.ceil_pos.mpr pos
    exact ⟨fun _ => by linarith, fun _ => low.trans_lt high⟩

namespace TrafficSettings

variable {s : TrafficSettings} {src dst : Int} {size now poor : ℚ} {d : HashDraws} {m : Mapping}

theorem Planned.sharedSpine (planned : s.Planned) (several : s.multipleFailure = 1) :
    s.sharedSpine = some (decide (s.failed.spine = s.secondFailed.spine)) := by
  simp [TrafficSettings.sharedSpine, failedLinks, several, (planned.two several).1]

theorem Planned.leafPairNumFailures (planned : s.Planned) (several : s.multipleFailure = 1)
    (apart : s.Apart src dst) :
    s.leafPairNumFailures (src * s.numToRs + dst) =
      some (s.failures.filter fun f => decide (f.leaf = src) || decide (f.leaf = dst)).length := by
  obtain ⟨nonneg, lt, nonneg', lt', ne⟩ := apart
  have row : (src * s.numToRs + dst) / s.numToRs = src := by
    rw [add_comm, Int.add_mul_ediv_right _ _ (by omega), Int.ediv_eq_zero_of_lt nonneg' lt']
    omega
  have column : (src * s.numToRs + dst) % s.numToRs = dst := by
    rw [add_comm, Int.add_mul_emod_self_right, Int.emod_eq_of_lt nonneg' lt']
  have inside : 0 ≤ src * s.numToRs + dst ∧ src * s.numToRs + dst < s.numToRs * s.numToRs := by
    constructor <;> nlinarith
  rw [TrafficSettings.leafPairNumFailures, if_pos ⟨inside.1, inside.2, several⟩]
  simp only [row, column, if_neg ne, atLeaves, failedLinks, several, (planned.two several).1,
    and_self, if_true, failures]

theorem dedup_pair_length (a b : Int) : [a, b].dedup.length = if a = b then 1 else 2 := by
  by_cases same : a = b
  · rw [same, List.dedup_cons_of_mem (List.mem_singleton_self b), (List.nodup_singleton b).dedup,
      if_pos rfl, List.length_singleton]
  · have distinct : [a, b].Nodup := by simp [same]
    rw [distinct.dedup, if_neg same, List.length_cons, List.length_singleton]

theorem dedup_singleton_length (a : Int) : [a].dedup.length = 1 := by
  rw [(List.nodup_singleton a).dedup, List.length_singleton]

theorem Planned.fromFailedLeaf_iff (planned : s.Planned) : s.fromFailedLeaf src = true ↔
    src = s.failed.leaf ∨ s.multipleFailure = 1 ∧ src = s.secondFailed.leaf := by
  have case : s.failureCase ≠ 0 := by rcases planned.failureCase with h | h <;> omega
  simp [fromFailedLeaf, case]

theorem Planned.toFailedLeaf_iff (planned : s.Planned) : s.toFailedLeaf src dst = true ↔
    if s.multipleFailure = 1 then dst = s.failed.leaf ∨ dst = s.secondFailed.leaf
    else src ≠ s.failed.leaf ∧ dst = s.failed.leaf := by
  have case : s.failureCase ≠ 0 := by rcases planned.failureCase with h | h <;> omega
  by_cases several : s.multipleFailure = 1 <;> simp [toFailedLeaf, case, several]

theorem weakSpines_length (planned : s.Planned) (ne : src ≠ dst)
    (direct : s.toFailedLeaf src dst = true ∨ s.fromFailedLeaf src = true) :
    (s.weakSpines src dst).length =
      if s.multipleFailure = 1 then
        if s.toFailedLeaf src dst = true ∧ s.fromFailedLeaf src = true then
          if s.failed.spine = s.secondFailed.spine then 1 else 2
        else (s.failures.filter fun f => decide (f.leaf = src) || decide (f.leaf = dst)).length
      else 1 := by
  simp only [planned.toFailedLeaf_iff, planned.fromFailedLeaf_iff] at direct ⊢
  by_cases several : s.multipleFailure = 1
  · have distinct : s.failed.leaf = s.secondFailed.leaf →
        s.failed.spine ≠ s.secondFailed.spine := fun leaf spine =>
      (planned.two several).2 (by cases h : s.failed; cases h' : s.secondFailed; simp_all)
    simp only [several, if_true, true_and] at direct ⊢
    rw [weakSpines, failures, if_pos several]
    by_cases first : s.failed.leaf = src ∨ s.failed.leaf = dst <;>
      by_cases second : s.secondFailed.leaf = src ∨ s.secondFailed.leaf = dst
    · simp only [List.filter_cons, first, second, ← Bool.decide_or, decide_true, if_true,
        List.filter_nil, List.map_cons, List.map_nil, dedup_pair_length, List.length_cons,
        List.length_nil]
      split_ifs <;> grind
    · simp only [List.filter_cons, first, second, ← Bool.decide_or, decide_true, decide_false,
        Bool.false_eq_true, if_false, if_true, List.filter_nil, List.map_cons, List.map_nil,
        dedup_singleton_length, List.length_cons, List.length_nil]
      split_ifs <;> grind
    · simp only [List.filter_cons, first, second, ← Bool.decide_or, decide_true, decide_false,
        Bool.false_eq_true, if_false, if_true, List.filter_nil, List.map_cons, List.map_nil,
        dedup_singleton_length, List.length_cons, List.length_nil]
      split_ifs <;> grind
    · grind
  · simp only [several, if_false, false_and, or_false] at direct ⊢
    rw [weakSpines, failures, if_neg several]
    have there : s.failed.leaf = src ∨ s.failed.leaf = dst := by grind
    simp only [List.filter_cons, there, ← Bool.decide_or, decide_true, if_true, List.filter_nil,
      List.map_cons, List.map_nil, dedup_singleton_length]

/-! ### The draws are the shares -/

theorem mapBothEnds_share (planned : s.Planned) (apart : s.Apart src dst) (pos : 0 < poor)
    (toFailed : s.toFailedLeaf src dst = true) (fromFailed : s.fromFailedLeaf src = true) :
    ∃ m, s.mapBothEnds (some poor) d size = some m ∧
      (m.poorFlow = true ↔ s.Open src dst size ∧ (s.share poor d src dst).Hit) := by
  have weak := weakSpines_length planned apart.ne (.inl toFailed)
  rw [Open, if_pos ⟨toFailed, fromFailed⟩, mapBothEnds]
  by_cases few : s.multipleFailure = 1 ∧ size < s.spsThresh
  · simp only [few.1, toFailed, fromFailed, and_self, if_true] at weak
    rw [if_pos few, planned.sharedSpine few.1, share, if_pos fromFailed]
    by_cases shared : s.failed.spine = s.secondFailed.spine
    · rw [if_pos shared] at weak
      refine ⟨⟨decide (tclRound d.chanceHashFFL < poor), false⟩, by simp [shared], ?_⟩
      simp only [weak, Share.Hit, few, decide_eq_true_eq, Nat.cast_one, one_mul]
      simpa using tclRound_lt_iff pos
    · rw [if_neg shared] at weak
      refine ⟨⟨decide (tclRound d.chanceSprayWeakLinksFFL < 2 * poor), false⟩, by simp [shared], ?_⟩
      have more : 0 < 2 * poor := by linarith
      simp only [weak, Share.Hit, few, decide_eq_true_eq, Nat.cast_ofNat]
      simpa using tclRound_lt_iff more
  · rw [if_neg few]
    exact ⟨.default, rfl, by simp [Mapping.default, few]⟩

theorem weakSpines_bounds (planned : s.Planned) (ne : src ≠ dst)
    (direct : s.toFailedLeaf src dst = true ∨ s.fromFailedLeaf src = true) :
    0 < (s.weakSpines src dst).length ∧ (s.weakSpines src dst).length ≤ 2 := by
  rw [weakSpines_length planned ne direct]
  split_ifs with several both shared
  · omega
  · omega
  · have listed : ∃ f ∈ s.failures, f.leaf = src ∨ f.leaf = dst := by
      rw [planned.toFailedLeaf_iff, planned.fromFailedLeaf_iff, if_pos several] at direct
      simp only [failures, several, if_true]
      grind
    obtain ⟨f, member, there⟩ := listed
    have kept : f ∈ s.failures.filter fun f => decide (f.leaf = src) || decide (f.leaf = dst) :=
      List.mem_filter.mpr ⟨member, by simpa using there⟩
    have two : s.failures.length = 2 := by simp [failures, several]
    exact ⟨List.length_pos_of_mem kept, two ▸ List.length_filter_le _ _⟩
  · omega

theorem mapOneEnd_share (planned : s.Planned) (apart : s.Apart src dst) (pos : 0 < poor)
    (direct : s.toFailedLeaf src dst = true ∨ s.fromFailedLeaf src = true)
    (one : ¬ (s.toFailedLeaf src dst = true ∧ s.fromFailedLeaf src = true))
    (hash spray affected whole : ℚ) :
    ∃ m, s.mapOneEnd (some poor) hash spray affected src dst size = some m ∧
      (m.poorFlow = true ↔ s.Open src dst size ∧
        Share.Hit ⟨if (s.weakSpines src dst).length = 2 then spray else hash,
          (s.weakSpines src dst).length * poor, whole⟩) := by
  have weak := weakSpines_length planned apart.ne direct
  have more : 0 < 2 * poor := by linarith
  rw [Open, if_neg one, if_pos direct, mapOneEnd]
  by_cases partly : s.failureCase = 1
  · rw [if_pos partly]
    by_cases several : s.multipleFailure = 1
    · have pair := planned.leafPairNumFailures several apart
      rw [if_pos several, if_neg one] at weak
      rw [← weak] at pair
      simp only [several, if_true, pair, Option.bind_eq_bind, Option.bind_some, partly, true_and,
        forall_const, planned.sharedSpine several]
      by_cases few : size < s.spsThresh
      · simp only [few, and_true, true_and]
        by_cases both : (s.weakSpines src dst).length = 2
        · refine ⟨⟨decide (tclRound spray < 2 * poor), false⟩, by simp [both], ?_⟩
          simp only [both, Share.Hit, decide_eq_true_eq, Nat.cast_ofNat]
          simpa using tclRound_lt_iff more
        · have single : (s.weakSpines src dst).length = 1 := by
            have bounds := weakSpines_bounds planned apart.ne direct
            omega
          have hit := tclRound_lt_iff (x := hash) pos
          simp only [single, Share.Hit, Nat.cast_one, one_mul, OfNat.one_ne_ofNat, if_false, ← hit]
          split_ifs with poorly sprayed
          · exact ⟨⟨true, false⟩, rfl, by simp [poorly]⟩
          · exact ⟨.default, rfl, by simp [Mapping.default, poorly]⟩
          · exact ⟨⟨false, _⟩, rfl, by simp [poorly]⟩
      · simp only [few, and_false, if_false, false_and, iff_false, Bool.not_eq_true]
        split_ifs with sprayed
        · exact ⟨.default, rfl, rfl⟩
        · exact ⟨⟨false, _⟩, rfl, rfl⟩
    · rw [if_neg several] at weak
      refine ⟨⟨decide (tclRound hash < poor), false⟩, by simp [several], ?_⟩
      simp only [weak, Share.Hit, partly, several, decide_eq_true_eq, Nat.cast_one, one_mul]
      simpa using tclRound_lt_iff pos
  · rw [if_neg partly]
    exact ⟨.default, rfl, by simp [Mapping.default, partly]⟩

theorem affectedSpines_length (s : TrafficSettings) :
    s.affectedSpines.length = 1 ∨ s.affectedSpines.length = 2 := by
  rw [affectedSpines, failures]
  split_ifs
  · rw [List.map_cons, List.map_cons, List.map_nil, dedup_pair_length]
    split_ifs
    · exact .inl rfl
    · exact .inr rfl
  · rw [List.map_cons, List.map_nil, dedup_singleton_length]
    exact .inl rfl

theorem Planned.oneSpine (planned : s.Planned) :
    s.oneSpine = some (decide (s.affectedSpines.length = 1)) := by
  rw [TrafficSettings.oneSpine, affectedSpines, failures]
  split_ifs with several
  · rw [planned.sharedSpine several, List.map_cons, List.map_cons, List.map_nil, dedup_pair_length]
    by_cases shared : s.failed.spine = s.secondFailed.spine <;> simp [shared]
  · rw [List.map_cons, List.map_nil, dedup_singleton_length, decide_eq_true rfl]

theorem mapNoEnd_share (planned : s.Planned)
    (toFailed : s.toFailedLeaf src dst = false) (fromFailed : s.fromFailedLeaf src = false) :
    ∃ m, s.mapNoEnd (some poor) d = some m ∧
      (m.poorFlow = true ↔ s.Open src dst size ∧ (s.share poor d src dst).Hit) := by
  have below : ∀ (x : ℚ) (n : Nat), 0 < n → (x < -1 / 2 + ⌈(n : ℚ)⌉ ↔ tclRound x < n) := by
    intro x n pos
    rw [← tclRound_lt_iff (by exact_mod_cast pos : (0 : ℚ) < n)]
    exact_mod_cast Iff.rfl
  simp only [Open, share, toFailed, fromFailed, Bool.false_eq_true, or_self, and_self, if_false,
    mapNoEnd, planned.oneSpine, Option.bind_eq_bind, Option.bind_some]
  refine ⟨_, rfl, ?_⟩
  rcases affectedSpines_length s with one | two
  · have hit := below d.chanceHashGLGL 1 (by omega)
    simp only [one, Share.Hit, OfNat.one_ne_ofNat, if_false, hit]
    by_cases sprayed : s.sprayedOnly = true <;> by_cases hashed : tclRound d.chanceHashGLGL < 1 <;>
      simp [sprayed, hashed, Mapping.default]
  · have hit := below d.chanceSprayAffectedSpinesGLGL 2 (by omega)
    simp only [two, Share.Hit, if_true, hit]
    by_cases sprayed : s.sprayedOnly = true <;>
      by_cases hashed : tclRound d.chanceSprayAffectedSpinesGLGL < 2 <;>
      simp [sprayed, hashed, Mapping.default]

/-- The mapping of every flow is a draw for the share of the affected paths. -/
theorem mapFlow_share (planned : s.Planned) (apart : s.Apart src dst) (pos : 0 < poor) :
    ∃ m, s.mapFlow (some poor) d now false src dst size = some m ∧
      (m.poorFlow = true ↔ s.Drawn now false src dst size ∧ s.Open src dst size ∧
        (s.share poor d src dst).Hit) := by
  by_cases drawn : s.Drawn now false src dst size
  · rw [mapFlow, if_pos drawn]
    simp only [drawn, true_and]
    cases toFailed : s.toFailedLeaf src dst <;> cases fromFailed : s.fromFailedLeaf src
    · exact mapNoEnd_share planned toFailed fromFailed
    · have mapped := @mapOneEnd_share s src dst size poor planned apart pos (.inr fromFailed)
        (by simp [toFailed]) d.chanceHashFFL d.chanceSprayWeakLinksFFL d.chanceHashAffectedSpine 0
      simpa [share, Share.Hit, fromFailed] using mapped
    · have mapped := @mapOneEnd_share s src dst size poor planned apart pos (.inl toFailed)
        (by simp [fromFailed]) d.chanceHash2FL d.chanceSprayWeakLinks2FL d.chanceHashAffectedSpine 0
      simpa [share, Share.Hit, fromFailed, toFailed] using mapped
    · exact mapBothEnds_share planned apart pos toFailed fromFailed
  · rw [mapFlow, if_neg drawn]
    exact ⟨.default, rfl, by simp [Mapping.default, drawn]⟩

/-- The draw is one from the whole of which the share is a part. -/
theorem share_inRange (planned : s.Planned) (ne : src ≠ dst) (range : d.InRange s) :
    (s.share poor d src dst).draw ∈
      Set.Icc (-1 / 2) ((s.share poor d src dst).whole - 1 / 2) := by
  have one : s.capacity 1 = s.totalCapacity := by
    rw [capacity, totalCapacity, Nat.cast_one, one_mul]
  have two : s.capacity 2 = s.totalCapacityTwoFailures := by
    rw [capacity, totalCapacityTwoFailures, Nat.cast_two]
  have within : ∀ {x whole : ℚ}, x ∈ Set.Icc (-1 / 2) (whole - 1 + 1 / 2) →
      x ∈ Set.Icc (-1 / 2) (whole - 1 / 2) := fun {x whole} inside =>
    ⟨inside.1, inside.2.trans (by linarith)⟩
  have few : s.toFailedLeaf src dst = true ∨ s.fromFailedLeaf src = true →
      (s.weakSpines src dst).length = 1 ∨ (s.weakSpines src dst).length = 2 := fun direct => by
    have bounds := weakSpines_bounds planned ne direct
    omega
  rw [share]
  split_ifs with fromFailed both toFailed both both
  · rw [both, two]
    exact within range.chanceSprayWeakLinksFFL
  · rw [(few (.inr fromFailed)).resolve_right both, one]
    exact within range.chanceHashFFL
  · rw [both, two]
    exact within range.chanceSprayWeakLinks2FL
  · rw [(few (.inl toFailed)).resolve_right both, one]
    exact within range.chanceHash2FL
  · exact within (by convert range.chanceSprayAffectedSpinesGLGL using 2; ring)
  · exact within range.chanceHashGLGL

/-! ### Spines whose failure is at another leaf -/

/-- A failed uplink over a spine that leaves the paths between these two leaves whole. -/
theorem exists_spared (fewer : (s.weakSpines src dst).length < s.affectedSpines.length) :
    ∃ f ∈ s.failures, f.spine ∉ s.weakSpines src dst := by
  by_contra none
  push Not at none
  have covered : s.affectedSpines ⊆ s.weakSpines src dst := by
    intro spine affected
    obtain ⟨f, listed, rfl⟩ := List.mem_map.mp (List.mem_dedup.mp affected)
    exact none f listed
  exact absurd (List.subperm_of_subset (List.nodup_dedup _) covered).length_le fewer.not_ge

theorem mapOneEnd_daFlow (planned : s.Planned) (apart : s.Apart src dst)
    (direct : s.toFailedLeaf src dst = true ∨ s.fromFailedLeaf src = true)
    (one : ¬ (s.toFailedLeaf src dst = true ∧ s.fromFailedLeaf src = true))
    {poor : Option ℚ} {hash spray affected : ℚ}
    (mapped : s.mapOneEnd poor hash spray affected src dst size = some m)
    (da : m.daFlow = true) :
    (s.weakSpines src dst).length < s.affectedSpines.length ∨
      (s.weakSpines src dst).length = 2 ∧ s.spsThresh ≤ size := by
  have bounds := weakSpines_bounds planned apart.ne direct
  have weak := weakSpines_length planned apart.ne direct
  have default : Mapping.default = m → False := fun h => by
    rw [← h] at da
    cases da
  rw [mapOneEnd] at mapped
  by_cases partly : s.failureCase = 1
  · rw [if_pos partly] at mapped
    obtain ⟨poor, -, mapped⟩ := Option.bind_eq_some_iff.mp mapped
    by_cases several : s.multipleFailure = 1
    · have pair := planned.leafPairNumFailures several apart
      rw [if_pos several, if_neg one] at weak
      rw [if_pos several, pair, ← weak, Option.bind_eq_bind, Option.bind_some] at mapped
      split_ifs at mapped with both poorly sprayed
      · cases mapped
        cases da
      · cases mapped
        cases da
      · exact (default (Option.some_inj.mp mapped)).elim
      · rw [planned.sharedSpine several, Option.bind_eq_bind, Option.bind_some] at mapped
        cases mapped
        have different : s.failed.spine ≠ s.secondFailed.spine := by
          intro same
          simp [same] at da
        have two : s.affectedSpines.length = 2 := by
          rw [affectedSpines, failures, if_pos several, List.map_cons, List.map_cons, List.map_nil,
            dedup_pair_length, if_neg different]
        by_cases single : (s.weakSpines src dst).length = 1
        · exact .inl (by omega)
        · have all : (s.weakSpines src dst).length = 2 := by omega
          exact .inr ⟨all, not_lt.mp fun few => both ⟨all, few⟩⟩
    · rw [if_neg several] at mapped
      cases mapped
      cases da
  · rw [if_neg partly] at mapped
    exact (default (Option.some_inj.mp mapped)).elim

theorem mapBothEnds_daFlow {poor : Option ℚ} (mapped : s.mapBothEnds poor d size = some m) :
    m.daFlow = false := by
  rw [mapBothEnds] at mapped
  split at mapped
  · obtain ⟨shared, -, mapped⟩ := Option.bind_eq_some_iff.mp mapped
    obtain ⟨poor, -, mapped⟩ := Option.bind_eq_some_iff.mp mapped
    split at mapped <;> cases mapped <;> rfl
  · cases mapped
    rfl

theorem weakSpines_eq_nil (planned : s.Planned) (toFailed : s.toFailedLeaf src dst = false)
    (fromFailed : s.fromFailedLeaf src = false) : s.weakSpines src dst = [] := by
  have to_iff := @Planned.toFailedLeaf_iff s src dst planned
  have from_iff := @Planned.fromFailedLeaf_iff s src planned
  have none : (s.failures.filter fun f => decide (f.leaf = src) || decide (f.leaf = dst)) = [] := by
    refine List.filter_eq_nil_iff.mpr fun f listed => ?_
    rw [failures] at listed
    split_ifs at listed <;> grind
  rw [weakSpines, none]
  rfl

/-- A flow is marked for a spine with delay asymmetry only if there is one, but for a large flow of
a leaf at which both uplinks failed. -/
theorem mapFlow_daFlow (planned : s.Planned) (apart : s.Apart src dst) {poor : Option ℚ}
    (mapped : s.mapFlow poor d now false src dst size = some m) (da : m.daFlow = true) :
    (∃ f ∈ s.failures, f.spine ∉ s.weakSpines src dst) ∨
      (s.weakSpines src dst).length = 2 ∧ s.spsThresh ≤ size := by
  refine Or.imp_left exists_spared ?_
  rw [mapFlow] at mapped
  split_ifs at mapped with drawn both toFailed fromFailed
  · exact absurd da (by rw [mapBothEnds_daFlow mapped]; exact Bool.false_ne_true)
  · exact mapOneEnd_daFlow planned apart (.inl toFailed) (by simpa using both) mapped da
  · exact mapOneEnd_daFlow planned apart (.inr fromFailed) (by simp [toFailed]) mapped da
  · have none := weakSpines_eq_nil planned (Bool.eq_false_iff.mpr toFailed)
      (Bool.eq_false_iff.mpr fromFailed)
    rw [none]
    rcases affectedSpines_length s with one | two
    · exact .inl (by rw [one]; exact Nat.one_pos)
    · exact .inl (by rw [two]; exact Nat.two_pos)
  · cases mapped
    cases da

end TrafficSettings

end Saps.Script
