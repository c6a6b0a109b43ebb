import Saps.Script.FlowMapping

/-!
# Traffic between all hosts

The loop of `size_aware.tcl` that makes the flows of a leaf-spine topology, from the values that
its random variables give. Each round draws the kind of the flow, its hosts, its size, its mapping
and the time until the next one.
-/
namespace Saps.Script

/-- What a random variable over the numbers below `n` gives before it is rounded. The script gets
it with seven digits, so that it may be one of the ends. -/
structure IndexDraw (n : Nat) where
  value : ℚ
  low : -1 / 2 ≤ value
  high : value ≤ n - 1 / 2

namespace IndexDraw

variable {n : Nat}

def index (draw : IndexDraw n) : Int := tclRound draw.value

/-- Not one of the ends. -/
def Inside (draw : IndexDraw n) : Prop := -1 / 2 < draw.value ∧ draw.value < n - 1 / 2

instance (draw : IndexDraw n) : Decidable draw.Inside := inferInstanceAs (Decidable (_ ∧ _))

/-- A single number. The list is all that is drawn. -/
def only : List (IndexDraw n) → Option Int
  | [draw] => some draw.index
  | _ => none

/-- The loop that draws until the number is another one. -/
def redraw (held : Int) : List (IndexDraw n) → Option Int
  | [] => none
  | [draw] => if draw.index = held then none else some draw.index
  | draw :: draws => if draw.index = held then redraw held draws else none

end IndexDraw

def TrafficSettings.totalHosts (s : TrafficSettings) : Nat := s.numHostsPerLeaf * s.numToRs

/-- What is drawn in one round. -/
structure FlowDraws (s : TrafficSettings) where
  flowType : IndexDraw 2
  srcLeaf : IndexDraw s.numToRs
  dstLeafs : List (IndexDraw s.numToRs)
  srcHost : IndexDraw s.numHostsPerLeaf
  dstHosts : List (IndexDraw s.numHostsPerLeaf)
  srcIndex : IndexDraw s.totalHosts
  dstIndexs : List (IndexDraw s.totalHosts)
  nbytes : ℚ
  hash : HashDraws
  inter : ℚ
  inter_pos : 0 < inter

/-- The hosts of a flow, by number and by leaf. -/
structure Endpoints where
  srcInd : Int
  dstInd : Int
  srcLeafInd : Int
  dstLeafInd : Int
deriving DecidableEq, Repr

/-- What the round hands to `build-short-lived`. -/
structure Flow extends Endpoints where
  shortFlowId : Int
  node : Int
  start : ℚ
  transferSize : ℚ
  isElephant : Bool
  fromFailedLeaf : Bool
  toFailedLeaf : Bool
  mapping : Mapping
  isIntraRack : Int
deriving DecidableEq, Repr

/-- The variables of the loop, and the flows so far. -/
structure Traffic where
  globalTime : ℚ := 0
  sink : Int := 0
  shortFlowId : Int := 8000
  /-- `src_leaf_ind` and `dst_leaf_ind`, which are not set before the first round. -/
  leaves : Option (Int × Int) := none
  interRackThruAggCount : Nat := 0
  intraRackCount : Nat := 0
  interRackThruCoreCount : Nat := 0
  srcCount : Int → Nat := fun _ => 0
  dstCount : Int → Nat := fun _ => 0
  flows : List Flow := []

def Traffic.add (t : Traffic) (flowType : Int) (inter : ℚ) (f : Flow) : Traffic where
  globalTime := t.globalTime + inter
  sink := f.node + 1
  shortFlowId := f.shortFlowId
  leaves := some (f.srcLeafInd, f.dstLeafInd)
  interRackThruAggCount := t.interRackThruAggCount + if flowType = 0 then 1 else 0
  intraRackCount := t.intraRackCount + if flowType = 1 then 1 else 0
  interRackThruCoreCount :=
    t.interRackThruCoreCount + if flowType ≠ 0 ∧ flowType ≠ 1 then 1 else 0
  srcCount := Function.update t.srcCount f.srcInd (t.srcCount f.srcInd + 1)
  dstCount := Function.update t.dstCount f.dstInd (t.dstCount f.dstInd + 1)
  flows := t.flows ++ [f]

namespace Traffic

variable (t : Traffic) (flowType : Int) (inter : ℚ) (f : Flow)

@[simp] theorem add_flows : (t.add flowType inter f).flows = t.flows ++ [f] := rfl

@[simp] theorem add_sink : (t.add flowType inter f).sink = f.node + 1 := rfl

@[simp] theorem add_shortFlowId : (t.add flowType inter f).shortFlowId = f.shortFlowId := rfl

end Traffic

namespace TrafficSettings

variable (s : TrafficSettings)

/-- `host(ind)` is set. -/
def IsHost (ind : Int) : Prop := 0 ≤ ind ∧ ind < s.totalHosts

instance (ind : Int) : Decidable (s.IsHost ind) := inferInstanceAs (Decidable (_ ∧ _))

/-- `index` is no longer the random variable over all hosts: the loop that sets
`leafPairNumFailures` uses the name for the index of the pair. -/
def IndexOverwritten : Prop :=
  (s.failureCase = 1 ∨ s.failureCase = 2) ∧ s.selectiveSpraying = 1 ∧ s.multipleFailure = 1 ∧
    0 < s.numToRs

instance : Decidable s.IndexOverwritten := inferInstanceAs (Decidable (_ ∧ _))

/-- The hosts of a flow of the kind that was drawn. A number that is no kind gets any two hosts,
and the leaves of the flow before, if there still is a random variable to ask for them. -/
def endpoints (d : FlowDraws s) (leaves : Option (Int × Int)) : Option Endpoints :=
  let n : Int := s.numHostsPerLeaf
  if d.flowType.index = 0 then do
    let dstLeaf ← IndexDraw.redraw d.srcLeaf.index d.dstLeafs
    let dstHost ← IndexDraw.only d.dstHosts
    pure ⟨d.srcLeaf.index * n + d.srcHost.index, dstLeaf * n + dstHost, d.srcLeaf.index, dstLeaf⟩
  else if d.flowType.index = 1 then do
    let dstHost ← IndexDraw.redraw d.srcHost.index d.dstHosts
    pure ⟨d.srcLeaf.index * n + d.srcHost.index, d.srcLeaf.index * n + dstHost,
      d.srcLeaf.index, d.srcLeaf.index⟩
  else if s.IndexOverwritten then none
  else do
    let dst ← IndexDraw.redraw d.srcIndex.index d.dstIndexs
    let (srcLeaf, dstLeaf) ← leaves
    pure ⟨d.srcIndex.index, dst, srcLeaf, dstLeaf⟩

/-- The flow that a round makes. -/
def makeFlow (poor : Option ℚ) (t : Traffic) (d : FlowDraws s) : Option Flow := do
  let e ← s.endpoints d t.leaves
  let size : ℚ := ⌈d.nbytes⌉
  let mapping ← s.mapFlow poor d.hash t.globalTime (decide (d.flowType.index = 1))
    e.srcLeafInd e.dstLeafInd size
  if s.IsHost e.srcInd ∧ s.IsHost e.dstInd then
    pure { toEndpoints := e
           shortFlowId := t.shortFlowId + 1
           node := if t.sink = s.totalHosts then 0 else t.sink
           start := t.globalTime
           transferSize := size * 1000
           isElephant := decide (size > s.fsThreshold)
           fromFailedLeaf := s.fromFailedLeaf e.srcLeafInd
           toFailedLeaf := s.toFailedLeaf e.srcLeafInd e.dstLeafInd
           mapping
           isIntraRack := d.flowType.index % 2 }
  else none

/-- One round of the loop. It is `none` if the loop is over, if the script stops at a variable that
is not set or is not what it was, or if what it draws is not this. -/
def round (poor : Option ℚ) (t : Traffic) (d : FlowDraws s) : Option Traffic :=
  if t.globalTime ≤ s.simTime / 40 then
    (s.makeFlow poor t d).map (t.add d.flowType.index d.inter)
  else none

def rounds (poor : Option ℚ) (draws : List (FlowDraws s)) : Option Traffic :=
  draws.foldlM (s.round poor) {}

/-! ### What a run makes -/

/-- The hosts of the flow are two, under the leaves that it is made for, and it is marked as one
inside a rack if the leaf is the same. -/
structure Sound (f : Flow) : Prop where
  differ : f.srcInd ≠ f.dstInd
  srcLeaf : f.srcInd / s.numHostsPerLeaf = f.srcLeafInd
  dstLeaf : f.dstInd / s.numHostsPerLeaf = f.dstLeafInd
  rack : f.isIntraRack = if f.srcLeafInd = f.dstLeafInd then 1 else 0

end TrafficSettings

/-- No number that the round uses was drawn at the end of a range. -/
structure FlowDraws.Inside {s : TrafficSettings} (d : FlowDraws s) : Prop where
  srcLeaf : d.srcLeaf.Inside
  srcHost : d.srcHost.Inside
  dstLeafs : d.flowType.index = 0 → ∀ draw ∈ d.dstLeafs, draw.Inside
  dstHosts : ∀ draw ∈ d.dstHosts, draw.Inside

namespace IndexDraw

variable {n : Nat} {draw : IndexDraw n} {held i : Int} {draws : List (IndexDraw n)}

theorem inside_iff : draw.Inside ↔ 0 ≤ draw.index ∧ draw.index < n := by
  have low := draw.low
  have high := draw.high
  rw [Inside, index, tclRound]
  split_ifs with nonneg
  · rw [Int.floor_lt, Int.le_floor]
    constructor
    · rintro ⟨-, below⟩
      exact ⟨by push_cast; linarith, by push_cast; linarith⟩
    · rintro ⟨-, below⟩
      push_cast at below
      exact ⟨by linarith, by linarith⟩
  · have zero : ⌈draw.value - 1 / 2⌉ ≤ 0 := Int.ceil_le.mpr (by push_cast; linarith)
    have above : 0 ≤ ⌈draw.value - 1 / 2⌉ ↔ -1 / 2 < draw.value := by
      rw [← Int.sub_one_lt_iff, Int.lt_ceil]
      push_cast
      constructor <;> intro h <;> linarith
    rw [above]
    constructor
    · rintro ⟨left, below⟩
      have pos : (0 : ℚ) < n := by linarith
      have : 0 < n := by exact_mod_cast pos
      exact ⟨left, by omega⟩
    · rintro ⟨left, below⟩
      have pos : (1 : ℚ) ≤ n := by
        have : 1 ≤ n := by
          by_contra empty
          have : n = 0 := by omega
          subst this
          norm_num at high
          linarith
        exact_mod_cast this
      exact ⟨left, by linarith⟩

theorem only_inside (drawn : only draws = some i) :
    (∀ draw ∈ draws, draw.Inside) ↔ 0 ≤ i ∧ i < n := by
  rw [only.eq_def] at drawn
  split at drawn
  next draw =>
    cases drawn
    rw [List.forall_mem_singleton, inside_iff]
  next => cases drawn

theorem redraw_ne (drawn : redraw held draws = some i) : i ≠ held := by
  fun_induction redraw held draws with
  | case1 => cases drawn
  | case2 draw same => cases drawn
  | case3 draw other =>
    cases drawn
    exact other
  | case4 draw draws more same ih => exact ih drawn
  | case5 draw draws more other => cases drawn

/-- All draws but the last one gave the held number. -/
theorem redraw_inside (drawn : redraw held draws = some i) (there : 0 ≤ held ∧ held < n) :
    (∀ draw ∈ draws, draw.Inside) ↔ 0 ≤ i ∧ i < n := by
  fun_induction redraw held draws with
  | case1 => cases drawn
  | case2 draw same => cases drawn
  | case3 draw other =>
    cases drawn
    rw [List.forall_mem_singleton, inside_iff]
  | case4 draw draws more same ih =>
    have inside : draw.Inside := inside_iff.mpr (same ▸ there)
    rw [List.forall_mem_cons, ih drawn]
    exact and_iff_right inside
  | case5 draw draws more other => cases drawn

theorem redraw_ends (other : ∃ draw ∈ draws, draw.index ≠ held) :
    ∃ k i, redraw held (draws.take k) = some i ∧ i ≠ held := by
  induction draws with
  | nil =>
    obtain ⟨draw, listed, -⟩ := other
    cases listed
  | cons draw draws ih =>
    by_cases same : draw.index = held
    · have later : ∃ draw ∈ draws, draw.index ≠ held := by
        obtain ⟨found, listed, differs⟩ := other
        rcases List.mem_cons.mp listed with rfl | listed
        · exact absurd same differs
        · exact ⟨found, listed, differs⟩
      obtain ⟨k, i, drawn, differs⟩ := ih later
      refine ⟨k + 1, i, ?_, differs⟩
      rw [List.take_succ_cons, redraw, if_pos same, drawn]
      intro none
      rw [none] at drawn
      cases drawn
    · exact ⟨1, draw.index, by simp [redraw, same], same⟩

end IndexDraw

namespace TrafficSettings

variable {s : TrafficSettings} {poor : Option ℚ} {t : Traffic} {d : FlowDraws s} {f : Flow}

/-! ### One round -/

theorem IsHost.rack_pos {ind : Int} (host : s.IsHost ind) : (0 : Int) < s.numHostsPerLeaf := by
  by_contra empty
  have none : s.numHostsPerLeaf = 0 := by omega
  simp only [IsHost, totalHosts, none, zero_mul] at host
  omega

/-- A host that is set is under its leaf if and only if its number in the rack is one. -/
theorem IsHost.under_iff {leaf h : Int} (host : s.IsHost (leaf * s.numHostsPerLeaf + h)) :
    (leaf * s.numHostsPerLeaf + h) / s.numHostsPerLeaf = leaf ↔
      0 ≤ h ∧ h < s.numHostsPerLeaf := by
  have pos := host.rack_pos
  rw [add_comm, Int.add_mul_ediv_right _ _ pos.ne']
  constructor
  · intro same
    have row : h / s.numHostsPerLeaf = 0 := by omega
    have column := Int.mul_ediv_add_emod h s.numHostsPerLeaf
    rw [row, mul_zero, zero_add] at column
    exact ⟨column ▸ Int.emod_nonneg h pos.ne', column ▸ Int.emod_lt_of_pos h pos⟩
  · rintro ⟨low, high⟩
    rw [Int.ediv_eq_zero_of_lt low high, zero_add]

theorem IsHost.leaf_inside {leaf h : Int} (host : s.IsHost (leaf * s.numHostsPerLeaf + h))
    (inside : 0 ≤ h ∧ h < s.numHostsPerLeaf) : 0 ≤ leaf ∧ leaf < s.numToRs := by
  obtain ⟨low, high⟩ := host
  obtain ⟨nonneg, below⟩ := inside
  have pos : (0 : Int) < s.numHostsPerLeaf := by omega
  rw [totalHosts] at high
  push_cast at high
  constructor <;> nlinarith

theorem makeFlow_hosts (made : s.makeFlow poor t d = some f) :
    s.IsHost f.srcInd ∧ s.IsHost f.dstInd := by
  obtain ⟨e, -, made⟩ := Option.bind_eq_some_iff.mp made
  obtain ⟨mapping, -, made⟩ := Option.bind_eq_some_iff.mp made
  split at made
  next hosts =>
    cases made
    exact hosts
  next => cases made

theorem makeFlow_endpoints (made : s.makeFlow poor t d = some f) :
    s.endpoints d t.leaves = some f.toEndpoints ∧ f.isIntraRack = d.flowType.index % 2 := by
  obtain ⟨e, ends, made⟩ := Option.bind_eq_some_iff.mp made
  obtain ⟨mapping, -, made⟩ := Option.bind_eq_some_iff.mp made
  split at made
  next hosts =>
    cases made
    exact ⟨ends, rfl⟩
  next => cases made

/-- The flow of a kind is sound if and only if no number was drawn at the end of its range. -/
theorem makeFlow_sound (kind : d.flowType.Inside) (made : s.makeFlow poor t d = some f) :
    s.Sound f ↔ d.Inside := by
  obtain ⟨srcHost, dstHost⟩ := makeFlow_hosts made
  obtain ⟨ends, rack⟩ := makeFlow_endpoints made
  obtain ⟨low, high⟩ := IndexDraw.inside_iff.mp kind
  obtain ⟨⟨srcInd, dstInd, srcLeafInd, dstLeafInd⟩, shortFlowId, node, start, transferSize,
    isElephant, fromFailedLeaf, toFailedLeaf, mapping, isIntraRack⟩ := f
  rw [endpoints] at ends
  split_ifs at ends with inter intra
  · obtain ⟨dstLeaf, leafDrawn, ends⟩ := Option.bind_eq_some_iff.mp ends
    obtain ⟨dst, hostDrawn, ends⟩ := Option.bind_eq_some_iff.mp ends
    cases ends
    have only := IndexDraw.only_inside hostDrawn
    have other := IndexDraw.redraw_ne leafDrawn
    rw [inter] at rack
    constructor
    · intro sound
      have src := srcHost.under_iff.mp sound.srcLeaf
      have dst := dstHost.under_iff.mp sound.dstLeaf
      have leaf := srcHost.leaf_inside src
      exact ⟨IndexDraw.inside_iff.mpr leaf, IndexDraw.inside_iff.mpr src,
        fun _ => (IndexDraw.redraw_inside leafDrawn leaf).mpr (dstHost.leaf_inside dst),
        only.mpr dst⟩
    · intro inside
      have src := srcHost.under_iff.mpr (IndexDraw.inside_iff.mp inside.srcHost)
      have dst := dstHost.under_iff.mpr (only.mp inside.dstHosts)
      refine ⟨fun same => other ?_, src, dst, ?_⟩
      · rw [← dst, ← src]
        exact congrArg (· / (s.numHostsPerLeaf : Int)) same.symm
      · rw [if_neg (Ne.symm other)]
        exact rack
  · obtain ⟨dst, hostDrawn, ends⟩ := Option.bind_eq_some_iff.mp ends
    cases ends
    have other := IndexDraw.redraw_ne hostDrawn
    rw [intra] at rack
    constructor
    · intro sound
      have src := srcHost.under_iff.mp sound.srcLeaf
      have dst := dstHost.under_iff.mp sound.dstLeaf
      exact ⟨IndexDraw.inside_iff.mpr (srcHost.leaf_inside src), IndexDraw.inside_iff.mpr src,
        fun zero => absurd zero inter, (IndexDraw.redraw_inside hostDrawn src).mpr dst⟩
    · intro inside
      have src := IndexDraw.inside_iff.mp inside.srcHost
      have dst := (IndexDraw.redraw_inside hostDrawn src).mp inside.dstHosts
      refine ⟨fun same => other ?_, srcHost.under_iff.mpr src, dstHost.under_iff.mpr dst, ?_⟩
      · exact (add_left_cancel same).symm
      · rw [if_pos rfl]
        exact rack
  all_goals
    exfalso
    push_cast at high
    omega

end TrafficSettings

end Saps.Script
