import Saps.Library.Outcome
import Saps.Library.SignedWord
import Mathlib.Data.Rat.Defs
import Mathlib.Algebra.Order.Ring.Rat

/-!
# Data of the flowcell schemes

The fields of `TcpAgent` that the load-balancing block of `output()` reads and
writes. Flags that the source only tests against zero are booleans; the ones it
also compares with 1 or 2 stay integers. `ndatabytes_` wraps around like the `int` it is;
the other `int`s are unbounded, and results that depend on their range bound them. The
last part says what every step but the multi-failure search does with an agent.
-/
namespace Saps.Spray

/-- `failedLink`: one entry of the failure list. -/
structure FailedLink where
  leaf : Int
  spine : Nat
  failureRatio : Nat
deriving DecidableEq, Repr

/-- The uplinks of a leaf and the failures listed for the fabric. -/
structure Fabric where
  numUplinks : Nat
  failedLinks : List FailedLink
  uplinks_pos : 0 < numUplinks
  inRange : ∀ f ∈ failedLinks, f.spine < numUplinks

/-- When the failure happens and when senders get to know of it. -/
structure FailureTiming where
  failureStartTime : ℚ
  failureDuration : ℚ
  failureDetectionDelay : ℚ

/-- What is bound on a flow's agent before its first packet. -/
structure SprayConfig extends Fabric where
  flowcellSizePkts : Nat
  cell_pos : 0 < flowcellSizePkts
  failureAware : Bool
  realisticFailure : Bool
  roundRobin : Bool
  selectiveSpraying : Bool
  healthyPathOnly : Bool
  daSprayOnly : Int
  daFlow : Bool
  poorPathFlow : Bool
  failureCase : Int
  failureRatio : Nat
  fromFailedLeaf : Bool
  toFailedLeaf : Bool
  srcLeaf : Int
  destLeaf : Int
  dynamicMapping : Int
  dynamicMappingThreshold : Int
  dynamicMappingThresholdGL2GL : Int
  healthyLinkCapacity : Nat
  flowsizeBytes : Int
  timing : FailureTiming

/-- A flow from leaf 0 to leaf 3 that knows of the failures from its first packet on. -/
def Fabric.flow (fabric : Fabric) : SprayConfig where
  toFabric := fabric
  flowcellSizePkts := 1
  cell_pos := Nat.zero_lt_one
  failureAware := true
  realisticFailure := true
  roundRobin := true
  selectiveSpraying := false
  healthyPathOnly := false
  daSprayOnly := 0
  daFlow := false
  poorPathFlow := false
  failureCase := 1
  failureRatio := 2
  fromFailedLeaf := true
  toFailedLeaf := false
  srcLeaf := 0
  destLeaf := 3
  dynamicMapping := 0
  dynamicMappingThreshold := 0
  dynamicMappingThresholdGL2GL := 0
  healthyLinkCapacity := 40
  flowsizeBytes := 1000000
  timing := ⟨0, 0, 0⟩

/-- A fabric without failures. -/
def Fabric.sound (numUplinks : Nat) (uplinks_pos : 0 < numUplinks) : Fabric where
  numUplinks
  failedLinks := []
  uplinks_pos
  inRange := fun _ listed => absurd listed List.not_mem_nil

theorem threeUplinks_pos : 0 < 3 := Nat.succ_pos 2

theorem fourUplinks_pos : 0 < 4 := Nat.succ_pos 3

namespace SprayConfig

variable (cfg : SprayConfig)

/-- `numFailures_`, the length of the parsed failure list. -/
def numFailures : Nat := cfg.failedLinks.length

/-- A listed failure is direct when it sits at the flow's source or destination leaf. -/
def direct (f : FailedLink) : Bool :=
  decide (f.leaf = cfg.srcLeaf) || decide (f.leaf = cfg.destLeaf)

/-- `failureDetected_`, set at the top of `output()` from the scheduler's clock. -/
def failureDetected (now : ℚ) : Bool :=
  let t := cfg.timing
  cfg.realisticFailure && decide (cfg.failureCase ≠ 0) &&
    decide (now > t.failureStartTime + t.failureDetectionDelay) &&
    (decide (t.failureDuration = 0) ||
      (decide (t.failureDuration > 0) &&
        decide (now < t.failureStartTime + t.failureDuration + t.failureDetectionDelay)))

/-- The same flow with the failure at other times. -/
def withTiming (timing : FailureTiming) : SprayConfig := { cfg with timing }

end SprayConfig

/-- The spine sets and path counters. An array entry is 1 for a member and -1
otherwise, except that `svtNoFailure` and `svtDaNoFailure` start out full. -/
@[ext]
structure SpineSets where
  svtNoFailure : Nat → Int
  svtPartialFailure : Nat → Int
  fullFailureSpines : Nat → Int
  svtDaPartialFailure : Nat → Int
  svtDaFullFailure : Nat → Int
  svtDaNoFailure : Nat → Int
  numDirectFailures : Int
  numDirectPartialFailurePaths : Int
  numDirectFullFailurePaths : Int
  numIndirectPartialFailurePaths : Int
  numIndirectFullFailurePaths : Int

/-- The sets as the first packet allocates them, over the constructor's counters. -/
def SpineSets.initial : SpineSets where
  svtNoFailure := fun _ => 1
  svtPartialFailure := fun _ => -1
  fullFailureSpines := fun _ => -1
  svtDaPartialFailure := fun _ => -1
  svtDaFullFailure := fun _ => -1
  svtDaNoFailure := fun _ => 1
  numDirectFailures := 0
  numDirectPartialFailurePaths := 0
  numDirectFullFailurePaths := 0
  numIndirectPartialFailurePaths := 0
  numIndirectFullFailurePaths := 0

/-- The load-balancing state of a flow's agent. -/
structure SprayAgent where
  ndatapack : Nat
  ndatabytes : Int
  linkID : Nat
  rfactor : Int
  flowCellMod : Int
  failureRatio : Nat
  uplinkWeights : Nat → Nat
  totalUplinkWeights : Nat
  sets : SpineSets
  svtMapping : Nat
  poorPathFlow : Bool
  toggleWeakSpines : Nat

/-- The agent as the constructor and the script leave it. -/
def fresh (cfg : SprayConfig) : SprayAgent where
  ndatapack := 0
  ndatabytes := 0
  linkID := 0
  rfactor := 30
  flowCellMod := 0
  failureRatio := cfg.failureRatio
  uplinkWeights := fun _ => 0
  totalUplinkWeights := 0
  sets := .initial
  svtMapping := 0
  poorPathFlow := cfg.poorPathFlow
  toggleWeakSpines := 0

/-- The fields that, the multi-failure search apart, only the first packet and the
counters at the end of `output()` write. -/
structure SameFlow (a b : SprayAgent) : Prop where
  ndatapack : b.ndatapack = a.ndatapack
  ndatabytes : b.ndatabytes = a.ndatabytes
  sets : b.sets = a.sets
  svtMapping : b.svtMapping = a.svtMapping

theorem SameFlow.refl (a : SprayAgent) : SameFlow a a := ⟨rfl, rfl, rfl, rfl⟩

theorem SameFlow.trans {a b c : SprayAgent} (first : SameFlow a b) (second : SameFlow b c) :
    SameFlow a c where
  ndatapack := second.ndatapack.trans first.ndatapack
  ndatabytes := second.ndatabytes.trans first.ndatabytes
  sets := second.sets.trans first.sets
  svtMapping := second.svtMapping.trans first.svtMapping

/-- What a packet meets from outside: the clock, its size, the answer of
get-incoming-traffic and the values behind the draws, each under the name of the
variable it lands in. -/
structure PacketEnv where
  now : ℚ
  databytes : Nat
  incomingTrafficToDestLeaf : Int
  randNumTotalBW : Nat
  randNumHealthyBW : Nat
  randNumDaIndirectFailureBW : Nat
  randomNumber : Nat
  randomUplink : Nat

/-- The ways a call of `output()` does not come back with a packet. -/
inductive Fault where
  | divisionByZero
  | noFailureRecord
  | endlessSearch
deriving DecidableEq, Repr

/-- `Random::integer(k)`: a remainder of the generator's next value. -/
def randomInteger (k : Int) (value : Nat) : Except Fault Int :=
  if k = 0 then .error .divisionByZero else .ok (value % k)

/-- `failedLinks[0]`; the list is allocated only when `numFailures_ > 0`. -/
def firstFailure (cfg : SprayConfig) : Except Fault FailedLink :=
  match cfg.failedLinks with
  | [] => .error .noFailureRecord
  | f :: _ => .ok f

/-! ### Steps that keep the flow -/

open Outcome (Ends)

variable {cfg : SprayConfig} {a b : SprayAgent}

/-- What every step but the multi-failure search does with an agent: it may fail, but
does not hang; if it answers, the flow's data are as before and the uplink is still
inside the fabric. -/
abbrev KeepsFlow (cfg : SprayConfig) (a : SprayAgent) : Except Fault SprayAgent → Prop :=
  Ends (· ≠ .endlessSearch) fun b =>
    SameFlow a b ∧ (a.linkID < cfg.numUplinks → b.linkID < cfg.numUplinks)

theorem KeepsFlow.answer (same : SameFlow a b)
    (inside : a.linkID < cfg.numUplinks → b.linkID < cfg.numUplinks) :
    KeepsFlow cfg a (.ok b) :=
  And.intro same inside

theorem KeepsFlow.unchanged (a : SprayAgent) : KeepsFlow cfg a (.ok a) :=
  .answer (.refl a) id

/-- A step that keeps the flow may come first. -/
theorem KeepsFlow.after {x : Except Fault SprayAgent} (first : KeepsFlow cfg a (.ok b))
    (rest : KeepsFlow cfg b x) : KeepsFlow cfg a x :=
  rest.mono fun _ kept => ⟨first.1.trans kept.1, fun inside => kept.2 (first.2 inside)⟩

theorem randomInteger_ends (k : Int) (value : Nat) :
    Ends (· ≠ .endlessSearch) (fun r => 0 ≤ k → 0 ≤ r ∧ r < k) (randomInteger k value) := by
  simp only [randomInteger]
  split
  · exact nofun
  · intro nonneg
    exact ⟨Int.emod_nonneg _ (by omega), Int.emod_lt_of_pos _ (by omega)⟩

theorem firstFailure_ends (cfg : SprayConfig) :
    Ends (· ≠ .endlessSearch) (fun f => f.spine < cfg.numUplinks) (firstFailure cfg) := by
  simp only [firstFailure]
  split
  · exact nofun
  next f rest listed => exact cfg.inRange f (by simp [listed])

theorem firstFailure_of_listed {f : FailedLink} {rest : List FailedLink}
    (listed : cfg.failedLinks = f :: rest) : firstFailure cfg = .ok f := by
  rw [firstFailure, listed]

end Saps.Spray
