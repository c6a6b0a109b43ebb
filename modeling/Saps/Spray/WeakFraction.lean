import Mathlib.Tactic.Linarith
import Mathlib.Tactic.Positivity
import Mathlib.Tactic.Ring
import Saps.Spray.Faults
import Saps.Spray.FlowcellPath
import Saps.Spray.SpineClasses

/-!
# The share of the flows on degraded spines

A flow is mapped to the degraded spines if a draw over all bandwidth falls below theirs.
The capacity is divided by the failure ratio before it is multiplied, so that share is the
one of the capacities only where the division leaves nothing over. The bandwidths are
`int`s, whose overflow has no meaning in the source's language: the sum has to fit.
-/
namespace Saps.Spray

open DrivenRun (bind_eq_ok)
open Outcome (Ends)
open SignedWord (wrap)

variable {cfg : SprayConfig} {e : PacketEnv} {a b : SprayAgent}

/-- A flow that may start on the degraded spines, all of them degraded by the ratio it was
told, with some spine to itself. -/
structure EligibleForWeak (cfg : SprayConfig) : Prop where
  several : 1 < cfg.numFailures
  partially : ∀ f ∈ cfg.failedLinks, cfg.direct f = true →
    f.failureRatio = cfg.failureRatio ∧ f.failureRatio ≠ 100
  positive : 1 ≤ cfg.failureRatio
  healthy : ∃ s < cfg.numUplinks, ¬HasDirect cfg s
  capacity : 1 ≤ cfg.healthyLinkCapacity
  notToFailed : cfg.toFailedLeaf = false
  short : cfg.flowsizeBytes < cfg.dynamicMappingThreshold ∨ cfg.dynamicMapping = 1
  sprays : cfg.healthyPathOnly = false

/-- The degraded spines of the flow, if none is dead. -/
def weakCount (cfg : SprayConfig) : Nat := cfg.numUplinks.count (HasDirect cfg)

def healthyCount (cfg : SprayConfig) : Nat := cfg.numUplinks - weakCount cfg

/-- `partialFailurePaths_BW`. -/
def weakBW (cfg : SprayConfig) : Nat :=
  weakCount cfg * (cfg.healthyLinkCapacity / cfg.failureRatio)

/-- `healthyPaths_BW`. -/
def healthyBW (cfg : SprayConfig) : Nat := healthyCount cfg * cfg.healthyLinkCapacity

/-- The part that the degraded spines have in the capacity of all spines. -/
def weakShare (cfg : SprayConfig) : ℚ :=
  let weak : ℚ := weakCount cfg * cfg.healthyLinkCapacity / cfg.failureRatio
  weak / (weak + healthyCount cfg * cfg.healthyLinkCapacity)

/-- The first packet maps the flow to the degraded spines when it draws `randNum_totalBW`. -/
def startsWeak (cfg : SprayConfig) (e : PacketEnv) (randNumTotalBW : Nat) : Bool :=
  (firstPacket cfg { e with randNumTotalBW } (fresh cfg)).toOption.any fun p =>
    decide (p.svtMapping = 1)

namespace EligibleForWeak

theorem bandwidths_eq (flow : EligibleForWeak cfg) :
    ∃ bw, bandwidths cfg (classify cfg cfg.failedLinks) cfg.failureRatio = .ok bw ∧
      bw.partialFailurePathsBW = weakBW cfg ∧
      bw.totalBW = ((weakBW cfg + healthyBW cfg : Nat) : Int) := by
  have positive := flow.positive
  have exact := (classify_represents cfg cfg.inRange).directExact
  -- every direct failure is a partial one, so no capacity is taken off
  have noFull (s : Nat) : ¬HasFullDirect cfg s := fun ⟨f, listed, _, direct, isFull⟩ =>
    (flow.partially f listed direct).2 isFull
  have weak : (classify cfg cfg.failedLinks).numDirectPartialFailurePaths =
      (cfg.numUplinks.count (HasDirect cfg) : Nat) := by
    rw [exact.numPartial]
    exact congrArg Nat.cast (CountUpdate.count_congr fun s _ => and_iff_left (noFull s))
  have full : (classify cfg cfg.failedLinks).numDirectFullFailurePaths = 0 := by
    rw [exact.numFull, Nat.count_iff_forall_not.mpr fun s _ => noFull s]
    rfl
  have most : cfg.numUplinks.count (HasDirect cfg) ≤ cfg.numUplinks := Nat.count_le _
  refine ⟨_, if_neg (by omega), ?_, ?_⟩
  · dsimp only
    rw [weak, weakBW, weakCount, Nat.cast_mul]
  · dsimp only
    rw [weak, full, flow.notToFailed, weakBW, healthyBW, weakCount, healthyCount, weakCount,
      Nat.cast_add, Nat.cast_mul, Nat.cast_mul, Nat.cast_sub most, Int.sub_zero]
    rfl

theorem mayStartWeak (flow : EligibleForWeak cfg) : mayStartWeak cfg = true := by
  simpa [Spray.mayStartWeak] using flow.short

theorem healthyBW_pos (flow : EligibleForWeak cfg) : 0 < healthyBW cfg := by
  obtain ⟨s, below, free⟩ := flow.healthy
  have some : 0 < cfg.numUplinks.count (¬HasDirect cfg ·) :=
    (Nat.zero_le _).trans_lt (Nat.count_strict_mono (p := (¬HasDirect cfg ·)) free below)
  have all := CountUpdate.count_add_count_not (HasDirect cfg) cfg.numUplinks
  have several : 0 < healthyCount cfg := by
    rw [healthyCount, weakCount]
    omega
  exact Nat.mul_pos several flow.capacity

/-- The draw alone decides whether the flow is mapped to the degraded spines. -/
theorem chosen_iff (flow : EligibleForWeak cfg) {t : SpineSets} {bw : Bandwidths} {r : Int}
    {m : Nat} (drawn : randomInteger bw.totalBW e.randNumTotalBW = .ok r)
    (chosen : chooseSvtMapping cfg t bw e = .ok m) : m = 1 ↔ r < bw.partialFailurePathsBW := by
  simp only [chooseSvtMapping, drawn, flow.mayStartWeak, flow.sprays, bind, Except.bind,
    true_and] at chosen
  split_ifs at chosen with weak indirect
  · cases chosen
    exact iff_of_true rfl weak
  · -- the indirect sets have numbers 10 to 12
    refine iff_of_false ?_ weak
    rintro rfl
    split at chosen
    · cases chosen
    · split_ifs at chosen
      · split at chosen
        · cases chosen
        · split at chosen <;> cases chosen
      · cases chosen
  · cases chosen
    exact iff_of_false Nat.zero_ne_one weak

/-- The initial values of the scheme are set, whatever it is. -/
theorem initScheme_returns (flow : EligibleForWeak cfg) (a : SprayAgent) :
    ∃ b, initScheme cfg a = .ok b ∧ b.svtMapping = a.svtMapping := by
  have ends : Ends (fun _ => False) (fun b => ¬PlacedByFailure cfg → b.linkID = a.linkID)
      (initScheme cfg a) := by
    apply initScheme_fails
    · intro _ none
      have several := flow.several
      rw [SprayConfig.numFailures, none] at several
      cases several
    · intro i zero
      refine (uplinkFailureRatio_pos (fun f listed direct => ?_) i).ne' zero
      rw [(flow.partially f listed direct).1]
      exact flow.positive
  cases scheme : initScheme cfg a with
  | error fault => exact (ends.of_error scheme).elim
  | ok b => exact ⟨b, rfl, ((initScheme_keepsFlow a).of_ok scheme).1.svtMapping⟩

/-- The draws that map the flow to the degraded spines are those below their bandwidth. -/
theorem startsWeak_iff (flow : EligibleForWeak cfg) (e : PacketEnv) {d : Nat}
    (below : d < weakBW cfg + healthyBW cfg) : startsWeak cfg e d = true ↔ d < weakBW cfg := by
  have sound : SoundDraws cfg :=
    ⟨fun toFailed => absurd toFailed (by simp [flow.notToFailed]), flow.capacity,
      healthySpine_of_free flow.healthy⟩
  obtain ⟨bw, m, known, chosen, started⟩ := firstPacket_drawn flow.several flow.positive sound
    { e with randNumTotalBW := d }
  obtain ⟨bw', known', weak, total⟩ := flow.bandwidths_eq
  cases known.symm.trans known'
  -- a number below the total is drawn as it is
  have drawn : randomInteger bw.totalBW d = .ok (d : Int) := by
    rw [randomInteger, total, if_neg (by omega), Int.emod_eq_of_lt (by omega) (by omega)]
  have mapped := flow.chosen_iff (e := { e with randNumTotalBW := d }) drawn chosen
  obtain ⟨b, scheme, kept⟩ := flow.initScheme_returns (drawnAgent cfg m)
  have kept : b.svtMapping = m := kept
  have same : startsWeak cfg e d = decide (m = 1) := by
    rw [startsWeak, started b scheme, ← kept]
    rfl
  rw [same, decide_eq_true_eq, mapped, weak]
  omega

end EligibleForWeak

/-- Two parts of a sum that share the rest are equal if they are equal parts. -/
private theorem part_eq_iff {x y z : ℚ} (hx : 0 ≤ x) (hy : 0 ≤ y) (hz : 0 < z) :
    x / (x + z) = y / (y + z) ↔ x = y := by
  rw [div_eq_div_iff (by linarith) (by linarith)]
  constructor
  · intro cross
    have scaled : x * z = y * z := by linarith
    exact mul_right_cancel₀ hz.ne' scaled
  · rintro rfl
    rfl

private theorem scaled_eq_iff {P c R : Nat} (positive : 1 ≤ R) :
    ((P * (c / R) : Nat) : ℚ) = P * c / R ↔ P = 0 ∨ R ∣ c := by
  have nonzero : (R : ℚ) ≠ 0 := by exact_mod_cast (show R ≠ 0 by omega)
  rw [eq_div_iff nonzero]
  constructor
  · intro same
    have inNat : P * (c / R * R) = P * c := by
      rw [← Nat.mul_assoc]
      exact_mod_cast same
    refine (Nat.eq_zero_or_pos P).imp_right fun some => ?_
    rw [← Nat.eq_of_mul_eq_mul_left some inNat]
    exact Nat.dvd_mul_left R _
  · rintro (rfl | whole)
    · simp
    · have back : c / R * R = c := Nat.div_mul_cancel whole
      conv_rhs => rw [← back]
      push_cast
      ring

/-- The sums of the draw are `int`s, and among its equally likely values the part that maps
the flow to the degraded spines is the part of their capacity. -/
structure SharedByCapacity (cfg : SprayConfig) (e : PacketEnv) (bw : Bandwidths) (total : Nat) :
    Prop where
  ints : BandwidthInts cfg (classify cfg cfg.failedLinks) bw
  share : (total.count (fun d => startsWeak cfg e d = true) : ℚ) / total = weakShare cfg

/-- The sums of the draw are `int`s as soon as their total is one. -/
theorem EligibleForWeak.ints_iff (flow : EligibleForWeak cfg) {bw : Bandwidths}
    (known : bandwidths cfg (classify cfg cfg.failedLinks) cfg.failureRatio = .ok bw)
    (total : bw.totalBW = ((weakBW cfg + healthyBW cfg : Nat) : Int)) :
    BandwidthInts cfg (classify cfg cfg.failedLinks) bw ↔ weakBW cfg + healthyBW cfg < 2 ^ 31 := by
  have sorted := classify_represents cfg cfg.inRange
  constructor
  · intro ints
    have high := ints.totalBW.2
    omega
  · intro below
    have whole := (bandwidths_say sorted known).total
    have paths := bandwidths_paths sorted known
    rw [flow.notToFailed, if_neg Bool.false_ne_true, Int.mul_one, paths] at whole
    refine bandwidths_fit ⟨by omega, fun toFailed => ?_⟩ sorted known
    simp [flow.notToFailed] at toFailed

/-- The flow is mapped to the degraded spines by the part of their capacity exactly when
the bandwidths are `int`s and there are no such spines or the ratio divides the capacity
of a healthy link. -/
theorem weakFraction_exact_iff (cfg : SprayConfig) (flow : EligibleForWeak cfg) (e : PacketEnv) :
    ∃ bw total, bandwidths cfg (classify cfg cfg.failedLinks) cfg.failureRatio = .ok bw ∧
      bw.totalBW = (total : Nat) ∧ 0 < total ∧
      (SharedByCapacity cfg e bw total ↔ weakBW cfg + healthyBW cfg < 2 ^ 31 ∧
        (weakCount cfg = 0 ∨ cfg.failureRatio ∣ cfg.healthyLinkCapacity)) := by
  obtain ⟨bw, known, -, total⟩ := flow.bandwidths_eq
  have healthy := flow.healthyBW_pos
  refine ⟨bw, weakBW cfg + healthyBW cfg, known, total, by omega, ?_⟩
  -- the draws that start the flow on the weak spines are those below `partialFailurePaths_BW`
  have draws : (weakBW cfg + healthyBW cfg).count (fun d => startsWeak cfg e d = true) =
      weakBW cfg := by
    rw [CountUpdate.count_congr fun d below => flow.startsWeak_iff e below, Nat.count_add,
      Nat.count_of_forall fun _ below => below,
      Nat.count_of_forall_not fun d _ => by omega, Nat.add_zero]
  have positive : (0 : ℚ) < healthyBW cfg := by exact_mod_cast healthy
  have share : (weakBW cfg : ℚ) / (weakBW cfg + healthyBW cfg : Nat) = weakShare cfg ↔
      weakCount cfg = 0 ∨ cfg.failureRatio ∣ cfg.healthyLinkCapacity := by
    rw [weakShare, Nat.cast_add, ← scaled_eq_iff flow.positive]
    rw [healthyBW] at positive ⊢
    rw [Nat.cast_mul] at positive ⊢
    exact part_eq_iff (by positivity) (by positivity) positive
  rw [← flow.ints_iff known total, ← share]
  constructor
  · rintro ⟨ints, shared⟩
    rw [draws] at shared
    exact ⟨ints, shared⟩
  · rintro ⟨ints, shared⟩
    refine ⟨ints, ?_⟩
    rw [draws]
    exact shared

/-- One of three spines keeps a tenth of the capacity of a healthy one. -/
def tenthLeft (healthyLinkCapacity : Nat) : SprayConfig :=
  { (Fabric.mk 3 [⟨0, 1, 10⟩, ⟨1, 0, 10⟩] threeUplinks_pos (by decide)).flow with
    failureRatio := 10
    dynamicMapping := 1
    healthyLinkCapacity }

theorem tenthLeft_eligible {c : Nat} (capacity : 1 ≤ c) : EligibleForWeak (tenthLeft c) := by
  -- the capacity plays no role in the other conditions
  have unit : EligibleForWeak (tenthLeft 1) :=
    ⟨by decide, by decide, by decide, ⟨0, by decide, by decide⟩, by decide, rfl, .inr rfl, rfl⟩
  exact ⟨unit.several, unit.partially, unit.positive, unit.healthy, capacity, rfl, .inr rfl, rfl⟩

/-- Counted in units of the whole, the degraded spine has a part in 21 of the capacity, and
no draw maps a flow to it. A capacity that the ratio does divide can be too large for the
sum of three spines, which comes out negative. -/
theorem tenthLeft_starved :
    (EligibleForWeak (tenthLeft 1) ∧
      ∃ bw, bandwidths (tenthLeft 1) (classify (tenthLeft 1) (tenthLeft 1).failedLinks) 10 = .ok bw ∧
        bw.totalBW = (2 : Nat) ∧
        (Nat.count (fun d => startsWeak (tenthLeft 1) (fullPackets 0) d = true) 2 : ℚ) / (2 : Nat) ≠
          weakShare (tenthLeft 1)) ∧
    EligibleForWeak (tenthLeft 2045222520) ∧
      ∃ bw, bandwidths (tenthLeft 2045222520)
          (classify (tenthLeft 2045222520) (tenthLeft 2045222520).failedLinks) 10 = .ok bw ∧
        10 ∣ 2045222520 ∧ wrap 32 bw.totalBW = -4 := by
  refine ⟨⟨tenthLeft_eligible le_rfl, _, rfl, rfl, ?_⟩,
    tenthLeft_eligible (by decide), _, rfl, by decide, by decide⟩
  have none : Nat.count (fun d => startsWeak (tenthLeft 1) (fullPackets 0) d = true) 2 = 0 := by
    decide +kernel
  have weak : weakCount (tenthLeft 1) = 1 := by decide
  have healthy : healthyCount (tenthLeft 1) = 2 := by decide
  rw [none, weakShare, weak, healthy]
  norm_num [tenthLeft]

/-- A capacity of 1 is not divided by the ratio, one of 10 is. -/
theorem weakFraction_exact_iff_tenthLeft :
    (∃ bw total, bandwidths (tenthLeft 1) (classify (tenthLeft 1) (tenthLeft 1).failedLinks) 10 =
        .ok bw ∧ bw.totalBW = (total : Nat) ∧ ¬SharedByCapacity (tenthLeft 1) (fullPackets 0) bw total) ∧
    ∃ bw total, bandwidths (tenthLeft 10) (classify (tenthLeft 10) (tenthLeft 10).failedLinks) 10 =
      .ok bw ∧ bw.totalBW = (total : Nat) ∧
        SharedByCapacity (tenthLeft 10) (fullPackets 0) bw total := by
  constructor
  · obtain ⟨bw, total, known, same, -, exact⟩ :=
      weakFraction_exact_iff (tenthLeft 1) (tenthLeft_eligible le_rfl) (fullPackets 0)
    refine ⟨bw, total, known, same, fun shared => ?_⟩
    rcases (exact.mp shared).2 with none | whole
    · exact absurd none (by decide)
    · exact absurd whole (by decide)
  · obtain ⟨bw, total, known, same, -, exact⟩ :=
      weakFraction_exact_iff (tenthLeft 10) (tenthLeft_eligible (by decide)) (fullPackets 0)
    exact ⟨bw, total, known, same, exact.mpr ⟨by decide, .inr (by decide)⟩⟩

end Saps.Spray
