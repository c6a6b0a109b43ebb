import Saps.Spray.FirstPacket
import Saps.Library.DrivenRun

/-!
# The draw of a spine set

Which mappings the random choice of the first packet can make is decided by the
fabric and the flow's settings alone (`StartsOn`). The bandwidth sums that the
code compares are read as statements about classes of spines (`BandwidthsSay`),
and the draw is shown to reach every mapping of `StartsOn` and no other.
-/
namespace Saps.Spray

open DrivenRun (bind_eq_ok)
open SignedWord (Fits fits_of_nonneg)

variable {cfg : SprayConfig} {e : PacketEnv}

/-! ### Spines of a fabric -/

/-- Some spine of the fabric has the class. -/
def HasClass (cfg : SprayConfig) (k : SpineClass) : Prop :=
  ∃ s < cfg.numUplinks, classOf cfg cfg.failedLinks s = k

/-- Some spine has no direct failure. -/
def HealthySpine (cfg : SprayConfig) : Prop :=
  ∃ s < cfg.numUplinks, ∀ f ∈ cfg.failedLinks, f.spine = s → cfg.direct f = false

/-- Some spine is named by no listed failure. -/
def CleanSpine (cfg : SprayConfig) : Prop :=
  ∃ s < cfg.numUplinks, ∀ f ∈ cfg.failedLinks, f.spine ≠ s

theorem cleanSpine_iff : CleanSpine cfg ↔ HasClass cfg .clean := by
  simp only [CleanSpine, HasClass, classOf_eq_clean_iff]

theorem healthySpine_iff :
    HealthySpine cfg ↔
      HasClass cfg .clean ∨ HasClass cfg .indirectPartial ∨ HasClass cfg .indirectFull := by
  have undirected : ∀ s, (∀ f ∈ cfg.failedLinks, f.spine = s → cfg.direct f = false) ↔
      (classOf cfg cfg.failedLinks s).isDirect = false := by
    intro s
    rw [← Bool.not_eq_true, isDirect_classOf_iff]
    simp
  simp only [HealthySpine, HasClass, undirected, ← exists_or, ← and_or_left]
  refine exists_congr fun s => and_congr_right fun _ => ?_
  cases classOf cfg cfg.failedLinks s <;> simp [SpineClass.isDirect]

/-- The weak direct set has bandwidth to draw from. -/
def WeakBandwidth (cfg : SprayConfig) : Prop :=
  HasClass cfg .directPartial ∧ cfg.failureRatio ≤ cfg.healthyLinkCapacity

/-- The draw over the total bandwidth does not divide by zero. -/
def DrawPossible (cfg : SprayConfig) : Prop :=
  (HealthySpine cfg ∨ WeakBandwidth cfg) ∧ (cfg.toFailedLeaf = true → 2 ≤ cfg.numUplinks)

/-! ### The mappings a flow can start on -/

/-- The mappings that the first packet can draw. -/
inductive StartsOn (cfg : SprayConfig) : Nat → Prop
  | weak (short : mayStartWeak cfg = true) (sprays : cfg.healthyPathOnly = false)
      (bandwidth : WeakBandwidth cfg) : StartsOn cfg 1
  | indirectPartial (sprays : cfg.healthyPathOnly = false) (indirect : cfg.daSprayOnly = 0)
      (short : mayStartIndirect cfg = true) (present : HasClass cfg .indirectPartial) :
      StartsOn cfg 11
  | indirectFull (sprays : cfg.healthyPathOnly = false) (indirect : cfg.daSprayOnly = 0)
      (short : mayStartIndirect cfg = true) (present : HasClass cfg .indirectFull) :
      StartsOn cfg 12
  | unrelated (sprays : cfg.healthyPathOnly = false) (indirect : cfg.daSprayOnly = 0)
      (present : HasClass cfg .indirectPartial ∨ HasClass cfg .indirectFull)
      (room : mayStartIndirect cfg = true → CleanSpine cfg) : StartsOn cfg 10
  | healthy (room : HealthySpine cfg ∨ cfg.healthyPathOnly = true ∨ mayStartWeak cfg = false ∨
      (cfg.toFailedLeaf = true ∧ 3 ≤ cfg.numUplinks)) : StartsOn cfg 0

theorem randomInteger_ok {k r : Int} {value : Nat} (positive : 0 ≤ k)
    (h : randomInteger k value = .ok r) : 0 ≤ r ∧ r < k :=
  (randomInteger_ends k value).of_ok h positive

/-- A class has a spine exactly when its count is positive. -/
private theorem hasClass_iff (k : SpineClass) :
    0 < classCount cfg.numUplinks (classOf cfg cfg.failedLinks) k ↔ HasClass cfg k :=
  classCount_pos_iff _ _ k

/-- What the bandwidth sums of a classified flow say about its spines. -/
structure BandwidthsSay (cfg : SprayConfig) (indirectPartialBW : Int) (bw : Bandwidths) :
    Prop where
  total : bw.totalBW = (bw.partialFailurePathsBW + bw.healthyPathsBW) *
    (if cfg.toFailedLeaf then (cfg.numUplinks : Int) - 1 else 1)
  capacity : bw.totalBW ≠ 0 → 0 < cfg.healthyLinkCapacity
  weak_nonneg : 0 ≤ bw.partialFailurePathsBW
  weak : 0 < bw.partialFailurePathsBW ↔ WeakBandwidth cfg
  healthy_nonneg : 0 ≤ bw.healthyPathsBW
  healthy : 0 < bw.healthyPathsBW ↔ HealthySpine cfg ∧ 0 < cfg.healthyLinkCapacity
  indirect_le : bw.indirectFailurePathsBW ≤ bw.healthyPathsBW
  kind_nonneg : 0 ≤ indirectPartialBW
  kind_le : indirectPartialBW ≤ bw.indirectFailurePathsBW
  unrelated : bw.indirectFailurePathsBW < bw.healthyPathsBW ↔
    CleanSpine cfg ∧ 0 < cfg.healthyLinkCapacity
  indirectPartial : 0 < indirectPartialBW ↔
    HasClass cfg .indirectPartial ∧ 0 < cfg.healthyLinkCapacity
  indirectFull : indirectPartialBW < bw.indirectFailurePathsBW ↔
    HasClass cfg .indirectFull ∧ 0 < cfg.healthyLinkCapacity

private theorem product_pos_iff {x y : Int} (hx : 0 ≤ x) (hy : 0 ≤ y) :
    0 < x * y ↔ 0 < x ∧ 0 < y := by
  constructor
  · intro positive
    refine ⟨lt_of_le_of_ne hx ?_, lt_of_le_of_ne hy ?_⟩ <;> rintro rfl <;> simp at positive
  · rintro ⟨left, right⟩
    exact Int.mul_pos left right

theorem bandwidths_say {t : SpineSets} {bw : Bandwidths}
    (sorted : Represents cfg.numUplinks (classOf cfg cfg.failedLinks) t)
    (known : bandwidths cfg t cfg.failureRatio = .ok bw) :
    BandwidthsSay cfg (t.numIndirectPartialFailurePaths * (cfg.healthyLinkCapacity : Int)) bw := by
  have counted := @hasClass_iff cfg
  have nonneg := fun k => classCount_nonneg cfg.numUplinks (classOf cfg cfg.failedLinks) k
  have everySpine := classCount_sum cfg.numUplinks (classOf cfg cfg.failedLinks)
  have clean := nonneg .clean
  have directPartial := nonneg .directPartial
  have indirectPartial := nonneg .indirectPartial
  have indirectFull := nonneg .indirectFull
  have capacity : (0 : Int) ≤ cfg.healthyLinkCapacity := by omega
  simp only [bandwidths] at known
  rw [sorted.numDirectPartial, sorted.numDirectFull, sorted.numIndirectPartial,
    sorted.numIndirectFull] at known
  rw [sorted.numIndirectPartial]
  split at known
  · cases known
  next divides =>
    have quotient : (0 : Int) ≤ (cfg.healthyLinkCapacity / cfg.failureRatio : Nat) :=
      Int.natCast_nonneg _
    have enough : (0 : Int) < (cfg.healthyLinkCapacity / cfg.failureRatio : Nat) ↔
        cfg.failureRatio ≤ cfg.healthyLinkCapacity := by
      rw [Int.natCast_pos, Nat.div_pos_iff]
      omega
    -- the spines without a direct failure are the clean and the indirect ones
    have healthy : (cfg.numUplinks : Int) - classCount cfg.numUplinks (classOf cfg cfg.failedLinks)
        .directPartial - classCount cfg.numUplinks (classOf cfg cfg.failedLinks) .directFull =
        classCount cfg.numUplinks (classOf cfg cfg.failedLinks) .clean +
          (classCount cfg.numUplinks (classOf cfg cfg.failedLinks) .indirectFull +
            classCount cfg.numUplinks (classOf cfg cfg.failedLinks) .indirectPartial) := by
      omega
    simp only [healthy] at known
    cases known
    constructor
    · dsimp only
      split <;> simp
    · intro possible
      by_contra none
      simp [show cfg.healthyLinkCapacity = 0 by omega] at possible
    · exact Int.mul_nonneg directPartial quotient
    · rw [product_pos_iff directPartial quotient, counted, enough, WeakBandwidth]
    · exact Int.mul_nonneg (by omega) capacity
    · rw [product_pos_iff (by omega) capacity, healthySpine_iff, ← counted, ← counted, ← counted,
        Int.natCast_pos]
      exact and_congr_left' (by omega)
    · exact Int.mul_le_mul_of_nonneg_right (by omega) capacity
    · exact Int.mul_nonneg indirectPartial capacity
    · exact Int.mul_le_mul_of_nonneg_right (by omega) capacity
    · rw [← sub_pos, ← sub_mul, add_sub_cancel_right, product_pos_iff clean capacity, counted,
        cleanSpine_iff, Int.natCast_pos]
    · rw [product_pos_iff indirectPartial capacity, counted, Int.natCast_pos]
    · rw [← sub_pos, ← sub_mul, add_sub_cancel_right, product_pos_iff indirectFull capacity,
        counted, Int.natCast_pos]

/-! ### The sums as `int`s -/

/-- The bandwidth of all spines without a full direct failure, before it is scaled. -/
def pathsBandwidth (cfg : SprayConfig) : Int :=
  let count := classCount cfg.numUplinks (classOf cfg cfg.failedLinks)
  count .directPartial * ((cfg.healthyLinkCapacity / cfg.failureRatio : Nat) : Int) +
    (cfg.numUplinks - count .directPartial - count .directFull) * (cfg.healthyLinkCapacity : Int)

/-- The bandwidth of the fabric is in the range of an `int`. -/
structure BandwidthsFit (cfg : SprayConfig) : Prop where
  paths : pathsBandwidth cfg < 2 ^ 31
  total : cfg.toFailedLeaf = true → pathsBandwidth cfg * (cfg.numUplinks - 1) < 2 ^ 31

/-- The sums that the draw works with are those that `int`s come to. -/
structure BandwidthInts (cfg : SprayConfig) (t : SpineSets) (bw : Bandwidths) : Prop where
  partialFailurePathsBW : Fits 32 bw.partialFailurePathsBW
  healthyPathsBW : Fits 32 bw.healthyPathsBW
  paths : Fits 32 (bw.partialFailurePathsBW + bw.healthyPathsBW)
  totalBW : Fits 32 bw.totalBW
  indirectFailurePathsBW : Fits 32 bw.indirectFailurePathsBW
  indirectPartial : Fits 32 (t.numIndirectPartialFailurePaths * cfg.healthyLinkCapacity)

theorem bandwidths_paths {t : SpineSets} {bw : Bandwidths}
    (sorted : Represents cfg.numUplinks (classOf cfg cfg.failedLinks) t)
    (known : bandwidths cfg t cfg.failureRatio = .ok bw) :
    bw.partialFailurePathsBW + bw.healthyPathsBW = pathsBandwidth cfg := by
  simp only [bandwidths] at known
  rw [sorted.numDirectPartial, sorted.numDirectFull] at known
  split at known
  · cases known
  · cases known
    rfl

/-- All sums are parts of the bandwidth of the fabric. -/
theorem bandwidths_fit {t : SpineSets} {bw : Bandwidths} (fits : BandwidthsFit cfg)
    (sorted : Represents cfg.numUplinks (classOf cfg cfg.failedLinks) t)
    (known : bandwidths cfg t cfg.failureRatio = .ok bw) : BandwidthInts cfg t bw := by
  have say := bandwidths_say sorted known
  have uplinks := cfg.uplinks_pos
  have paths := bandwidths_paths sorted known
  have total := say.total
  have weak_nonneg := say.weak_nonneg
  have healthy_nonneg := say.healthy_nonneg
  have below := fits.paths
  have scaled : 0 ≤ bw.totalBW ∧ bw.totalBW < 2 ^ 31 := by
    rw [total, paths]
    split
    next toFailed => exact ⟨Int.mul_nonneg (by omega) (by omega), fits.total toFailed⟩
    · exact ⟨by omega, by omega⟩
  have kind_nonneg := say.kind_nonneg
  have kind_le := say.kind_le
  have indirect_le := say.indirect_le
  exact {
    partialFailurePathsBW := fits_of_nonneg weak_nonneg (by omega)
    healthyPathsBW := fits_of_nonneg healthy_nonneg (by omega)
    paths := fits_of_nonneg (by omega) (by omega)
    totalBW := fits_of_nonneg scaled.1 scaled.2
    indirectFailurePathsBW := fits_of_nonneg (by omega) (by omega)
    indirectPartial := fits_of_nonneg kind_nonneg (by omega) }

theorem numIndirect_pos_iff {t : SpineSets}
    (sorted : Represents cfg.numUplinks (classOf cfg cfg.failedLinks) t) :
    0 < t.numIndirectFullFailurePaths + t.numIndirectPartialFailurePaths ↔
      HasClass cfg .indirectPartial ∨ HasClass cfg .indirectFull := by
  have indirectPartial := classCount_nonneg cfg.numUplinks (classOf cfg cfg.failedLinks)
    .indirectPartial
  have indirectFull := classCount_nonneg cfg.numUplinks (classOf cfg cfg.failedLinks)
    .indirectFull
  rw [sorted.numIndirectFull, sorted.numIndirectPartial, ← hasClass_iff, ← hasClass_iff]
  omega

/-- The total is what the draw divides by. -/
private theorem BandwidthsSay.total_nonneg {ip : Int} {bw : Bandwidths}
    (say : BandwidthsSay cfg ip bw) : 0 ≤ bw.totalBW := by
  have uplinks := cfg.uplinks_pos
  rw [say.total]
  apply Int.mul_nonneg
  · exact Int.add_nonneg say.weak_nonneg say.healthy_nonneg
  · split <;> omega

theorem BandwidthsSay.total_pos_iff {ip : Int} {bw : Bandwidths}
    (say : BandwidthsSay cfg ip bw) (capacity : 0 < cfg.healthyLinkCapacity) :
    0 < bw.totalBW ↔ DrawPossible cfg := by
  have uplinks := cfg.uplinks_pos
  have weak := say.weak
  have healthy := say.healthy
  have weak_nonneg := say.weak_nonneg
  have healthy_nonneg := say.healthy_nonneg
  rw [say.total, product_pos_iff (by omega) (by split <;> omega), DrawPossible]
  apply and_congr
  · rw [← say.weak, ← and_iff_left (a := HealthySpine cfg) capacity, ← healthy]
    omega
  · split
    · simp_all
      omega
    · simp_all

/-- The draw can miss the weak set exactly when the total holds more than that set. -/
private theorem BandwidthsSay.weak_lt_total_iff {ip : Int} {bw : Bandwidths}
    (say : BandwidthsSay cfg ip bw) (possible : 0 < bw.totalBW) :
    bw.partialFailurePathsBW < bw.totalBW ↔
      HealthySpine cfg ∨ (cfg.toFailedLeaf = true ∧ 3 ≤ cfg.numUplinks) := by
  have weak_nonneg := say.weak_nonneg
  have healthy_nonneg := say.healthy_nonneg
  have total := say.total
  have uplinks := cfg.uplinks_pos
  generalize scaled : (if cfg.toFailedLeaf then (cfg.numUplinks : Int) - 1 else 1) = k at total
  -- without a failed destination leaf the total is not scaled up
  have wide : 2 ≤ k ↔ cfg.toFailedLeaf = true ∧ 3 ≤ cfg.numUplinks := by
    subst scaled
    split
    · simp_all
      omega
    · simp_all
  have factors : 0 < bw.partialFailurePathsBW + bw.healthyPathsBW ∧ 0 < k := by
    rw [total] at possible
    refine (product_pos_iff (Int.add_nonneg weak_nonneg healthy_nonneg) ?_).mp possible
    subst scaled
    split <;> omega
  have capacity : HealthySpine cfg ↔ 0 < bw.healthyPathsBW := by
    rw [say.healthy, and_iff_left (say.capacity (by omega))]
  rw [capacity, ← wide, total]
  constructor
  · intro beyond
    by_contra small
    -- then the weak set is the whole total
    rw [show bw.healthyPathsBW = 0 by omega, show k = 1 by omega] at beyond
    omega
  · rintro (healthy | twice)
    · calc bw.partialFailurePathsBW < (bw.partialFailurePathsBW + bw.healthyPathsBW) * 1 := by omega
        _ ≤ (bw.partialFailurePathsBW + bw.healthyPathsBW) * k :=
          Int.mul_le_mul_of_nonneg_left factors.2 factors.1.le
    · calc bw.partialFailurePathsBW < (bw.partialFailurePathsBW + bw.healthyPathsBW) * 2 := by omega
        _ ≤ (bw.partialFailurePathsBW + bw.healthyPathsBW) * k :=
          Int.mul_le_mul_of_nonneg_left twice factors.1.le

theorem chooseSvtMapping_startsOn {t : SpineSets} {bw : Bandwidths} {m : Nat}
    (sorted : Represents cfg.numUplinks (classOf cfg cfg.failedLinks) t)
    (known : bandwidths cfg t cfg.failureRatio = .ok bw)
    (h : chooseSvtMapping cfg t bw e = .ok m) : DrawPossible cfg ∧ StartsOn cfg m := by
  have say := bandwidths_say sorted known
  have present := numIndirect_pos_iff sorted
  simp only [chooseSvtMapping] at h
  -- the first draw is made in any case, so its modulus is positive
  obtain ⟨total, drawn, h⟩ := bind_eq_ok.mp h
  have total_range := randomInteger_ok say.total_nonneg drawn
  have total_pos : 0 < bw.totalBW := by omega
  refine ⟨(say.total_pos_iff (say.capacity total_pos.ne')).mp total_pos, ?_⟩
  split_ifs at h with weak indirect
  · -- the draw fell into the weak part
    cases h
    exact .weak weak.1 weak.2.1 (say.weak.mp (by omega))
  · -- indirect failures matter to this flow: a second draw, and perhaps a third
    obtain ⟨healthy, drawn, h⟩ := bind_eq_ok.mp h
    have healthy_range := randomInteger_ok say.healthy_nonneg drawn
    have capacity := (say.healthy.mp (by omega)).2
    split_ifs at h with short
    · obtain ⟨kind, drawn, h⟩ := bind_eq_ok.mp h
      have kind_range := randomInteger_ok (say.kind_nonneg.trans say.kind_le) drawn
      split_ifs at h with isPartial
      · cases h
        exact .indirectPartial indirect.1.1 indirect.1.2 short.1
          (say.indirectPartial.mp (by omega)).1
      · cases h
        exact .indirectFull indirect.1.1 indirect.1.2 short.1 (say.indirectFull.mp (by omega)).1
    · cases h
      refine .unrelated indirect.1.1 indirect.1.2 (present.mp indirect.2.1) fun isShort => ?_
      exact (say.unrelated.mp (by simp_all; omega)).1
  · -- if nothing leaves room for a miss, the first draw could not have missed the weak set
    cases h
    apply StartsOn.healthy
    by_contra cramped
    simp only [not_or, not_and, Nat.not_le, Bool.not_eq_true, Bool.not_eq_false] at cramped
    obtain ⟨noHealthy, sprays, short, narrow⟩ := cramped
    have beyond := (say.weak_lt_total_iff (by omega)).not.mpr (by simp_all)
    exact weak ⟨short, sprays, by omega⟩

/-- Every value below the modulus can be drawn. -/
theorem randomInteger_draws {k r : Int} (nonneg : 0 ≤ r) (below : r < k) :
    randomInteger k r.toNat = .ok r := by
  simp only [randomInteger]
  rw [if_neg (by omega), Int.toNat_of_nonneg nonneg, Int.emod_eq_of_lt nonneg below]

/-- The draws behind a packet, with nothing else of interest. -/
def drawing (total healthy kind : Int) (incoming : Int) : PacketEnv where
  now := 0
  databytes := 0
  incomingTrafficToDestLeaf := incoming
  randNumTotalBW := total.toNat
  randNumHealthyBW := healthy.toNat
  randNumDaIndirectFailureBW := kind.toNat
  randomNumber := 0
  randomUplink := 0

theorem startsOn_chosen {t : SpineSets} {bw : Bandwidths} {m : Nat}
    (capacity : 0 < cfg.healthyLinkCapacity)
    (sorted : Represents cfg.numUplinks (classOf cfg cfg.failedLinks) t)
    (known : bandwidths cfg t cfg.failureRatio = .ok bw) (possible : DrawPossible cfg)
    (starts : StartsOn cfg m) : ∃ e, chooseSvtMapping cfg t bw e = .ok m := by
  have say := bandwidths_say sorted known
  have present := numIndirect_pos_iff sorted
  have total := (say.total_pos_iff capacity).mpr possible
  have beyond := (say.weak_lt_total_iff total).mpr
  -- a draw of 0 hits the weak set if it has any bandwidth, a draw of all its bandwidth misses it
  have first : randomInteger bw.totalBW (Int.toNat 0) = .ok 0 := randomInteger_draws le_rfl total
  have missed : HealthySpine cfg ∨ (cfg.toFailedLeaf = true ∧ 3 ≤ cfg.numUplinks) →
      randomInteger bw.totalBW bw.partialFailurePathsBW.toNat = .ok bw.partialFailurePathsBW :=
    fun room => randomInteger_draws say.weak_nonneg (beyond room)
  simp only [chooseSvtMapping]
  cases starts with
  | weak short sprays bandwidth =>
    refine ⟨drawing 0 0 0 0, bind_eq_ok.mpr ⟨0, first, ?_⟩⟩
    rw [if_pos ⟨short, sprays, say.weak.mpr bandwidth⟩]
    rfl
  | indirectPartial sprays indirect short some =>
    have room : HealthySpine cfg := healthySpine_iff.mpr (.inr (.inl some))
    have partialBW := say.indirectPartial.mpr ⟨some, capacity⟩
    have indirectBW := partialBW.trans_le say.kind_le
    refine ⟨drawing bw.partialFailurePathsBW 0 0 1, bind_eq_ok.mpr ⟨_, missed (.inl room), ?_⟩⟩
    rw [if_neg (by simp), if_pos ⟨⟨sprays, indirect⟩, present.mpr (.inl some), by simp [drawing]⟩]
    refine bind_eq_ok.mpr ⟨0, randomInteger_draws le_rfl (say.healthy.mpr ⟨room, capacity⟩), ?_⟩
    rw [if_pos ⟨short, indirectBW⟩]
    refine bind_eq_ok.mpr ⟨0, randomInteger_draws le_rfl indirectBW, ?_⟩
    rw [if_pos partialBW]
    rfl
  | indirectFull sprays indirect short some =>
    have room : HealthySpine cfg := healthySpine_iff.mpr (.inr (.inr some))
    have fullBW := say.indirectFull.mpr ⟨some, capacity⟩
    have indirectBW := say.kind_nonneg.trans_lt fullBW
    refine ⟨drawing bw.partialFailurePathsBW 0
      (t.numIndirectPartialFailurePaths * (cfg.healthyLinkCapacity : Int)) 1,
      bind_eq_ok.mpr ⟨_, missed (.inl room), ?_⟩⟩
    rw [if_neg (by simp), if_pos ⟨⟨sprays, indirect⟩, present.mpr (.inr some), by simp [drawing]⟩]
    refine bind_eq_ok.mpr ⟨0, randomInteger_draws le_rfl (say.healthy.mpr ⟨room, capacity⟩), ?_⟩
    rw [if_pos ⟨short, indirectBW⟩]
    refine bind_eq_ok.mpr ⟨_, randomInteger_draws say.kind_nonneg fullBW, ?_⟩
    rw [if_neg (lt_irrefl _)]
    rfl
  | unrelated sprays indirect some room =>
    have healthy : HealthySpine cfg := healthySpine_iff.mpr (.inr some)
    have indirectBW := say.kind_nonneg.trans say.kind_le
    -- the draw has to miss the indirect sets only when they are open to the flow
    have drawn : ∃ r : Int, 0 ≤ r ∧ r < bw.healthyPathsBW ∧
        ¬(mayStartIndirect cfg = true ∧ r < bw.indirectFailurePathsBW) := by
      by_cases short : mayStartIndirect cfg = true
      · exact ⟨_, indirectBW, say.unrelated.mpr ⟨room short, capacity⟩, fun h => lt_irrefl _ h.2⟩
      · exact ⟨0, le_rfl, say.healthy.mpr ⟨healthy, capacity⟩, fun h => short h.1⟩
    obtain ⟨r, nonneg, below, escapes⟩ := drawn
    refine ⟨drawing bw.partialFailurePathsBW r 0 1,
      bind_eq_ok.mpr ⟨_, missed (.inl healthy), ?_⟩⟩
    rw [if_neg (by simp), if_pos ⟨⟨sprays, indirect⟩, present.mpr some, by simp [drawing]⟩]
    refine bind_eq_ok.mpr ⟨r, randomInteger_draws nonneg below, ?_⟩
    rw [if_neg escapes]
    rfl
  | healthy room =>
    have drawn : ∃ r : Int, 0 ≤ r ∧ r < bw.totalBW ∧
        ¬(mayStartWeak cfg = true ∧ cfg.healthyPathOnly = false ∧
          r < bw.partialFailurePathsBW) := by
      by_cases sprayed : mayStartWeak cfg = true ∧ cfg.healthyPathOnly = false
      · exact ⟨_, say.weak_nonneg, beyond (by simp_all), fun h => lt_irrefl _ h.2.2⟩
      · exact ⟨0, le_rfl, total, fun h => sprayed ⟨h.1, h.2.1⟩⟩
    obtain ⟨r, nonneg, below, escapes⟩ := drawn
    refine ⟨drawing r 0 0 0, bind_eq_ok.mpr ⟨r, randomInteger_draws nonneg below, ?_⟩⟩
    rw [if_neg escapes, if_neg (by simp [drawing])]
    rfl

end Saps.Spray
