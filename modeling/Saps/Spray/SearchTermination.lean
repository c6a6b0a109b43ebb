import Saps.Spray.SelectiveRuns

/-!
# When the uplink search ends

`nextValidLink` loops for ever on an empty set. The layouts and settings under
which no run of a flow ever meets an empty set are described on the configuration
(`SearchSafe`); for all others a run that does is built.
-/
namespace Saps.Spray

open DrivenRun (bind_eq_ok bind_eq_error)

variable {cfg : SprayConfig} {e : PacketEnv} {a b : SprayAgent}

/-- No spine of the fabric is in the set of the mapping. -/
def EmptySet (cfg : SprayConfig) (svtMapping : Nat) : Prop :=
  ∀ s < cfg.numUplinks, ¬(classOf cfg cfg.failedLinks s).inSet svtMapping

theorem HasClass.not_emptySet {k : SpineClass} {m : Nat} (present : HasClass cfg k)
    (inside : k.inSet m) : ¬EmptySet cfg m := by
  obtain ⟨s, hs, rfl⟩ := present
  exact fun empty => empty s hs inside

/-- A weak set is drawn only when it has a spine. -/
theorem StartsOn.not_emptySet {m : Nat} (starts : StartsOn cfg m)
    (weak : m = 1 ∨ m = 11 ∨ m = 12) : ¬EmptySet cfg m := by
  cases starts with
  | weak short sprays bandwidth => exact bandwidth.1.not_emptySet rfl
  | indirectPartial sprays indirect short present => exact present.not_emptySet rfl
  | indirectFull sprays indirect short present => exact present.not_emptySet rfl
  | unrelated sprays indirect present room => omega
  | healthy room => omega

/-! ### A hang is an empty set -/

theorem nextValidLink_endless_emptySet {k : Nat} (sorted : Sorted cfg k a) :
    nextValidLink cfg (remap cfg a) = .error .endlessSearch ↔
      EmptySet cfg (remap cfg a).svtMapping := by
  have remapped := sorted.remap
  obtain ⟨svt, named⟩ := mappedSet_of_maps remapped.maps
  simp only [nextValidLink_endless_iff, named, Option.some.injEq, exists_eq_left']
  apply forall₂_congr
  intro s _
  rw [← mappedSet_iff remapped.represents named s, not_not]

/-- The only endless loop of a call is the search of the mapped set. -/
theorem output_endless (hangs : output cfg e a = .error .endlessSearch) :
    ∃ p, prepare cfg e a = .ok p ∧ searchesSpineSet cfg e p = true ∧
      nextValidLink cfg (remap cfg p) = .error .endlessSearch := by
  rcases bind_eq_error.mp hangs with first | ⟨p, prepared, hangs⟩
  · exact absurd rfl ((prepare_ends e a).of_error first)
  rcases bind_eq_error.mp hangs with chosen | ⟨q, -, impossible⟩
  · exact ⟨p, prepared, chooseUplink_endless chosen⟩
  · cases impossible

theorem failureCase_of_searches (searches : searchesSpineSet cfg e a = true) :
    cfg.failureCase ≠ 0 := by
  intro none
  simp [searchesSpineSet, SprayConfig.failureDetected, none] at searches

/-! ### A flow that meets the failure with its second flowcell -/

/-- The failure is there from time 0 on and known to the senders at once. -/
def knownAtOnce : FailureTiming := ⟨0, 0, 0⟩

/-- The first flowcell is sent at time 0, everything later at time 1. The first packet takes
the count of bytes as far as an `int` goes. -/
def overThreshold (cfg : SprayConfig) (e : PacketEnv) (k : Nat) : PacketEnv :=
  { e with
    now := if k < cfg.flowcellSizePkts then 0 else 1
    databytes := if k = 0 then 2 ^ 31 - 1 else 0 }

theorem initScheme_selective (scheme : Selective cfg) (a : SprayAgent) :
    ∃ b, initScheme cfg a = .ok b := by
  have several := scheme.several
  -- with several failures the selective branches divide by nothing and read no list
  simp only [initScheme, initSelective]
  simp only [scheme.aware, scheme.robin, scheme.selective, several, if_true, reduceCtorEq, if_false]
  split_ifs <;> exact ⟨_, rfl⟩

/-- The first packet succeeds with every draw that succeeds. -/
theorem firstPacket_starts (scheme : Selective cfg) {bw : Bandwidths} {m : Nat}
    (known : bandwidths cfg (classify cfg cfg.failedLinks) cfg.failureRatio = .ok bw)
    (chosen : chooseSvtMapping cfg (classify cfg cfg.failedLinks) bw e = .ok m) :
    ∃ b, firstPacket cfg e (fresh cfg) = .ok b ∧ b.svtMapping = m := by
  let mapped : SprayAgent := { fresh cfg with
    linkID := cfg.numUplinks - 1, rfactor := 0
    sets := classify cfg cfg.failedLinks, svtMapping := m }
  have mapping : mapToSpineSet cfg e
      { fresh cfg with linkID := cfg.numUplinks - 1, rfactor := 0 } = .ok mapped := by
    simp only [mapToSpineSet]
    rw [if_pos scheme.several]
    exact bind_eq_ok.mpr ⟨bw, known, bind_eq_ok.mpr ⟨m, chosen, rfl⟩⟩
  obtain ⟨started, initialised⟩ := initScheme_selective scheme mapped
  refine ⟨_, bind_eq_ok.mpr ⟨mapped, mapping, bind_eq_ok.mpr ⟨started, initialised, rfl⟩⟩, ?_⟩
  exact ((initScheme_keepsFlow mapped).of_ok initialised).1.svtMapping

theorem chooseUplink_undetected (scheme : Selective cfg)
    (undetected : cfg.failureDetected e.now = false) (a : SprayAgent) :
    chooseUplink cfg e a = .ok (rotateFlowcell cfg a) := by
  simp [chooseUplink, scheme.aware, scheme.realistic, scheme.robin, undetected, pure, Except.pure]

theorem chooseUplink_searches (scheme : Selective cfg)
    (detected : cfg.failureDetected e.now = true) (starts : startsFlowcell cfg a = true) :
    chooseUplink cfg e a = nextValidLink cfg (remap cfg a) := by
  simp [chooseUplink, scheme.aware, scheme.realistic, scheme.robin, scheme.selective,
    scheme.several, detected, starts]

/-- The flow's own agent during the first flowcell. -/
structure FirstFlowcell (m k : Nat) (a : SprayAgent) : Prop where
  ndatapack : a.ndatapack = k
  ndatabytes : a.ndatabytes = if k = 0 then 0 else 2 ^ 31 - 1
  svtMapping : a.svtMapping = m

theorem reaches_secondFlowcell (scheme : Selective cfg) (timing : cfg.timing = knownAtOnce)
    {bw : Bandwidths} {m : Nat}
    (known : bandwidths cfg (classify cfg cfg.failedLinks) cfg.failureRatio = .ok bw)
    (chosen : chooseSvtMapping cfg (classify cfg cfg.failedLinks) bw e = .ok m) :
    ∃ a, agentAt cfg (overThreshold cfg e) cfg.flowcellSizePkts = .ok a ∧
      FirstFlowcell m cfg.flowcellSizePkts a := by
  obtain ⟨first, prepared, mapping⟩ := @firstPacket_starts cfg (overThreshold cfg e 0) scheme
    bw m known chosen
  have counts := (firstPacket_ends _ _).of_ok prepared
  -- until the failure is detected the uplinks rotate and the mapping stays as drawn
  let I : Nat → SprayAgent → Prop := fun k a =>
    (k = 0 ∧ a = fresh cfg) ∨ (0 < k ∧ FirstFlowcell m k a)
  have advances : ∀ k s, k < cfg.flowcellSizePkts → I k s →
      ∃ t o, output cfg (overThreshold cfg e k) s = .ok (t, o) ∧ I (k + 1) t := by
    intro k s early before
    have undetected : cfg.failureDetected (overThreshold cfg e k).now = false := by
      simp [SprayConfig.failureDetected, timing, knownAtOnce, overThreshold, early]
    obtain ⟨p, prepared, settled⟩ : ∃ p, prepare cfg (overThreshold cfg e k) s = .ok p ∧
        FirstFlowcell m k p := by
      rcases before with ⟨rfl, rfl⟩ | ⟨started, settled⟩
      · exact ⟨first, prepared, counts.1, counts.2.1, mapping⟩
      · exact ⟨s, prepare_later (by rwa [settled.ndatapack]), settled⟩
    have same : SameFlow p (rotateFlowcell cfg p) := (rotateFlowcell_keepsFlow p).1
    refine ⟨_, _, bind_eq_ok.mpr ⟨p, prepared, bind_eq_ok.mpr
      ⟨_, chooseUplink_undetected scheme undetected p, rfl⟩⟩, .inr ⟨Nat.succ_pos k, ?_⟩⟩
    refine ⟨?_, ?_, same.svtMapping.trans settled.svtMapping⟩
    · simp [same.ndatapack, settled.ndatapack]
    · -- the first packet moves the count, the others are empty
      rw [same.ndatabytes, settled.ndatabytes]
      simp only [overThreshold]
      split_ifs <;> first | rfl | contradiction
  have run : ∃ a, agentAt cfg (overThreshold cfg e) cfg.flowcellSizePkts = .ok a ∧
      I cfg.flowcellSizePkts a := DrivenRun.progress (.inl ⟨rfl, rfl⟩) advances le_rfl
  obtain ⟨a, reached, settled⟩ := run
  rcases settled with ⟨none, -⟩ | ⟨-, settled⟩
  · exact absurd none cfg.cell_pos.ne'
  · exact ⟨a, reached, settled⟩

/-- The remapping that the second flowcell finds. -/
theorem remap_overThreshold {m : Nat} (settled : FirstFlowcell m cfg.flowcellSizePkts a) :
    (MayLeaveWeak cfg → m = 1 →
      (remap cfg a).svtMapping = if cfg.daSprayOnly = 1 then 0 else 10) ∧
    (MayLeaveIndirect cfg → m = 11 ∨ m = 12 → (remap cfg a).svtMapping = 10) ∧
    (¬(m = 1 ∨ m = 11 ∨ m = 12) → (remap cfg a).svtMapping = m) := by
  have bytes := settled.ndatabytes
  rw [if_neg cfg.cell_pos.ne'] at bytes
  have mapping := settled.svtMapping
  simp only [remap, mapping, bytes, MayLeaveWeak, MayLeaveIndirect]
  refine ⟨?_, ?_, fun strong => by rw [if_neg (by tauto), mapping]⟩
  · rintro ⟨dynamic, short⟩ rfl
    rw [if_pos ⟨dynamic, .inl rfl⟩, if_pos ⟨rfl, short⟩]
    split <;> rfl
  · rintro ⟨dynamic, short⟩ indirect
    rw [if_pos ⟨dynamic, .inr indirect⟩, if_neg (by omega), if_pos ⟨indirect, short⟩]

/-- An empty set that some mapping leads to hangs a run of the flow. -/
theorem endless_of_emptySet (scheme : Selective cfg) (timing : cfg.timing = knownAtOnce)
    (ratio : 0 < cfg.failureRatio) (capacity : 0 < cfg.healthyLinkCapacity)
    (failure : cfg.failureCase ≠ 0) (possible : DrawPossible cfg) {m : Nat} (maps : Maps cfg m)
    (empty : EmptySet cfg m) :
    ∃ envs k a, agentAt cfg envs k = .ok a ∧
      output cfg (envs k) a = .error .endlessSearch := by
  have represents : Represents cfg.numUplinks (classOf cfg cfg.failedLinks)
      (classify cfg cfg.failedLinks) := classify_represents cfg cfg.inRange
  obtain ⟨bw, known⟩ : ∃ bw,
      bandwidths cfg (classify cfg cfg.failedLinks) cfg.failureRatio = .ok bw := by
    simp only [bandwidths]
    rw [if_neg ratio.ne']
    exact ⟨_, rfl⟩
  -- the first packet is given the mapping from which the second flowcell is remapped to `m`
  obtain ⟨m₀, starts, leads⟩ : ∃ m₀, StartsOn cfg m₀ ∧
      ∀ a, FirstFlowcell m₀ cfg.flowcellSizePkts a → (remap cfg a).svtMapping = m := by
    cases maps with
    | start starts =>
      have strong : ¬(m = 1 ∨ m = 11 ∨ m = 12) := fun weak => starts.not_emptySet weak empty
      exact ⟨m, starts, fun a settled => (remap_overThreshold settled).2.2 strong⟩
    | leaveWeak starts leaves =>
      exact ⟨1, starts, fun a settled => (remap_overThreshold settled).1 leaves rfl⟩
    | @leaveIndirect m₀ starts indirect leaves =>
      exact ⟨m₀, starts, fun a settled => (remap_overThreshold settled).2.1 leaves indirect⟩
  obtain ⟨e, chosen⟩ := startsOn_chosen capacity represents known possible starts
  obtain ⟨a, reached, settled⟩ := reaches_secondFlowcell scheme timing known chosen
  refine ⟨overThreshold cfg e, cfg.flowcellSizePkts, a, reached, ?_⟩
  have detected : cfg.failureDetected (overThreshold cfg e cfg.flowcellSizePkts).now = true := by
    simp [SprayConfig.failureDetected, timing, knownAtOnce, overThreshold, scheme.realistic,
      failure]
  have begun : startsFlowcell cfg a = true := by
    simp [startsFlowcell, settled.ndatapack]
  have prepared : prepare cfg (overThreshold cfg e cfg.flowcellSizePkts) a = .ok a :=
    prepare_later (by rw [settled.ndatapack]; exact cfg.cell_pos)
  have sorted := (agentAt_sortedBefore scheme.several reached).prepare scheme.several prepared
  have endless : nextValidLink cfg (remap cfg a) = .error .endlessSearch := by
    rw [nextValidLink_endless_emptySet sorted, leads a settled]
    exact empty
  refine bind_eq_error.mpr (.inr ⟨a, prepared, bind_eq_error.mpr (.inl ?_)⟩)
  rw [chooseUplink_searches scheme detected begun]
  exact endless

/-! ### The layouts and settings that never hang -/

/-- Some spine carries no full direct failure. -/
def UsableSpine (cfg : SprayConfig) : Prop :=
  ∃ s < cfg.numUplinks, ∀ f ∈ cfg.failedLinks, f.spine = s → cfg.direct f = true →
    f.failureRatio ≠ 100

/-- The condition on layout and settings under which no run ever meets an empty set. -/
def SearchSafe (cfg : SprayConfig) : Prop :=
  -- the failure is never detected, or the first packet already fails on its draw
  cfg.failureCase = 0 ∨ (cfg.toFailedLeaf = true ∧ cfg.numUplinks = 1) ∨
  -- some spine is named by no failure at all
  CleanSpine cfg ∨
  -- all are named, some only by failures elsewhere: nothing may lead to the unrelated set
  (HealthySpine cfg ∧
    (cfg.healthyPathOnly = true ∨ cfg.daSprayOnly = 1 ∨
      ((cfg.daSprayOnly = 0 → mayStartIndirect cfg = true ∧ ¬MayLeaveIndirect cfg) ∧
        (¬MayLeaveWeak cfg ∨ mayStartWeak cfg = false ∨ ¬WeakBandwidth cfg)))) ∨
  -- all have a direct failure: the flow must start on the weak set and stay there
  (¬HealthySpine cfg ∧
    (cfg.healthyLinkCapacity < cfg.failureRatio ∨
      (cfg.healthyPathOnly = false ∧ ¬MayLeaveWeak cfg ∧ mayStartWeak cfg = true ∧
        ¬(cfg.toFailedLeaf = true ∧ 3 ≤ cfg.numUplinks))))

theorem emptySet_healthy : EmptySet cfg 0 ↔ ¬HealthySpine cfg := by
  simp only [EmptySet, healthySpine_iff, HasClass, ← exists_or, ← and_or_left, not_exists, not_and]
  apply forall₂_congr
  intro s _
  apply not_congr
  cases classOf cfg cfg.failedLinks s <;> simp [SpineClass.inSet, SpineClass.isDirect]

theorem emptySet_unrelated : EmptySet cfg 10 ↔ ¬CleanSpine cfg := by
  simp only [EmptySet, cleanSpine_iff, HasClass, not_exists, not_and]
  rfl

theorem usableSpine_iff : UsableSpine cfg ↔ HealthySpine cfg ∨ HasClass cfg .directPartial := by
  have usable : ∀ s, (∀ f ∈ cfg.failedLinks, f.spine = s → cfg.direct f = true →
      f.failureRatio ≠ 100) ↔ classOf cfg cfg.failedLinks s ≠ .directFull := by
    intro s
    rw [Ne, classOf_eq_directFull_iff]
    simp
  simp only [UsableSpine, usable, healthySpine_iff, HasClass, ← exists_or, ← and_or_left]
  refine exists_congr fun s => and_congr_right fun _ => ?_
  cases classOf cfg cfg.failedLinks s <;> simp

theorem startsOn_weak_iff :
    StartsOn cfg 1 ↔
      mayStartWeak cfg = true ∧ cfg.healthyPathOnly = false ∧ WeakBandwidth cfg :=
  ⟨fun | .weak short sprays bandwidth => ⟨short, sprays, bandwidth⟩,
    fun ⟨short, sprays, bandwidth⟩ => .weak short sprays bandwidth⟩

theorem startsOn_indirect_iff :
    StartsOn cfg 11 ∨ StartsOn cfg 12 ↔
      cfg.healthyPathOnly = false ∧ cfg.daSprayOnly = 0 ∧ mayStartIndirect cfg = true ∧
        (HasClass cfg .indirectPartial ∨ HasClass cfg .indirectFull) := by
  constructor
  · rintro (starts | starts)
    · cases starts with
      | indirectPartial sprays indirect short present =>
        exact ⟨sprays, indirect, short, .inl present⟩
    · cases starts with
      | indirectFull sprays indirect short present =>
        exact ⟨sprays, indirect, short, .inr present⟩
  · rintro ⟨sprays, indirect, short, present | present⟩
    · exact .inl (.indirectPartial sprays indirect short present)
    · exact .inr (.indirectFull sprays indirect short present)

theorem startsOn_unrelated_iff :
    StartsOn cfg 10 ↔
      cfg.healthyPathOnly = false ∧ cfg.daSprayOnly = 0 ∧
        (HasClass cfg .indirectPartial ∨ HasClass cfg .indirectFull) ∧
        (mayStartIndirect cfg = true → CleanSpine cfg) :=
  ⟨fun | .unrelated sprays indirect present room => ⟨sprays, indirect, present, room⟩,
    fun ⟨sprays, indirect, present, room⟩ => .unrelated sprays indirect present room⟩

theorem startsOn_healthy_iff :
    StartsOn cfg 0 ↔
      HealthySpine cfg ∨ cfg.healthyPathOnly = true ∨ mayStartWeak cfg = false ∨
        (cfg.toFailedLeaf = true ∧ 3 ≤ cfg.numUplinks) :=
  ⟨fun | .healthy room => room, .healthy⟩

/-- The empty sets a flow can come to, and how it comes to them. -/
theorem maps_emptySet_iff :
    (∃ m, Maps cfg m ∧ EmptySet cfg m) ↔
      (¬HealthySpine cfg ∧ (StartsOn cfg 0 ∨
        (StartsOn cfg 1 ∧ MayLeaveWeak cfg ∧ cfg.daSprayOnly = 1))) ∨
      (¬CleanSpine cfg ∧ (StartsOn cfg 10 ∨
        (StartsOn cfg 1 ∧ MayLeaveWeak cfg ∧ cfg.daSprayOnly ≠ 1) ∨
        ((StartsOn cfg 11 ∨ StartsOn cfg 12) ∧ MayLeaveIndirect cfg))) := by
  rw [← emptySet_healthy, ← emptySet_unrelated]
  constructor
  · rintro ⟨m, starts | ⟨starts, leaves⟩ | ⟨starts, rfl | rfl, leaves⟩, empty⟩
    -- a weak set is drawn only when it has a spine, so none of them is empty
    · have strong := fun weak => starts.not_emptySet weak empty
      cases starts with
      | weak => exact absurd (.inl rfl) strong
      | indirectPartial => exact absurd (.inr (.inl rfl)) strong
      | indirectFull => exact absurd (.inr (.inr rfl)) strong
      | unrelated sprays indirect present room =>
        exact .inr ⟨empty, .inl (.unrelated sprays indirect present room)⟩
      | healthy room => exact .inl ⟨empty, .inl (.healthy room)⟩
    · split at empty
      next unrelated => exact .inl ⟨empty, .inr ⟨starts, leaves, unrelated⟩⟩
      next related => exact .inr ⟨empty, .inr (.inl ⟨starts, leaves, related⟩)⟩
    · exact .inr ⟨empty, .inr (.inr ⟨.inl starts, leaves⟩)⟩
    · exact .inr ⟨empty, .inr (.inr ⟨.inr starts, leaves⟩)⟩
  · rintro (⟨empty, starts | ⟨starts, leaves, unrelated⟩⟩ |
      ⟨empty, starts | ⟨starts, leaves, related⟩ | ⟨starts | starts, leaves⟩⟩)
    · exact ⟨0, .start starts, empty⟩
    · have maps := Maps.leaveWeak starts leaves
      rw [if_pos unrelated] at maps
      exact ⟨0, maps, empty⟩
    · exact ⟨10, .start starts, empty⟩
    · have maps := Maps.leaveWeak starts leaves
      rw [if_neg related] at maps
      exact ⟨10, maps, empty⟩
    · exact ⟨10, .leaveIndirect starts (.inl rfl) leaves, empty⟩
    · exact ⟨10, .leaveIndirect starts (.inr rfl) leaves, empty⟩

theorem searchSafe_iff (usable : UsableSpine cfg) :
    SearchSafe cfg ↔
      ¬(cfg.failureCase ≠ 0 ∧ DrawPossible cfg ∧ ∃ m, Maps cfg m ∧ EmptySet cfg m) := by
  have uplinks := cfg.uplinks_pos
  have fromIndirect : CleanSpine cfg ∨
      (HasClass cfg .indirectPartial ∨ HasClass cfg .indirectFull) ↔ HealthySpine cfg := by
    rw [healthySpine_iff, cleanSpine_iff]
  rw [usableSpine_iff] at usable
  rw [maps_emptySet_iff, startsOn_weak_iff, startsOn_indirect_iff, startsOn_unrelated_iff,
    startsOn_healthy_iff, SearchSafe, DrawPossible, WeakBandwidth]
  generalize (HasClass cfg .indirectPartial ∨ HasClass cfg .indirectFull) = indirect at *
  -- the three kinds of layout that `SearchSafe` tells apart; the rest is propositional
  by_cases clean : CleanSpine cfg
  · have healthy := fromIndirect.mp (.inl clean)
    simp [clean, healthy]
  by_cases healthy : HealthySpine cfg
  · have present : indirect := (fromIndirect.mpr healthy).resolve_left clean
    simp only [clean, healthy, present]
    grind
  · have weak := usable.resolve_left healthy
    simp only [clean, healthy, weak]
    grind

/-- On a layout with a usable spine, every search that a packet starts has a spine to
find, in every run and for every time of the failure, exactly when `SearchSafe` holds. The
bandwidths are in the range of an `int`, and then so is every sum that the draw is made over. -/
theorem uplinkSearch_ends_iff (cfg : SprayConfig) (scheme : Selective cfg)
    (ratio : 0 < cfg.failureRatio) (capacity : 0 < cfg.healthyLinkCapacity)
    (fits : BandwidthsFit cfg) (usable : UsableSpine cfg) :
    ((∀ timing envs k a p, agentAt (cfg.withTiming timing) envs k = .ok a →
      prepare (cfg.withTiming timing) (envs k) a = .ok p →
      searchesSpineSet (cfg.withTiming timing) (envs k) p = true →
      (∃ svt, mappedSet (remap cfg p) = some svt ∧ ∃ s < cfg.numUplinks, svt s ≠ -1) ∧
        ∃ q, nextValidLink cfg (remap cfg p) = .ok q) ↔
      SearchSafe cfg) ∧
    ∀ bw, bandwidths cfg (classify cfg cfg.failedLinks) cfg.failureRatio = .ok bw →
      BandwidthInts cfg (classify cfg cfg.failedLinks) bw := by
  have scheme' : ∀ timing, Selective (cfg.withTiming timing) := fun _ =>
    ⟨scheme.several, scheme.aware, scheme.realistic, scheme.robin, scheme.selective⟩
  -- neither the condition nor the layout depends on the times of the failure
  have usable' : ∀ timing, UsableSpine (cfg.withTiming timing) := fun _ => usable
  have same : ∀ timing, SearchSafe (cfg.withTiming timing) ↔ SearchSafe cfg := fun _ => Iff.rfl
  refine ⟨?_, fun bw known => bandwidths_fit fits (classify_represents cfg cfg.inRange) known⟩
  constructor
  · -- an empty set that can be reached is reached when the failure is known at once
    intro ends
    rw [← same knownAtOnce, searchSafe_iff (usable' _)]
    rintro ⟨failure, possible, m, maps, empty⟩
    obtain ⟨envs, k, a, reached, hangs⟩ :=
      endless_of_emptySet (scheme' _) rfl ratio capacity failure possible maps empty
    obtain ⟨p, prepared, searches, endless⟩ := output_endless hangs
    obtain ⟨-, q, found⟩ := ends _ envs k a p reached prepared searches
    have endless : nextValidLink cfg (remap cfg p) = .error .endlessSearch := endless
    rw [found] at endless
    cases endless
  · intro safe timing envs k a p reached prepared searches
    rw [← same timing, searchSafe_iff (usable' _)] at safe
    have sorted := (agentAt_sortedBefore (scheme' timing).several reached).prepare
      (scheme' timing).several prepared
    have filled : ¬EmptySet (cfg.withTiming timing) (remap cfg p).svtMapping := fun empty =>
      safe ⟨failureCase_of_searches searches, sorted.possible, _, sorted.remap.maps, empty⟩
    obtain ⟨svt, named⟩ := mappedSet_of_maps sorted.remap.maps
    have spine : ∃ s < cfg.numUplinks, svt s ≠ -1 := by
      by_contra none
      simp only [not_exists, not_and, not_not] at none
      exact filled ((nextValidLink_endless_emptySet sorted).mp
        (nextValidLink_endless_iff.mpr ⟨svt, named, none⟩))
    exact ⟨⟨svt, named, spine⟩, nextValidLink_returns named spine⟩

/-- Both spines of a small fabric have a degraded link to the leaves of the flow's pair. -/
def everySpineDegraded : SprayConfig where
  numUplinks := 2
  failedLinks := [⟨0, 0, 10⟩, ⟨3, 1, 10⟩]
  uplinks_pos := Nat.two_pos
  inRange := by decide
  flowcellSizePkts := 1
  cell_pos := Nat.zero_lt_one
  failureAware := true
  realisticFailure := true
  roundRobin := true
  selectiveSpraying := true
  healthyPathOnly := false
  daSprayOnly := 0
  daFlow := false
  poorPathFlow := false
  failureCase := 1
  failureRatio := 10
  fromFailedLeaf := true
  toFailedLeaf := true
  srcLeaf := 0
  destLeaf := 3
  dynamicMapping := 1
  dynamicMappingThreshold := 100000
  dynamicMappingThresholdGL2GL := 100000
  healthyLinkCapacity := 40
  flowsizeBytes := 1000000
  timing := knownAtOnce

theorem everySpineDegraded_selective : Selective everySpineDegraded :=
  ⟨by decide, rfl, rfl, rfl, rfl⟩

theorem everySpineDegraded_usable : UsableSpine everySpineDegraded :=
  ⟨0, by decide, by decide⟩

/-- The second packet is searched for on the empty unrelated set. -/
theorem everySpineDegraded_hangs :
    Selective everySpineDegraded ∧ UsableSpine everySpineDegraded ∧
      ∃ envs k a, agentAt everySpineDegraded envs k = .ok a ∧
        output everySpineDegraded (envs k) a = .error .endlessSearch := by
  have degraded : HasClass everySpineDegraded .directPartial := ⟨0, by decide, by decide⟩
  have weak : StartsOn everySpineDegraded 1 := .weak (by decide) rfl ⟨degraded, by decide⟩
  have empty : EmptySet everySpineDegraded 10 := by
    rw [emptySet_unrelated]
    simp only [CleanSpine]
    decide
  exact ⟨everySpineDegraded_selective, everySpineDegraded_usable,
    endless_of_emptySet everySpineDegraded_selective rfl (by decide) (by decide) (by decide)
      ⟨.inr ⟨degraded, by decide⟩, fun _ => le_rfl⟩ (Maps.leaveWeak weak (by decide)) empty⟩

/-- No count of bytes is past the largest `int`, and the flow stays on its weak set. -/
example : SearchSafe { everySpineDegraded with dynamicMappingThreshold := 2 ^ 31 - 1 } := by
  have weak : ¬HealthySpine { everySpineDegraded with dynamicMappingThreshold := 2 ^ 31 - 1 } := by
    simp only [HealthySpine]
    decide
  exact .inr (.inr (.inr (.inr ⟨weak, .inr ⟨rfl, by decide, by decide, by decide⟩⟩)))

/-- The same failures on a fabric with one more spine. -/
def spareSpine : SprayConfig :=
  { everySpineDegraded with
    numUplinks := 3
    uplinks_pos := threeUplinks_pos
    inRange := by decide }

theorem spareSpine_ends :
    SearchSafe spareSpine ∧
      ∀ timing envs k a p, agentAt (spareSpine.withTiming timing) envs k = .ok a →
        prepare (spareSpine.withTiming timing) (envs k) a = .ok p →
        searchesSpineSet (spareSpine.withTiming timing) (envs k) p = true →
        (∃ svt, mappedSet (remap spareSpine p) = some svt ∧
          ∃ s < spareSpine.numUplinks, svt s ≠ -1) ∧
          ∃ q, nextValidLink spareSpine (remap spareSpine p) = .ok q := by
  have safe : SearchSafe spareSpine := .inr (.inr (.inl ⟨2, by decide, by decide⟩))
  exact ⟨safe, (uplinkSearch_ends_iff spareSpine ⟨by decide, rfl, rfl, rfl, rfl⟩ (by decide)
    (by decide) ⟨by decide, by decide⟩ ⟨0, by decide, by decide⟩).1.mpr safe⟩

end Saps.Spray
