import Saps.Spray.SelectiveRuns

/-!
# Where a packet can fail

What has to hold of the flow and of its agent when a packet ends in a fault. Each
branch is read once, for any set of faults: a fault belongs to the set if every
place of the branch that can raise it does so under conditions that put it there.
-/
namespace Saps.Spray

open DrivenRun (bind_eq_ok)
open Outcome (Ends)

variable {cfg : SprayConfig} {e : PacketEnv} {a : SprayAgent} {allowed : Fault → Prop}

/-- No more than the faults is asked of the computation. -/
abbrev Fails {α : Type} (allowed : Fault → Prop) : Except Fault α → Prop :=
  Ends allowed fun _ => True

theorem randomInteger_fails {k : Int} {value : Nat} (zero : k = 0 → allowed .divisionByZero) :
    Fails allowed (randomInteger k value) := by
  simp only [randomInteger]
  split
  next nothing => exact zero nothing
  · trivial

theorem firstFailure_fails (unread : cfg.failedLinks = [] → allowed .noFailureRecord) :
    Fails allowed (firstFailure cfg) := by
  simp only [firstFailure]
  split
  next none => exact unread none
  · trivial

theorem onFlowCellMod_fails (zero : a.flowCellMod = 0 → allowed .divisionByZero) :
    Fails allowed (onFlowCellMod a) := by
  simp only [onFlowCellMod]
  split
  next nothing => exact zero nothing
  · trivial

/-! ### The first packet -/

/-- Nothing listed or bound is zero, and some spine is free of direct failures. -/
structure SoundParameters (cfg : SprayConfig) : Prop where
  uplinks : 2 ≤ cfg.numUplinks
  capacity : 1 ≤ cfg.healthyLinkCapacity
  ratio : 1 ≤ cfg.failureRatio
  ratios : ∀ f ∈ cfg.failedLinks, 1 ≤ f.failureRatio
  healthy : HealthySpine cfg

/-- The selective flows that are placed by the first listed failure. -/
def PlacedByFailure (cfg : SprayConfig) : Prop :=
  cfg.failureAware = true ∧ cfg.roundRobin = true ∧ cfg.selectiveSpraying = true

/-- What a fault of the first packet tells of the flow. -/
def FirstFault (cfg : SprayConfig) : Fault → Prop
  | .divisionByZero => ¬SoundParameters cfg
  | .noFailureRecord => cfg.failedLinks = [] ∧ PlacedByFailure cfg
  | .endlessSearch => False

theorem bandwidths_fails (t : SpineSets) :
    Fails (FirstFault cfg) (bandwidths cfg t cfg.failureRatio) := by
  simp only [bandwidths]
  split
  next zero =>
    intro sound
    have ratio := sound.ratio
    omega
  · trivial

/-- What the draws of the first packet rely on. -/
structure SoundDraws (cfg : SprayConfig) : Prop where
  uplinks : cfg.toFailedLeaf = true → 2 ≤ cfg.numUplinks
  capacity : 1 ≤ cfg.healthyLinkCapacity
  healthy : HealthySpine cfg

theorem chooseSvtMapping_divides {t : SpineSets} {bw : Bandwidths}
    (sorted : Represents cfg.numUplinks (classOf cfg cfg.failedLinks) t)
    (known : bandwidths cfg t cfg.failureRatio = .ok bw) :
    Fails (fun fault => fault = .divisionByZero ∧ ¬SoundDraws cfg)
      (chooseSvtMapping cfg t bw e) := by
  have say := bandwidths_say sorted known
  have total (zero : bw.totalBW = 0) : ¬SoundDraws cfg := by
    intro sound
    have positive :=
      (say.total_pos_iff sound.capacity).mpr ⟨.inl sound.healthy, sound.uplinks⟩
    omega
  have healthy (zero : bw.healthyPathsBW = 0) : ¬SoundDraws cfg := by
    intro sound
    have positive := say.healthy.mpr ⟨sound.healthy, sound.capacity⟩
    omega
  -- the last draw is made only when some indirect set is not empty
  have indirect (some : 0 < t.numIndirectFullFailurePaths + t.numIndirectPartialFailurePaths)
      (zero : bw.indirectFailurePathsBW = 0) : ¬SoundDraws cfg := by
    intro sound
    have low := say.kind_nonneg
    have high := say.kind_le
    rcases (numIndirect_pos_iff sorted).mp some with present | present
    · have positive := say.indirectPartial.mpr ⟨present, sound.capacity⟩
      omega
    · have positive := say.indirectFull.mpr ⟨present, sound.capacity⟩
      omega
  simp only [chooseSvtMapping]
  apply (randomInteger_fails fun zero => ⟨rfl, total zero⟩).bind
  intro randNumTotalBW _
  split_ifs with weak some
  · trivial
  · apply (randomInteger_fails fun zero => ⟨rfl, healthy zero⟩).bind
    intro randNumHealthyBW _
    split_ifs
    · apply (randomInteger_fails fun zero => ⟨rfl, indirect some.2.1 zero⟩).bind
      intro randNumDaIndirectFailureBW _
      split_ifs <;> trivial
    · trivial
  · trivial

theorem chooseSvtMapping_fails {t : SpineSets} {bw : Bandwidths}
    (sorted : Represents cfg.numUplinks (classOf cfg cfg.failedLinks) t)
    (known : bandwidths cfg t cfg.failureRatio = .ok bw) :
    Fails (FirstFault cfg) (chooseSvtMapping cfg t bw e) := by
  apply (chooseSvtMapping_divides sorted known).allow
  rintro fault ⟨rfl, unsound⟩
  exact fun sound => unsound ⟨fun _ => sound.uplinks, sound.capacity, sound.healthy⟩

/-- With sound draws some mapping is chosen. -/
theorem chooseSvtMapping_returns {t : SpineSets} {bw : Bandwidths} (sound : SoundDraws cfg)
    (sorted : Represents cfg.numUplinks (classOf cfg cfg.failedLinks) t)
    (known : bandwidths cfg t cfg.failureRatio = .ok bw) (e : PacketEnv) :
    ∃ m, chooseSvtMapping cfg t bw e = .ok m := by
  cases chosen : chooseSvtMapping cfg t bw e with
  | ok m => exact ⟨m, rfl⟩
  | error fault =>
    exact absurd sound ((chooseSvtMapping_divides sorted known).of_error chosen).2

/-- The agent once the spine set is drawn, before the scheme sets its initial values. -/
def drawnAgent (cfg : SprayConfig) (svtMapping : Nat) : SprayAgent :=
  { fresh cfg with
    linkID := cfg.numUplinks - 1
    rfactor := 0
    sets := classify cfg cfg.failedLinks
    svtMapping }

/-- With sound draws the first packet comes to the initial values of the scheme. -/
theorem firstPacket_drawn (several : 1 < cfg.numFailures) (ratio : 1 ≤ cfg.failureRatio)
    (sound : SoundDraws cfg) (e : PacketEnv) :
    ∃ bw m, bandwidths cfg (classify cfg cfg.failedLinks) cfg.failureRatio = .ok bw ∧
      chooseSvtMapping cfg (classify cfg cfg.failedLinks) bw e = .ok m ∧
      ∀ b, initScheme cfg (drawnAgent cfg m) = .ok b →
        firstPacket cfg e (fresh cfg) =
          .ok { b with flowCellMod := cfg.flowcellSizePkts * b.rfactor } := by
  obtain ⟨bw, known⟩ :
      ∃ bw, bandwidths cfg (classify cfg cfg.failedLinks) cfg.failureRatio = .ok bw :=
    ⟨_, if_neg (by omega)⟩
  obtain ⟨m, chosen⟩ :=
    chooseSvtMapping_returns sound (classify_represents cfg cfg.inRange) known e
  refine ⟨bw, m, known, chosen, fun b scheme => ?_⟩
  have mapping : mapToSpineSet cfg e { fresh cfg with linkID := cfg.numUplinks - 1, rfactor := 0 } =
      .ok (drawnAgent cfg m) := by
    simp only [mapToSpineSet]
    rw [if_pos several]
    exact bind_eq_ok.mpr ⟨bw, known, bind_eq_ok.mpr ⟨m, chosen, rfl⟩⟩
  exact bind_eq_ok.mpr ⟨_, mapping, bind_eq_ok.mpr ⟨b, scheme, rfl⟩⟩

/-- The draw of the spine set leaves the uplink where the first packet put it. -/
theorem mapToSpineSet_fails :
    Ends (FirstFault cfg) (fun b => b.linkID = cfg.numUplinks - 1)
      (mapToSpineSet cfg e { fresh cfg with linkID := cfg.numUplinks - 1, rfactor := 0 }) := by
  simp only [mapToSpineSet]
  split_ifs
  · apply (bandwidths_fails (classify cfg cfg.failedLinks)).bind_known
    intro bw known
    have sorted := classify_represents cfg cfg.inRange
    exact (chooseSvtMapping_fails sorted known).bind fun _ _ => Eq.refl (cfg.numUplinks - 1)
  · exact rfl
  · exact rfl

theorem uplinkFailureRatio_pos
    (ratios : ∀ f ∈ cfg.failedLinks, cfg.direct f = true → 1 ≤ f.failureRatio) (i : Nat) :
    0 < uplinkFailureRatio cfg i := by
  simp only [uplinkFailureRatio]
  split
  next f found =>
    have direct := List.find?_some found
    simp only [Bool.and_eq_true] at direct
    exact ratios f (List.mem_of_find?_eq_some found) direct.2
  · exact Nat.zero_lt_one

theorem directWeight_fails {i : Nat}
    (zero : uplinkFailureRatio cfg i = 0 → allowed .divisionByZero) :
    Fails allowed (directWeight cfg i) := by
  simp only [directWeight]
  split_ifs with isFull isZero
  · trivial
  · exact zero isZero
  · trivial

theorem assignWeights_fails {weight : Nat → Except Fault Nat}
    (fails : ∀ i, Fails allowed (weight i)) (a : SprayAgent) :
    Ends allowed (fun b => b.linkID = a.linkID) (assignWeights cfg weight a) := by
  simp only [assignWeights]
  refine Ends.foldlM ?_ fun c i same => ?_
  · rfl
  · exact (fails i).bind fun w _ => same

theorem initSelective_fails (unread : cfg.failedLinks = [] → allowed .noFailureRecord)
    (a : SprayAgent) : Fails allowed (initSelective cfg a) := by
  simp only [initSelective]
  split_ifs
  · trivial
  · exact (firstFailure_fails unread).bind fun _ _ => trivial
  · trivial
  · exact (firstFailure_fails unread).bind fun _ _ => trivial

/-- Only the placed flows start on another uplink than the last one. -/
theorem initScheme_fails
    (unread : PlacedByFailure cfg → cfg.failedLinks = [] → allowed .noFailureRecord)
    (zero : ∀ i, uplinkFailureRatio cfg i = 0 → allowed .divisionByZero) (a : SprayAgent) :
    Ends allowed (fun b => ¬PlacedByFailure cfg → b.linkID = a.linkID) (initScheme cfg a) := by
  have ofPlaced {x : Except Fault SprayAgent} (placed : PlacedByFailure cfg)
      (fails : Fails allowed x) :
      Ends allowed (fun b => ¬PlacedByFailure cfg → b.linkID = a.linkID) x :=
    fails.mono fun _ _ other => absurd placed other
  have weights {weight : Nat → Except Fault Nat} (fails : ∀ i, Fails allowed (weight i)) :
      Ends allowed (fun b => ¬PlacedByFailure cfg → b.linkID = a.linkID)
        (assignWeights cfg weight a) :=
    (assignWeights_fails fails a).mono fun _ same _ => same
  simp only [initScheme]
  -- only two of the schemes place the flow by the failure record
  split_ifs with aware leaf robin selective daFlow several robin selective
  · exact fun _ => rfl
  · have placed : PlacedByFailure cfg := ⟨aware, robin, selective⟩
    exact ofPlaced placed (initSelective_fails (unread placed) a)
  · exact fun _ => rfl
  · exact fun _ => rfl
  · exact weights fun i => directWeight_fails (zero i)
  · exact weights fun _ => trivial
  · have placed : PlacedByFailure cfg := ⟨aware, by simpa using robin, selective⟩
    exact ofPlaced placed (initSelective_fails (unread placed) a)
  · exact fun _ => rfl
  · exact fun _ => rfl

/-- A fault of the first packet, and where it puts a flow that no failure places. -/
theorem firstPacket_fails (cfg : SprayConfig) (e : PacketEnv) :
    Ends (FirstFault cfg)
      (fun b => ¬PlacedByFailure cfg → b.linkID = cfg.numUplinks - 1)
      (firstPacket cfg e (fresh cfg)) := by
  simp only [firstPacket]
  apply mapToSpineSet_fails.bind
  intro mapped link
  have scheme : Ends (FirstFault cfg) (fun b => ¬PlacedByFailure cfg → b.linkID = mapped.linkID)
      (initScheme cfg mapped) := by
    apply initScheme_fails
    · exact fun placed none => ⟨none, placed⟩
    · intro i zero sound
      exact (uplinkFailureRatio_pos (fun f listed _ => sound.ratios f listed) i).ne' zero
  apply scheme.bind
  intro started kept
  exact fun other => (kept other).trans link

/-! ### The choice of an uplink -/

/-- The packet takes a branch that reads the first listed failure. -/
def ReadsRecord (cfg : SprayConfig) (e : PacketEnv) (a : SprayAgent) : Prop :=
  cfg.failureAware = true ∧ cfg.roundRobin = true ∧
    (cfg.selectiveSpraying = true ∨ cfg.realisticFailure = false ∨
      ((cfg.failureCase = 1 ∨ cfg.failureCase = 2) ∧ cfg.failureDetected e.now = true ∧
        startsFlowcell cfg a = true))

/-- The packet takes a branch whose divisor is zero. -/
def DividesByZero (cfg : SprayConfig) (a : SprayAgent) : Prop :=
  cfg.failureAware = true ∧
    ((cfg.roundRobin = false ∧ a.totalUplinkWeights = 0) ∨
      (cfg.roundRobin = true ∧ a.flowCellMod = 0 ∧
        (cfg.selectiveSpraying = false ∨
          (cfg.realisticFailure = false ∧ cfg.fromFailedLeaf = false ∧ cfg.toFailedLeaf = false))))

theorem skipFailedSpine_fails (unread : cfg.failedLinks = [] → allowed .noFailureRecord)
    (skip : Bool) (a : SprayAgent) : Fails allowed (skipFailedSpine cfg skip a) :=
  (firstFailure_fails unread).bind fun _ _ => trivial

theorem selectivePartial_fails (unread : cfg.failedLinks = [] → allowed .noFailureRecord) :
    Fails allowed (selectivePartial cfg a) := by
  simp only [selectivePartial, poorPathPartial]
  split_ifs
  · trivial
  · trivial
  · exact (firstFailure_fails unread).bind fun _ _ => trivial
  · trivial
  · exact (firstFailure_fails unread).bind fun _ _ => trivial
  · trivial
  · exact skipFailedSpine_fails unread _ a
  · trivial

theorem selectiveFull_fails (unread : cfg.failedLinks = [] → allowed .noFailureRecord) :
    Fails allowed (selectiveFull cfg a) := by
  simp only [selectiveFull, poorPathFull]
  split
  · apply (firstFailure_fails unread).bind
    intro f _
    split <;> trivial
  · split
    · exact skipFailedSpine_fails unread _ a
    · trivial

theorem weakSpinesTurn_fails (zero : a.flowCellMod = 0 → allowed .divisionByZero) :
    Fails allowed (weakSpinesTurn a) :=
  (onFlowCellMod_fails zero).bind fun _ _ => trivial

/-- The search moves the uplink only, so every round of it has the same divisor. -/
theorem weightedSearch_fails (zero : a.flowCellMod = 0 → allowed .divisionByZero)
    (rounds : Nat) : Fails allowed (weightedSearch cfg rounds a) := by
  induction rounds generalizing a with
  | zero => trivial
  | succ rounds ih =>
    have onward : Fails allowed (weightedSearch cfg rounds (nextLink cfg a)) := ih zero
    simp only [weightedSearch]
    -- at a spine in use the search asks whose turn it is, which divides by `flowCellMod`
    split_ifs
    · exact onward
    · apply (weakSpinesTurn_fails zero).bind
      intro due _
      split
      · trivial
      · exact onward
    · apply (weakSpinesTurn_fails zero).bind
      intro due _
      split
      · exact onward
      · trivial

theorem weightedPartial_fails
    (unread : startsFlowcell cfg a = true → cfg.failedLinks = [] → allowed .noFailureRecord)
    (zero : a.flowCellMod = 0 → allowed .divisionByZero) :
    Fails allowed (weightedPartial cfg a) := by
  have kept : (nextLink cfg a).flowCellMod = 0 → allowed .divisionByZero := zero
  simp only [weightedPartial, weightedMultiple, weightedSingle]
  split_ifs with starts
  · exact weightedSearch_fails kept _
  · trivial
  · apply (firstFailure_fails (unread starts)).bind
    intro f _
    split
    · apply (onFlowCellMod_fails kept).bind
      intro due _
      split <;> trivial
    · trivial
  · trivial

theorem weightedFull_fails
    (unread : startsFlowcell cfg a = true → cfg.failedLinks = [] → allowed .noFailureRecord) :
    Fails allowed (weightedFull cfg a) := by
  simp only [weightedFull]
  split
  next starts => exact skipFailedSpine_fails (unread starts) _ a
  · trivial

theorem probabilistic_fails (zero : a.totalUplinkWeights = 0 → allowed .divisionByZero) :
    Fails allowed (probabilistic cfg e a) := by
  have uplinks := cfg.uplinks_pos
  simp only [probabilistic, drawUplink]
  split
  · apply (randomInteger_fails fun none => zero (by omega)).bind
    intro r _
    split
    · trivial
    · exact (randomInteger_fails fun none => by omega).bind fun _ _ => trivial
  · trivial

theorem staticRoundRobin_fails (unread : cfg.failedLinks = [] → allowed .noFailureRecord)
    (zero : a.flowCellMod = 0 → (cfg.selectiveSpraying = false ∨
      (cfg.fromFailedLeaf = false ∧ cfg.toFailedLeaf = false)) → allowed .divisionByZero) :
    Fails allowed (staticRoundRobin cfg a) := by
  simp only [staticRoundRobin]
  split
  · trivial
  next sprayed =>
    split
    · apply (firstFailure_fails unread).bind
      intro f _
      split
      · split
        · trivial
        next turns =>
          -- a selective flow that divides is neither from nor to the failed leaf
          have plain : cfg.selectiveSpraying = false ∨
              (cfg.fromFailedLeaf = false ∧ cfg.toFailedLeaf = false) := by
            have poorPath : (nextLink cfg a).poorPathFlow = a.poorPathFlow := rfl
            rw [poorPath] at turns
            revert sprayed turns
            cases cfg.selectiveSpraying <;> cases a.poorPathFlow <;> cases cfg.fromFailedLeaf <;>
              cases cfg.toFailedLeaf <;> simp
          apply (onFlowCellMod_fails fun none => zero none plain).bind
          intro due _
          split <;> trivial
      · trivial
    · trivial

theorem nextValidLink_fails (endless : allowed .endlessSearch) :
    Fails allowed (nextValidLink cfg a) := by
  simp only [nextValidLink]
  split
  · trivial
  · split
    · trivial
    · exact endless

theorem detectedByCase_fails
    (selective : cfg.selectiveSpraying = true → cfg.failedLinks = [] → allowed .noFailureRecord)
    (weighted : cfg.failureCase = 1 ∨ cfg.failureCase = 2 → startsFlowcell cfg a = true →
      cfg.failedLinks = [] → allowed .noFailureRecord)
    (zero : cfg.selectiveSpraying = false → a.flowCellMod = 0 → allowed .divisionByZero) :
    Fails allowed (detectedByCase cfg a) := by
  simp only [detectedByCase]
  split_ifs with isPartial scheme isFull scheme scheme
  · exact selectivePartial_fails (selective scheme)
  · exact weightedPartial_fails (weighted (.inl isPartial)) (zero (by simpa using scheme))
  · exact selectiveFull_fails (selective scheme)
  · exact weightedFull_fails (weighted (.inr isFull))
  · trivial
  · trivial

/-- What a fault of the choice tells of the flow and its agent. -/
theorem chooseUplink_fails
    (unread : ReadsRecord cfg e a → cfg.failedLinks = [] → allowed .noFailureRecord)
    (zero : DividesByZero cfg a → allowed .divisionByZero)
    (endless : searchesSpineSet cfg e a = true → allowed .endlessSearch) :
    Fails allowed (chooseUplink cfg e a) := by
  simp only [chooseUplink]
  -- each branch of the choice has its own faults, and its guards say which
  split_ifs with unaware realistic robin detected searches detected robin
  · trivial
  · exact nextValidLink_fails (endless (by simp_all [searchesSpineSet]))
  · have aware : cfg.failureAware = true := by simpa using unaware
    apply detectedByCase_fails
    · exact fun selective => unread ⟨aware, robin, .inl selective⟩
    · exact fun failureCase starts => unread ⟨aware, robin, .inr (.inr ⟨failureCase, detected, starts⟩)⟩
    · exact fun weighted none => zero ⟨aware, .inr ⟨robin, none, .inl weighted⟩⟩
  · trivial
  · exact probabilistic_fails fun none =>
      zero ⟨by simpa using unaware, .inl ⟨by simpa using robin, none⟩⟩
  · trivial
  · have aware : cfg.failureAware = true := by simpa using unaware
    have fixed : cfg.realisticFailure = false := by simpa using realistic
    apply staticRoundRobin_fails
    · exact unread ⟨aware, robin, .inr (.inl fixed)⟩
    · intro none plain
      exact zero ⟨aware, .inr ⟨robin, none, plain.imp_right fun leaf => ⟨fixed, leaf⟩⟩⟩
  · exact probabilistic_fails fun none =>
      zero ⟨by simpa using unaware, .inl ⟨by simpa using robin, none⟩⟩

end Saps.Spray
