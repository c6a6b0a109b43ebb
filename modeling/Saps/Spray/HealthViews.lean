import Saps.Spray.SelectiveRuns

/-!
# Three views of a spine's health

The weighted scheme asks `isSpineFailed`, the selective scheme the spine sets, the
probabilistic scheme the uplink weights. The first and the last follow the first
direct failure listed for a spine, the sets follow all of them.
-/
namespace Saps.Spray

variable {cfg : SprayConfig} {a b : SprayAgent} {s : Nat}

/-- The direct failure on the spine that is listed first. -/
def firstDirect (cfg : SprayConfig) (s : Nat) : Option FailedLink :=
  cfg.failedLinks.find? fun f => cfg.direct f && decide (s = f.spine)

/-- Some direct failure on the spine is a full one. -/
def HasFullDirect (cfg : SprayConfig) (s : Nat) : Prop :=
  ∃ f ∈ cfg.failedLinks, f.spine = s ∧ cfg.direct f = true ∧ f.failureRatio = 100

/-- A full direct failure on the spine is never listed behind a partial one. -/
def FullListedFirst (cfg : SprayConfig) (s : Nat) : Prop :=
  HasFullDirect cfg s → ∀ f ∈ firstDirect cfg s, f.failureRatio = 100

/-- The ratios that failure lists are written with. -/
def UsualRatios (cfg : SprayConfig) : Prop :=
  ∀ f ∈ cfg.failedLinks, (2 ≤ f.failureRatio ∧ f.failureRatio ≤ 10) ∨ f.failureRatio = 100

/-- Over the six equivalences: what the three views say of one spine. -/
structure ViewsAgree (cfg : SprayConfig) (sets : SpineSets) (uplinkWeights : Nat → Nat)
    (s : Nat) : Prop where
  full : isSpineFailed cfg s = 2 ↔ sets.fullFailureSpines s = 1
  fullWeight : sets.fullFailureSpines s = 1 ↔ uplinkWeights s = 0
  partially : isSpineFailed cfg s = 1 ↔ sets.svtPartialFailure s = 1
  partialWeight : sets.svtPartialFailure s = 1 ↔ 0 < uplinkWeights s ∧ uplinkWeights s < 10
  healthy : isSpineFailed cfg s = 0 ↔ sets.svtNoFailure s = 1
  healthyWeight : sets.svtNoFailure s = 1 ↔ uplinkWeights s = 10

theorem firstDirect_some {f : FailedLink} (first : firstDirect cfg s = some f) :
    f ∈ cfg.failedLinks ∧ f.spine = s ∧ cfg.direct f = true := by
  have found := List.find?_some first
  simp only [Bool.and_eq_true, decide_eq_true_eq] at found
  exact ⟨List.mem_of_find?_eq_some first, found.2.symm, found.1⟩

theorem firstDirect_none (first : firstDirect cfg s = none) :
    ¬∃ f ∈ cfg.failedLinks, f.spine = s ∧ cfg.direct f = true := by
  rintro ⟨f, listed, here, direct⟩
  have missed := List.find?_eq_none.mp first f listed
  simp [direct, here] at missed

theorem isSpineFailed_eq (cfg : SprayConfig) (s : Nat) :
    isSpineFailed cfg s = match firstDirect cfg s with
      | some f => if f.failureRatio = 100 then 2 else 1
      | none => 0 := rfl

theorem uplinkFailureRatio_eq (cfg : SprayConfig) (s : Nat) :
    uplinkFailureRatio cfg s = (firstDirect cfg s).elim 1 FailedLink.failureRatio := by
  have order : (fun f : FailedLink => decide (s = f.spine) && cfg.direct f) =
      fun f => cfg.direct f && decide (s = f.spine) := funext fun f => Bool.and_comm _ _
  simp only [uplinkFailureRatio, firstDirect]
  rw [order]
  cases cfg.failedLinks.find? fun f => cfg.direct f && decide (s = f.spine) <;> rfl

/-- The weight of an uplink tells the same as `isSpineFailed`. -/
theorem weight_isSpineFailed (usual : UsualRatios cfg) {w : Nat}
    (weight : directWeight cfg s = .ok w) :
    (isSpineFailed cfg s = 2 ↔ w = 0) ∧ (isSpineFailed cfg s = 1 ↔ 0 < w ∧ w < 10) ∧
      (isSpineFailed cfg s = 0 ↔ w = 10) := by
  simp only [directWeight] at weight
  rw [uplinkFailureRatio_eq] at weight
  rw [isSpineFailed_eq]
  cases first : firstDirect cfg s with
  | none =>
    simp only [first, Option.elim_none] at weight
    cases weight
    simp
  | some f =>
    simp only [first, Option.elim_some] at weight
    have ratio := usual f (firstDirect_some first).1
    split_ifs at weight with isFull isZero
    · cases weight
      simp [isFull]
    · cases weight
      -- the ratios from 2 to 10 give weights from 5 down to 1
      have low : 0 < 10 / f.failureRatio := Nat.div_pos (by omega) (by omega)
      have high : 10 / f.failureRatio < 10 := Nat.div_lt_self (by omega) (by omega)
      have degraded : (if f.failureRatio = 100 then 2 else 1) = 1 := if_neg isFull
      simp only [degraded, true_iff]
      omega

/-- The sets tell the same as `isSpineFailed` when no full failure hides behind a partial one. -/
theorem sets_isSpineFailed {n : Nat} {sets : SpineSets}
    (sorted : Represents n (classOf cfg cfg.failedLinks) sets) :
    (isSpineFailed cfg s = 0 ↔ sets.svtNoFailure s = 1) ∧
      ((isSpineFailed cfg s = 2 ↔ sets.fullFailureSpines s = 1) ↔ FullListedFirst cfg s) ∧
      ((isSpineFailed cfg s = 1 ↔ sets.svtPartialFailure s = 1) ↔ FullListedFirst cfg s) := by
  have full := classOf_eq_directFull_iff cfg cfg.failedLinks s
  have partially := classOf_eq_directPartial_iff cfg cfg.failedLinks s
  have direct := isDirect_classOf_iff cfg cfg.failedLinks s
  rw [sorted.noFailure, sorted.fullFailure, sorted.partialFailure, isSpineFailed_eq,
    FullListedFirst, HasFullDirect]
  cases first : firstDirect cfg s with
  | none =>
    have none := firstDirect_none first
    have notFull : classOf cfg cfg.failedLinks s ≠ .directFull := fun isFull => by
      obtain ⟨f, listed, here, isDirect, -⟩ := full.mp isFull
      exact none ⟨f, listed, here, isDirect⟩
    have notPartial : classOf cfg cfg.failedLinks s ≠ .directPartial := fun isPartial =>
      none (partially.mp isPartial).1
    have notDirect : (classOf cfg cfg.failedLinks s).isDirect = false := by
      rw [← Bool.not_eq_true, direct]
      exact none
    simp [notFull, notPartial, notDirect]
  | some f =>
    have found := firstDirect_some first
    have isDirect : (classOf cfg cfg.failedLinks s).isDirect = true := direct.mpr ⟨f, found⟩
    by_cases isFull : f.failureRatio = 100
    · -- the first direct failure is a full one already
      have hasFull : classOf cfg cfg.failedLinks s = .directFull :=
        full.mpr ⟨f, found.1, found.2.1, found.2.2, isFull⟩
      simp [hasFull, isFull, SpineClass.isDirect]
    · -- the first direct failure is a partial one: a full one behind it splits the views
      have notListed : ¬∀ g ∈ some f, g.failureRatio = 100 := fun all => isFull (all f rfl)
      rw [← full]
      simp only [isFull, if_false, notListed, imp_false, isDirect]
      cases known : classOf cfg cfg.failedLinks s <;> simp_all [SpineClass.isDirect]

/-- The first packet of a probabilistic flow leaves the sets and the weights compared here. -/
theorem firstPacket_views {e : PacketEnv} (several : 1 < cfg.numFailures)
    (aware : cfg.failureAware = true) (affected : (cfg.fromFailedLeaf || cfg.toFailedLeaf) = true)
    (draws : cfg.roundRobin = false) (h : firstPacket cfg e (fresh cfg) = .ok b) :
    b.sets = classify cfg cfg.failedLinks ∧
      ∃ a c, assignWeights cfg (directWeight cfg) a = .ok c ∧ b.uplinkWeights = c.uplinkWeights := by
  refine ⟨(firstPacket_selective several h).2.2.1, ?_⟩
  obtain ⟨mapped, -, h⟩ := DrivenRun.bind_eq_ok.mp h
  obtain ⟨started, scheme, h⟩ := DrivenRun.bind_eq_ok.mp h
  cases h
  simp only [initScheme] at scheme
  rw [if_pos aware, if_pos affected, if_neg (by simp [draws])] at scheme
  exact ⟨mapped, started, scheme, rfl⟩

/-- The three views agree on every spine exactly when each spine with a full direct
failure has a full one listed before all other direct ones. -/
theorem healthViews_agree_iff (cfg : SprayConfig) (usual : UsualRatios cfg)
    {a b : SprayAgent} (weights : assignWeights cfg (directWeight cfg) a = .ok b) :
    (∀ s < cfg.numUplinks, ViewsAgree cfg (classify cfg cfg.failedLinks) b.uplinkWeights s) ↔
      ∀ s < cfg.numUplinks, FullListedFirst cfg s := by
  have sorted := classify_represents cfg cfg.inRange
  have weights := assignWeights_ok weights
  apply forall₂_congr
  intro s hs
  obtain ⟨fullWeight, partialWeight, healthyWeight⟩ := weight_isSpineFailed usual (weights s hs)
  obtain ⟨healthy, full, partially⟩ := @sets_isSpineFailed cfg s _ _ sorted
  constructor
  · intro agree
    exact full.mp agree.full
  · intro listedFirst
    have full := full.mpr listedFirst
    have partially := partially.mpr listedFirst
    exact ⟨full, full.symm.trans fullWeight, partially, partially.symm.trans partialWeight,
      healthy, healthy.symm.trans healthyWeight⟩

/-- The two links of spine 1 that the pair uses: first a degraded one, then a dead one. -/
def hiddenFullFailure : SprayConfig where
  numUplinks := 2
  failedLinks := [⟨0, 1, 10⟩, ⟨3, 1, 100⟩]
  uplinks_pos := Nat.two_pos
  inRange := by decide
  flowcellSizePkts := 1
  cell_pos := Nat.zero_lt_one
  failureAware := true
  realisticFailure := true
  roundRobin := false
  selectiveSpraying := false
  healthyPathOnly := false
  daSprayOnly := 0
  daFlow := false
  poorPathFlow := false
  failureCase := 1
  failureRatio := 10
  fromFailedLeaf := true
  toFailedLeaf := true
  srcLeaf := 0
  destLeaf := 3
  dynamicMapping := 0
  dynamicMappingThreshold := 0
  dynamicMappingThresholdGL2GL := 0
  healthyLinkCapacity := 40
  flowsizeBytes := 1000000
  timing := ⟨0, 0, 0⟩

/-- The sets call spine 1 dead, the other two views call it degraded. -/
theorem hiddenFullFailure_disagrees :
    UsualRatios hiddenFullFailure ∧ 1 < hiddenFullFailure.numFailures ∧
      ∃ b, assignWeights hiddenFullFailure (directWeight hiddenFullFailure)
          (fresh hiddenFullFailure) = .ok b ∧
        ¬ViewsAgree hiddenFullFailure (classify hiddenFullFailure hiddenFullFailure.failedLinks)
          b.uplinkWeights 1 := by
  refine ⟨by unfold UsualRatios; decide, by decide, _, rfl, fun agree => ?_⟩
  have dead : isSpineFailed hiddenFullFailure 1 = 2 := agree.full.mpr (by decide)
  exact absurd dead (by decide)

/-- The same failures in the other order. -/
def shownFullFailure : SprayConfig :=
  { hiddenFullFailure with failedLinks := [⟨3, 1, 100⟩, ⟨0, 1, 10⟩], inRange := by decide }

/-- In the other order the views agree. -/
theorem healthViews_agree_iff_hiddenFullFailure :
    (∃ b, assignWeights hiddenFullFailure (directWeight hiddenFullFailure)
        (fresh hiddenFullFailure) = .ok b ∧
      ((∀ s < 2, ViewsAgree hiddenFullFailure
          (classify hiddenFullFailure hiddenFullFailure.failedLinks) b.uplinkWeights s) ↔
        ∀ s < 2, FullListedFirst hiddenFullFailure s)) ∧
    ∃ b, assignWeights shownFullFailure (directWeight shownFullFailure)
        (fresh shownFullFailure) = .ok b ∧
      ∀ s < 2, ViewsAgree shownFullFailure
        (classify shownFullFailure shownFullFailure.failedLinks) b.uplinkWeights s :=
  ⟨⟨_, rfl, healthViews_agree_iff hiddenFullFailure (by unfold UsualRatios; decide) rfl⟩, _, rfl,
    (healthViews_agree_iff shownFullFailure (by unfold UsualRatios; decide) rfl).mpr
      fun s below _ => (show ∀ s < 2, ∀ f ∈ firstDirect shownFullFailure s,
        f.failureRatio = 100 by decide) s below⟩

end Saps.Spray
