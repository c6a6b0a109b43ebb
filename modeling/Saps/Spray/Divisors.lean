import Saps.Spray.PlainRotation

/-!
# Divisors of the load balancing

With sound parameters the sender divides by zero in one kind of flow only: a
selective one that is neither from nor to the failed leaf, under a static failure.
Its `rfactor` is never set, and its first step onto the failed spine divides by the
`flowCellMod_` made from it. The divisors are `int`s in the source: what they come to
here is what they come to there as long as the parameters keep them in range.
-/
namespace Saps.Spray

open DrivenRun (bind_eq_ok bind_eq_error)
open Outcome (Ends)
open SignedWord (wrap Fits fits_of_nonneg)

variable {cfg : SprayConfig} {e : PacketEnv} {envs : Nat → PacketEnv} {a b p : SprayAgent}
  {k : Nat}

/-- The flows whose modulus is never set and yet divided by. -/
structure UnsetModulus (cfg : SprayConfig) : Prop where
  aware : cfg.failureAware = true
  robin : cfg.roundRobin = true
  selective : cfg.selectiveSpraying = true
  fixed : cfg.realisticFailure = false
  sourceLeaf : cfg.fromFailedLeaf = false
  destLeaf : cfg.toFailedLeaf = false

/-! ### The modulus of the weighted schemes -/

/-- How far the modulus runs ahead of the packets at most. -/
def modulusReach (cfg : SprayConfig) : Nat :=
  cfg.flowcellSizePkts * (cfg.numUplinks * (2 * cfg.failureRatio + 1))

/-- The weak spines take turns only in these flows. -/
def TakesTurns (cfg : SprayConfig) : Prop := 1 < cfg.numFailures ∧ cfg.realisticFailure = true

/-- The modulus is positive and in reach of the packets, and so is whatever is added to it. -/
structure ModulusSet (cfg : SprayConfig) (a : SprayAgent) : Prop where
  flowCellMod : 0 < a.flowCellMod
  rfactor : 0 < a.rfactor
  rfactor_le : a.rfactor ≤ cfg.numUplinks * cfg.failureRatio
  weak : 0 ≤ a.sets.numDirectPartialFailurePaths
  weak_le : a.sets.numDirectPartialFailurePaths ≤ cfg.numUplinks
  toggled : a.toggleWeakSpines ≠ 0 → TakesTurns cfg ∧ a.flowCellMod ≤ a.ndatapack
  reach : a.flowCellMod ≤ a.ndatapack + modulusReach cfg

/-- Before it chooses its uplink, the first packet has the modulus it has just set. -/
structure ModulusReady (cfg : SprayConfig) (a : SprayAgent) : Prop extends ModulusSet cfg a where
  first : a.ndatapack = 0 →
    a.flowCellMod ≤ cfg.flowcellSizePkts * (cfg.numUplinks * cfg.failureRatio)

/-- The parts that are added to the modulus are in its reach. -/
theorem ModulusSet.parts (set : ModulusSet cfg a) :
    0 ≤ cfg.flowcellSizePkts * a.rfactor ∧
      0 ≤ cfg.flowcellSizePkts * a.sets.numDirectPartialFailurePaths ∧
      (cfg.flowcellSizePkts : Int) * (cfg.numUplinks * cfg.failureRatio) +
        (cfg.flowcellSizePkts + cfg.flowcellSizePkts * a.rfactor) ≤ modulusReach cfg ∧
      cfg.flowcellSizePkts * a.sets.numDirectPartialFailurePaths +
        cfg.flowcellSizePkts * a.rfactor ≤ modulusReach cfg := by
  have cell : (0 : Int) ≤ cfg.flowcellSizePkts := Int.natCast_nonneg _
  have uplinks : (1 : Int) ≤ cfg.numUplinks := by exact_mod_cast cfg.uplinks_pos
  have whole : (0 : Int) ≤ cfg.flowcellSizePkts * (cfg.numUplinks * cfg.failureRatio) := by
    positivity
  have others := Int.mul_le_mul_of_nonneg_left set.rfactor_le cell
  have weak := Int.mul_le_mul_of_nonneg_left set.weak_le cell
  have one := Int.mul_le_mul_of_nonneg_left uplinks cell
  have reach : (modulusReach cfg : Int) =
      2 * (cfg.flowcellSizePkts * (cfg.numUplinks * cfg.failureRatio)) +
        cfg.flowcellSizePkts * cfg.numUplinks := by
    rw [modulusReach]
    push_cast
    ring
  exact ⟨Int.mul_nonneg cell set.rfactor.le, Int.mul_nonneg cell set.weak, by omega, by omega⟩

theorem ModulusSet.nextLink (set : ModulusSet cfg a) : ModulusSet cfg (nextLink cfg a) :=
  { set with }

theorem ModulusReady.nextLink (ready : ModulusReady cfg a) : ModulusReady cfg (nextLink cfg a) :=
  { ready with }

theorem ModulusSet.rotateFlowcell (set : ModulusSet cfg a) :
    ModulusSet cfg (rotateFlowcell cfg a) := by
  simp only [Spray.rotateFlowcell]
  split
  · exact set.nextLink
  · exact set

/-- A later packet on a multiple of the modulus has passed it. -/
private theorem onFlowCellMod_le (due : onFlowCellMod a = .ok true) (later : 0 < a.ndatapack) :
    a.flowCellMod ≤ a.ndatapack := by
  simp only [onFlowCellMod] at due
  split at due
  · cases due
  · have multiple : (a.ndatapack : Int) % a.flowCellMod = 0 := by simpa using due
    exact Int.le_of_dvd (by exact_mod_cast later) (Int.dvd_of_emod_eq_zero multiple)

/-- The round of the weak spines begins when the packets have come up to the modulus. -/
theorem ModulusSet.begun (set : ModulusSet cfg a) (turn : weakSpinesTurn a = .ok true) :
    a.flowCellMod ≤ a.ndatapack := by
  obtain ⟨due, known, turn⟩ := bind_eq_ok.mp turn
  have either : due = true ∧ 0 < a.ndatapack ∨ a.toggleWeakSpines ≠ 0 := by
    simpa [pure, Except.pure] using turn
  rcases either with ⟨rfl, later⟩ | toggled
  · exact onFlowCellMod_le known later
  · exact (set.toggled toggled).2

theorem ModulusReady.near (ready : ModulusReady cfg a) (due : onFlowCellMod a = .ok true) :
    a.flowCellMod ≤ a.ndatapack + cfg.flowcellSizePkts * (cfg.numUplinks * cfg.failureRatio) := by
  rcases Nat.eq_zero_or_pos a.ndatapack with first | later
  · have initial := ready.first first
    omega
  · have passed := onFlowCellMod_le due later
    have whole : (0 : Int) ≤ cfg.flowcellSizePkts * (cfg.numUplinks * cfg.failureRatio) := by
      positivity
    omega

theorem ModulusSet.takeWeakTurn (set : ModulusSet cfg a) (takes : TakesTurns cfg)
    (begun : a.flowCellMod ≤ a.ndatapack) : ModulusSet cfg (takeWeakTurn cfg a) := by
  obtain ⟨others, weak, -, round⟩ := set.parts
  have modulus := set.flowCellMod
  simp only [Spray.takeWeakTurn]
  split
  · refine { set with flowCellMod := ?_, toggled := fun more => absurd rfl more, reach := ?_ }
    · dsimp only
      omega
    · dsimp only
      omega
  · exact { set with toggled := fun _ => ⟨takes, begun⟩ }

/-- The next turn of a single failed link is still ahead. -/
theorem ModulusReady.nextTurn (ready : ModulusReady cfg a) (alone : ¬TakesTurns cfg)
    (due : onFlowCellMod a = .ok true) :
    ModulusSet cfg { a with
      flowCellMod := a.flowCellMod + cfg.flowcellSizePkts + cfg.flowcellSizePkts * a.rfactor } := by
  obtain ⟨others, -, round, -⟩ := ready.parts
  have modulus := ready.flowCellMod
  have near := ready.near due
  refine { ready.toModulusSet with
    flowCellMod := ?_, toggled := fun more => absurd (ready.toggled more).1 alone, reach := ?_ }
  · dsimp only
    omega
  · dsimp only
    omega

/-- Faults are none of the business of this part. -/
abbrev Answers (post : SprayAgent → Prop) : Except Fault SprayAgent → Prop :=
  Ends (fun _ => True) post

theorem ModulusSet.weightedSearch (set : ModulusSet cfg a) (takes : TakesTurns cfg)
    (rounds : Nat) : Answers (ModulusSet cfg) (weightedSearch cfg rounds a) := by
  induction rounds generalizing a with
  | zero => exact set
  | succ rounds ih =>
    have onward := ih set.nextLink
    simp only [Spray.weightedSearch]
    split_ifs
    · exact onward
    -- a weak spine is served in the turn of the weak ones only, a healthy one outside it
    · apply (Ends.any (weakSpinesTurn a)).bind_known
      intro turn known
      split
      next isTurn =>
        subst isTurn
        exact set.takeWeakTurn takes (set.begun known)
      · exact onward
    · apply (Ends.any (weakSpinesTurn a)).bind
      intro due _
      split
      · exact onward
      · exact set

theorem ModulusReady.weightedPartial (ready : ModulusReady cfg a)
    (realistic : cfg.realisticFailure = true) :
    Answers (ModulusSet cfg) (weightedPartial cfg a) := by
  have next := ready.toModulusSet.nextLink
  simp only [Spray.weightedPartial, weightedMultiple, weightedSingle]
  split_ifs with starts several direct
  · exact next.weightedSearch ⟨several, realistic⟩ _
  · exact next
  · apply (Ends.any (firstFailure cfg)).bind
    intro f _
    split
    · apply (Ends.any (onFlowCellMod _)).bind_known
      intro due known
      split
      · exact next.nextLink
      next isTurn =>
        have isDue : due = true := by simp_all
        subst isDue
        exact ready.nextLink.nextTurn (fun takes => several takes.1) known
    · exact next
  · exact ready.toModulusSet

theorem ModulusSet.weightedFull (set : ModulusSet cfg a) :
    Answers (ModulusSet cfg) (weightedFull cfg a) := by
  simp only [Spray.weightedFull, skipFailedSpine]
  split
  · apply (Ends.any (firstFailure cfg)).bind
    intro f _
    split
    · exact set.nextLink.nextLink
    · exact set.nextLink
  · exact set

theorem ModulusReady.staticRoundRobin (ready : ModulusReady cfg a)
    (fixed : cfg.realisticFailure = false) :
    Answers (ModulusSet cfg) (staticRoundRobin cfg a) := by
  have next := ready.toModulusSet.nextLink
  simp only [Spray.staticRoundRobin]
  split
  · exact ready.toModulusSet
  split
  · apply (Ends.any (firstFailure cfg)).bind
    intro f _
    split
    · split
      · exact next.nextLink
      · apply (Ends.any (onFlowCellMod _)).bind_known
        intro due known
        split
        next isDue =>
          subst isDue
          exact ready.nextLink.nextTurn (fun takes => by simp [TakesTurns, fixed] at takes) known
        · exact next.nextLink
    · exact next
  · exact ready.toModulusSet

/-! ### What keeps a flow from dividing by zero -/

/-- Some uplink has a weight, and none more than 10. -/
def WeightsSet (cfg : SprayConfig) (a : SprayAgent) : Prop :=
  0 < a.totalUplinkWeights ∧ a.totalUplinkWeights ≤ 10 * cfg.numUplinks

/-- The divisors of the flow's scheme are not zero; `modulus` says more about the modulus. -/
def DivisorsSet (cfg : SprayConfig) (modulus : SprayAgent → Prop) (a : SprayAgent) : Prop :=
  cfg.failureAware = true →
    (cfg.roundRobin = false → WeightsSet cfg a) ∧
      (cfg.roundRobin = true → cfg.selectiveSpraying = false → modulus a)

theorem WeightsSet.probabilistic (set : WeightsSet cfg a) :
    Answers (WeightsSet cfg) (probabilistic cfg e a) := by
  simp only [Spray.probabilistic, drawUplink]
  split
  · apply (Ends.any (randomInteger _ _)).bind
    intro r _
    split
    · exact set
    · exact (Ends.any (randomInteger _ _)).bind fun _ _ => set
  · exact set

theorem ModulusReady.detectedByCase (ready : ModulusReady cfg a)
    (realistic : cfg.realisticFailure = true) (sprays : cfg.selectiveSpraying = false) :
    Answers (ModulusSet cfg) (detectedByCase cfg a) := by
  simp only [Spray.detectedByCase, sprays, Bool.false_eq_true, if_false]
  split_ifs
  · exact ready.weightedPartial realistic
  · exact ready.toModulusSet.weightedFull
  · exact ready.toModulusSet.rotateFlowcell

/-- A flow that draws its uplinks has only weights to divide by. -/
theorem divisorsSet_of_draws {x : Except Fault SprayAgent} (draws : cfg.roundRobin = false)
    (kept : Answers (WeightsSet cfg) x) : Answers (DivisorsSet cfg (ModulusSet cfg)) x :=
  kept.mono fun _ positive _ => ⟨fun _ => positive, fun robin => by simp [draws] at robin⟩

/-- A round-robin flow has only its modulus to divide by, and a selective one not even that. -/
theorem divisorsSet_of_robin {x : Except Fault SprayAgent} (robin : cfg.roundRobin = true)
    (kept : cfg.selectiveSpraying = false → Answers (ModulusSet cfg) x) :
    Answers (DivisorsSet cfg (ModulusSet cfg)) x := by
  cases sprays : cfg.selectiveSpraying with
  | false =>
    exact (kept sprays).mono fun _ set _ => ⟨fun draws => by simp [robin] at draws, fun _ _ => set⟩
  | true =>
    exact (Ends.any x).mono fun _ _ _ =>
      ⟨fun draws => by simp [robin] at draws, fun _ none => by simp [sprays] at none⟩

theorem DivisorsSet.rotateFlowcell (set : DivisorsSet cfg (ModulusReady cfg) a) :
    DivisorsSet cfg (ModulusSet cfg) (rotateFlowcell cfg a) := by
  intro aware
  obtain ⟨weights, modulus⟩ := set aware
  refine ⟨?_, fun robin sprays => (modulus robin sprays).toModulusSet.rotateFlowcell⟩
  simp only [Spray.rotateFlowcell]
  split
  · exact weights
  · exact weights

theorem DivisorsSet.chooseUplink (set : DivisorsSet cfg (ModulusReady cfg) a) :
    Answers (DivisorsSet cfg (ModulusSet cfg)) (chooseUplink cfg e a) := by
  simp only [Spray.chooseUplink]
  split_ifs with unaware realistic robin detected searches detected robin
  · exact set.rotateFlowcell
  · apply divisorsSet_of_robin robin
    intro sprays
    simp [sprays] at searches
  · apply divisorsSet_of_robin robin
    intro sprays
    exact ((set (by simpa using unaware)).2 robin sprays).detectedByCase realistic sprays
  · exact set.rotateFlowcell
  · have draws : cfg.roundRobin = false := by simpa using robin
    exact divisorsSet_of_draws draws ((set (by simpa using unaware)).1 draws).probabilistic
  · exact set.rotateFlowcell
  · apply divisorsSet_of_robin robin
    intro sprays
    exact ((set (by simpa using unaware)).2 robin sprays).staticRoundRobin (by simpa using realistic)
  · have draws : cfg.roundRobin = false := by simpa using robin
    exact divisorsSet_of_draws draws ((set (by simpa using unaware)).1 draws).probabilistic

/-! ### What the first packet sets -/

/-- What the draw of the spine set leaves of a fresh agent. -/
structure MappedFresh (cfg : SprayConfig) (b : SprayAgent) : Prop where
  ndatapack : b.ndatapack = 0
  failureRatio : b.failureRatio = cfg.failureRatio
  totalUplinkWeights : b.totalUplinkWeights = 0
  rfactor : b.rfactor = 0
  toggleWeakSpines : b.toggleWeakSpines = 0
  weak : 0 ≤ b.sets.numDirectPartialFailurePaths
  weak_le : b.sets.numDirectPartialFailurePaths ≤ cfg.numUplinks
  several : 1 < cfg.numFailures → b.sets = classify cfg cfg.failedLinks

theorem mapToSpineSet_leaves :
    Answers (MappedFresh cfg)
      (mapToSpineSet cfg e { fresh cfg with linkID := cfg.numUplinks - 1, rfactor := 0 }) := by
  have all : (0 : Int) ≤ cfg.numUplinks := Int.natCast_nonneg _
  simp only [mapToSpineSet]
  split_ifs with several
  · apply (Ends.any (bandwidths _ _ _)).bind
    intro bw _
    apply (Ends.any (chooseSvtMapping _ _ _ _)).bind
    intro m _
    have sorted := classify_represents cfg cfg.inRange
    have weak : 0 ≤ (classify cfg cfg.failedLinks).numDirectPartialFailurePaths := by
      rw [sorted.numDirectPartial]
      exact classCount_nonneg _ _ _
    have weak_le : (classify cfg cfg.failedLinks).numDirectPartialFailurePaths ≤
        cfg.numUplinks := by
      rw [sorted.numDirectPartial, classCount]
      exact_mod_cast Nat.count_le _
    exact MappedFresh.mk rfl rfl rfl rfl rfl weak weak_le fun _ => rfl
  · exact MappedFresh.mk rfl rfl rfl rfl rfl le_rfl all fun more => absurd more several
  · exact MappedFresh.mk rfl rfl rfl rfl rfl le_rfl all fun more => absurd more several

/-- The weights of all uplinks are added up. -/
theorem assignWeights_total {weight : Nat → Except Fault Nat} {i w : Nat} (inside : i < cfg.numUplinks)
    (known : weight i = .ok w) (h : assignWeights cfg weight a = .ok b) :
    w ≤ b.totalUplinkWeights := by
  -- the sum never falls, and has the weight in it from its round on
  refine assignWeights_rounds (I := fun m c => i < m → w ≤ c.totalUplinkWeights) ?_ ?_ h inside
  · exact fun before => absurd before (Nat.not_lt_zero i)
  · intro m c v grown weighed before
    rcases Nat.lt_succ_iff_lt_or_eq.mp before with earlier | rfl
    · exact (grown earlier).trans (Nat.le_add_right _ v)
    · cases known.symm.trans weighed
      exact Nat.le_add_left w _

theorem assignWeights_total_le {weight : Nat → Except Fault Nat} {most : Nat}
    (none : a.totalUplinkWeights = 0) (light : ∀ i w, weight i = .ok w → w ≤ most)
    (h : assignWeights cfg weight a = .ok b) : b.totalUplinkWeights ≤ most * cfg.numUplinks := by
  refine assignWeights_rounds (I := fun m c => c.totalUplinkWeights ≤ most * m) none.le ?_ h
  intro m c v earlier weighed
  have light := light m v weighed
  rw [Nat.mul_succ]
  exact Nat.add_le_add earlier light

theorem directWeight_le {s w : Nat} (weighed : directWeight cfg s = .ok w) : w ≤ 10 := by
  simp only [directWeight] at weighed
  split_ifs at weighed
  · cases weighed
    exact Nat.zero_le 10
  · cases weighed
    exact Nat.div_le_self 10 _

/-- A spine without a direct failure weighs 10. -/
theorem directWeight_healthy {s : Nat}
    (healthy : ∀ f ∈ cfg.failedLinks, f.spine = s → cfg.direct f = false) :
    directWeight cfg s = .ok 10 := by
  have unlisted : uplinkFailureRatio cfg s = 1 := by
    simp only [uplinkFailureRatio]
    split
    next f found =>
      have here := List.find?_some found
      have direct := healthy f (List.mem_of_find?_eq_some found)
      simp_all
    · rfl
  simp [directWeight, unlisted]

/-- With a spine free of direct failures, not all spines are directly failed. -/
theorem numDirect_lt (healthy : HealthySpine cfg) :
    (classify cfg cfg.failedLinks).numDirectFailures < cfg.numUplinks := by
  have sorted := classify_represents cfg cfg.inRange
  have everySpine := classCount_sum cfg.numUplinks (classOf cfg cfg.failedLinks)
  have clean := classCount_nonneg cfg.numUplinks (classOf cfg cfg.failedLinks) .clean
  have indirectPartial := classCount_nonneg cfg.numUplinks (classOf cfg cfg.failedLinks)
    .indirectPartial
  have indirectFull := classCount_nonneg cfg.numUplinks (classOf cfg cfg.failedLinks) .indirectFull
  rw [healthySpine_iff] at healthy
  simp only [HasClass, ← classCount_pos_iff] at healthy
  rw [sorted.numDirect]
  omega

theorem firstPacket_divisorsSet (sound : SoundParameters cfg)
    (started : firstPacket cfg e (fresh cfg) = .ok p) :
    DivisorsSet cfg (ModulusReady cfg) p := by
  obtain ⟨mapped, mapping, started⟩ := bind_eq_ok.mp started
  obtain ⟨b, scheme, started⟩ := bind_eq_ok.mp started
  cases started
  have leaves := mapToSpineSet_leaves.of_ok mapping
  have cell := cfg.cell_pos
  have uplinks := sound.uplinks
  intro aware
  constructor
  · intro draws
    show 0 < b.totalUplinkWeights ∧ b.totalUplinkWeights ≤ 10 * cfg.numUplinks
    -- a healthy uplink alone weighs something
    obtain ⟨s, hs, healthy⟩ := sound.healthy
    simp only [initScheme, aware, draws, if_true, Bool.false_eq_true, if_false] at scheme
    split_ifs at scheme
    · have heavy := assignWeights_total hs (directWeight_healthy healthy) scheme
      exact ⟨by omega, assignWeights_total_le leaves.totalUplinkWeights
        (fun _ _ => directWeight_le) scheme⟩
    · have heavy := @assignWeights_total cfg mapped b (fun _ => .ok 10) s 10 hs rfl scheme
      refine ⟨by omega, assignWeights_total_le leaves.totalUplinkWeights ?_ scheme⟩
      intro _ w weighed
      cases weighed
      exact le_rfl
  · intro robin sprays
    have ratio_pos : (0 : Int) < cfg.failureRatio := by exact_mod_cast sound.ratio
    have others : 0 < b.rfactor ∧ b.rfactor ≤ cfg.numUplinks * cfg.failureRatio ∧
        b.sets = mapped.sets ∧ b.ndatapack = 0 ∧ b.toggleWeakSpines = 0 := by
      have part {x : Int} (positive : 0 < x) (most : x ≤ cfg.numUplinks) :
          0 < x * mapped.failureRatio ∧
            x * mapped.failureRatio ≤ cfg.numUplinks * cfg.failureRatio := by
        rw [leaves.failureRatio]
        exact ⟨Int.mul_pos positive ratio_pos, Int.mul_le_mul_of_nonneg_right most ratio_pos.le⟩
      simp only [initScheme, aware, robin, sprays, if_true, Bool.false_eq_true, if_false,
        Bool.true_eq_false] at scheme
      split_ifs at scheme with leaf several
      · cases scheme
        -- not every uplink is directly affected, so the product has no factor 0
        have healthy := numDirect_lt sound.healthy
        have direct := (classify_represents cfg cfg.inRange).numDirect
        have directPartial := classCount_nonneg cfg.numUplinks (classOf cfg cfg.failedLinks)
          .directPartial
        have directFull := classCount_nonneg cfg.numUplinks (classOf cfg cfg.failedLinks)
          .directFull
        rw [← leaves.several several] at healthy direct
        obtain ⟨positive, most⟩ := part (x := cfg.numUplinks - mapped.sets.numDirectFailures)
          (by omega) (by omega)
        exact ⟨positive, most, rfl, leaves.ndatapack, leaves.toggleWeakSpines⟩
      · cases scheme
        obtain ⟨positive, most⟩ := part (x := cfg.numUplinks - 1) (by omega) (by omega)
        exact ⟨positive, most, rfl, leaves.ndatapack, leaves.toggleWeakSpines⟩
      · cases scheme
        have one : (cfg.numUplinks : Int) * 1 ≤ cfg.numUplinks * cfg.failureRatio :=
          Int.mul_le_mul_of_nonneg_left ratio_pos (Int.natCast_nonneg _)
        exact ⟨by dsimp only; omega, by dsimp only; omega, rfl, leaves.ndatapack,
          leaves.toggleWeakSpines⟩
    obtain ⟨positive, most, sets, first, fresh⟩ := others
    have initial := Int.mul_le_mul_of_nonneg_left most (Int.natCast_nonneg cfg.flowcellSizePkts)
    have reach : (cfg.flowcellSizePkts : Int) * (cfg.numUplinks * cfg.failureRatio) ≤
        modulusReach cfg := by
      rw [modulusReach]
      exact_mod_cast Nat.mul_le_mul_left _ (Nat.mul_le_mul_left _ (by omega))
    exact {
      flowCellMod := Int.mul_pos (by exact_mod_cast cell) positive
      rfactor := positive
      rfactor_le := most
      weak := by
        dsimp only
        rw [sets]
        exact leaves.weak
      weak_le := by
        dsimp only
        rw [sets]
        exact leaves.weak_le
      toggled := fun more => absurd fresh more
      reach := by
        dsimp only
        rw [first]
        omega
      first := fun _ => initial }

/-! ### Runs with sound parameters -/

/-- The first packet of a flow with sound parameters and a listed failure is prepared. -/
theorem firstPacket_prepared (listed : 1 ≤ cfg.numFailures) (sound : SoundParameters cfg)
    (e : PacketEnv) : ∃ p, firstPacket cfg e (fresh cfg) = .ok p := by
  cases started : firstPacket cfg e (fresh cfg) with
  | ok p => exact ⟨p, rfl⟩
  | error fault =>
    have blame := (firstPacket_fails cfg e).of_error started
    cases fault with
    | divisionByZero => exact absurd sound blame
    | noFailureRecord =>
      have unlisted : cfg.numFailures = 0 := by rw [SprayConfig.numFailures, blame.1, List.length_nil]
      omega
    | endlessSearch => exact blame.elim

/-- Between packets the agent is fresh, or its divisors are set. -/
def SoundBefore (cfg : SprayConfig) (a : SprayAgent) : Prop :=
  a = fresh cfg ∨ (0 < a.ndatapack ∧ DivisorsSet cfg (ModulusReady cfg) a)

theorem SoundBefore.prepare (listed : 1 ≤ cfg.numFailures) (sound : SoundParameters cfg)
    (before : SoundBefore cfg a) (e : PacketEnv) :
    ∃ p, prepare cfg e a = .ok p ∧ DivisorsSet cfg (ModulusReady cfg) p := by
  rcases before with rfl | ⟨later, set⟩
  · obtain ⟨p, started⟩ := firstPacket_prepared listed sound e
    exact ⟨p, (prepare_first rfl).trans started, firstPacket_divisorsSet sound started⟩
  · exact ⟨a, prepare_later later, set⟩

/-- The bandwidths, the weights and the modulus of the flow are in the range of an `int`. -/
structure IntParameters (cfg : SprayConfig) : Prop where
  bandwidths : 1 < cfg.numFailures → BandwidthsFit cfg
  weights : cfg.failureAware = true → cfg.roundRobin = false → 10 * cfg.numUplinks < 2 ^ 31
  modulus : cfg.failureAware = true → cfg.roundRobin = true → cfg.selectiveSpraying = false →
    modulusReach cfg ≤ 2 ^ 30

/-- What the packet divides by is what `int`s come to. -/
structure DivisorInts (cfg : SprayConfig) (p : SprayAgent) : Prop where
  totalUplinkWeights : cfg.failureAware = true → cfg.roundRobin = false →
    Fits 32 p.totalUplinkWeights
  rfactor : cfg.failureAware = true → cfg.roundRobin = true → cfg.selectiveSpraying = false →
    Fits 32 p.rfactor
  flowCellMod : cfg.failureAware = true → cfg.roundRobin = true → cfg.selectiveSpraying = false →
    Fits 32 p.flowCellMod

theorem DivisorsSet.ints (set : DivisorsSet cfg (ModulusReady cfg) p) (ints : IntParameters cfg)
    (early : p.ndatapack < 2 ^ 30) : DivisorInts cfg p := by
  constructor
  · intro aware draws
    have most := ((set aware).1 draws).2
    have fits := ints.weights aware draws
    exact fits_of_nonneg (Int.natCast_nonneg _) (by omega)
  · intro aware robin sprays
    have modulus := (set aware).2 robin sprays
    have fits := ints.modulus aware robin sprays
    have positive := modulus.rfactor
    obtain ⟨-, weak, -, round⟩ := modulus.parts
    have cell : (1 : Int) ≤ cfg.flowcellSizePkts := by exact_mod_cast cfg.cell_pos
    have packets := Int.mul_le_mul_of_nonneg_right cell positive.le
    exact fits_of_nonneg positive.le (by omega)
  · intro aware robin sprays
    have modulus := (set aware).2 robin sprays
    have fits := ints.modulus aware robin sprays
    have positive := modulus.flowCellMod
    have reach := modulus.reach
    exact fits_of_nonneg positive.le (by omega)

/-- Nothing sets `rfactor` for a selective flow. -/
theorem UnsetModulus.firstPacket (unset : UnsetModulus cfg)
    (started : firstPacket cfg e (fresh cfg) = .ok p) : p.flowCellMod = 0 := by
  obtain ⟨mapped, mapping, started⟩ := bind_eq_ok.mp started
  obtain ⟨b, scheme, started⟩ := bind_eq_ok.mp started
  cases started
  have rfactor := (mapToSpineSet_leaves.of_ok mapping).rfactor
  have placed : Answers (fun b => b.rfactor = mapped.rfactor) (initSelective cfg mapped) := by
    simp only [initSelective]
    split_ifs
    · rfl
    · exact (Ends.any (firstFailure cfg)).bind fun _ _ => Eq.refl mapped.rfactor
    · rfl
    · exact (Ends.any (firstFailure cfg)).bind fun _ _ => Eq.refl mapped.rfactor
  have same : initScheme cfg mapped = initSelective cfg mapped := by
    simp [initScheme, unset.aware, unset.robin, unset.selective, unset.sourceLeaf, unset.destLeaf]
  rw [same] at scheme
  show (cfg.flowcellSizePkts : Int) * b.rfactor = 0
  rw [placed.of_ok scheme, rfactor, Int.mul_zero]

/-- A flow with an unset modulus rotates until it meets the failed spine, where it divides. -/
theorem UnsetModulus.chooseUplink (unset : UnsetModulus cfg) {f : FailedLink}
    {rest : List FailedLink} (listed : cfg.failedLinks = f :: rest) (zero : a.flowCellMod = 0) :
    chooseUplink cfg e a =
      if startsFlowcell cfg a = true ∧ (nextLink cfg a).linkID = f.spine then .error .divisionByZero
      else .ok (rotateFlowcell cfg a) := by
  have zero' : (nextLink cfg a).flowCellMod = 0 := zero
  simp only [Spray.chooseUplink, Spray.staticRoundRobin, unset.aware, unset.robin, unset.fixed,
    unset.selective, unset.sourceLeaf, unset.destLeaf, firstFailure_of_listed listed,
    Spray.rotateFlowcell, onFlowCellMod, zero']
  cases startsFlowcell cfg a
  · simp [pure, Except.pure]
  · simp [bind, Except.bind, pure, Except.pure]

theorem UnsetModulus.divides (unset : UnsetModulus cfg) (listed : 1 ≤ cfg.numFailures)
    (sound : SoundParameters cfg) (envs : Nat → PacketEnv) :
    ∃ k, stampAt cfg envs k = .error .divisionByZero := by
  by_contra never
  obtain ⟨f, rest, first⟩ := List.exists_cons_of_length_pos listed
  obtain ⟨p, started⟩ := firstPacket_prepared listed sound (envs 0)
  have spine : f.spine < cfg.numUplinks := cfg.inRange f (by simp [first])
  have link := ((firstPacket_ends (envs 0) (fresh cfg)).of_ok started).2.2
  -- a flow that never divides rotates on every packet
  have rotates : ∀ j a q, agentAt cfg envs j = .ok a → prepare cfg (envs j) a = .ok q →
      q.flowCellMod = p.flowCellMod →
      ¬(startsFlowcell cfg q = true ∧ (nextLink cfg q).linkID = f.spine) ∧
        Spray.chooseUplink cfg (envs j) q = .ok (Spray.rotateFlowcell cfg q) := by
    intro j a q reached prepared modulus
    have chosen := unset.chooseUplink (e := envs j) first (modulus.trans (unset.firstPacket started))
    split at chosen
    · exact absurd ⟨j, DrivenRun.outputAt_eq_error_iff.mpr ⟨j, le_rfl, a, reached,
        bind_eq_error.mpr (.inr ⟨q, prepared, bind_eq_error.mpr (.inl chosen)⟩)⟩⟩ never
    next other => exact ⟨other, chosen⟩
  -- so it comes to the flowcell whose turn is the failed spine's
  obtain ⟨c, turn⟩ : ∃ c, p.linkID + (c + 1) = f.spine + cfg.numUplinks :=
    ⟨f.spine + cfg.numUplinks - 1 - p.linkID, by omega⟩
  obtain ⟨a, reached, before⟩ := turned_before (k := c * cfg.flowcellSizePkts) started
    fun j _ a q reached prepared modulus => (rotates j a q reached prepared modulus).2
  obtain ⟨q, prepared, count, modulus, turned⟩ := before.prepare started
  have whole : c * cfg.flowcellSizePkts % cfg.flowcellSizePkts = 0 := Nat.mul_mod_left c _
  apply (rotates _ a q reached prepared modulus).1
  rw [startedCells_start cfg.cell_pos whole, Nat.mul_div_cancel _ cfg.cell_pos] at turned
  rw [nextLink_linkID, turned, Nat.mod_add_mod, Nat.add_assoc, turn, Nat.add_mod_right]
  exact ⟨by simp [startsFlowcell, count], Nat.mod_eq_of_lt spine⟩

end Saps.Spray
