import Saps.Spray.SelectiveRuns

/-!
# Where a selective flow may send

Two properties of whole runs under several failures: the spine of every new
flowcell respects the policy of the scheme, and a flow that has left a weak set
stays away from the weak sets.
-/
namespace Saps.Spray

open DrivenRun (bind_eq_ok)

variable {cfg : SprayConfig} {e : PacketEnv} {a b : SprayAgent}

/-! ### Confinement of new flowcells -/

/-- Healthy-path-only flows are mapped to the spines without a direct failure. -/
theorem Maps.healthyPathOnly {m : Nat} (maps : Maps cfg m) (healthy : cfg.healthyPathOnly = true) :
    m = 0 := by
  have start : ∀ {m : Nat}, StartsOn cfg m → m = 0 := by
    intro m starts
    cases starts <;> simp_all
  cases maps with
  | start starts => exact start starts
  | leaveWeak starts leaves => exact absurd (start starts) (by decide)
  | leaveIndirect starts indirect leaves => exact absurd (start starts) (by omega)

/-- Flows that ignore indirect failures never use the sets made from them. -/
theorem Maps.daSprayOnly {m : Nat} (maps : Maps cfg m) (unrelated : cfg.daSprayOnly = 1) :
    m = 0 ∨ m = 1 := by
  have start : ∀ {m : Nat}, StartsOn cfg m → m = 0 ∨ m = 1 := by
    intro m starts
    cases starts <;> simp_all
  cases maps with
  | start starts => exact start starts
  | leaveWeak starts leaves => simp [unrelated]
  | leaveIndirect starts indirect leaves =>
    have weak := start starts
    omega

theorem SpineClass.inSet_ne_directFull {m : Nat} {k : SpineClass} (inside : k.inSet m) :
    k ≠ .directFull := by
  rintro rfl
  simp only [SpineClass.inSet] at inside
  split_ifs at inside
  cases inside

/-- A search that returns has stamped a spine of the mapped set. -/
theorem searched_inSet {k : Nat} (sorted : Sorted cfg k a)
    (h : nextValidLink cfg (remap cfg a) = .ok b) :
    Maps cfg b.svtMapping ∧ (classOf cfg cfg.failedLinks b.linkID).inSet b.svtMapping := by
  obtain ⟨same, -, valid⟩ := nextValidLink_ok h
  have remapped := sorted.remap
  obtain ⟨svt, named⟩ := mappedSet_of_maps remapped.maps
  rw [same.svtMapping]
  exact ⟨remapped.maps,
    (mappedSet_iff remapped.represents named b.linkID).mp (valid svt named)⟩

/-- Every flowcell that starts while the failure is detected is confined to the
spines that the policy of the flow allows. -/
theorem selectiveFlowcell_confined (cfg : SprayConfig) (envs : Nat → PacketEnv)
    (scheme : Selective cfg) {k : Nat} {a b : SprayAgent} {st : Stamp}
    (reached : agentAt cfg envs k = .ok a) (sent : output cfg (envs k) a = .ok (b, st))
    (detected : cfg.failureDetected (envs k).now = true) (starts : startsFlowcell cfg a = true) :
    (∀ f ∈ cfg.failedLinks, f.failureRatio = 100 → f.spine = st.linkID → cfg.direct f = false) ∧
    (cfg.healthyPathOnly = true →
      ∀ f ∈ cfg.failedLinks, f.spine = st.linkID → cfg.direct f = false) ∧
    (cfg.daSprayOnly = 1 → b.svtMapping = 0 ∨ b.svtMapping = 1) ∧
    (b.svtMapping = 10 → ∀ f ∈ cfg.failedLinks, f.spine ≠ st.linkID) := by
  obtain ⟨p, q, prepared, chosen, rfl, rfl⟩ := output_ok sent
  have sorted := (agentAt_sortedBefore scheme.several reached).prepare scheme.several prepared
  have starts' : startsFlowcell cfg p = true := by
    rw [startsFlowcell, (prepare_counts prepared).1]
    exact starts
  have searches : searchesSpineSet cfg (envs k) p = true := by
    simp [searchesSpineSet, scheme.aware, scheme.realistic, scheme.robin, scheme.selective,
      scheme.several, detected, starts']
  have searched : nextValidLink cfg (remap cfg p) = .ok q := by
    rcases chooseUplink_cases chosen with ⟨-, searched⟩ | ⟨other, -⟩
    · exact searched
    · rw [searches] at other
      cases other
  obtain ⟨maps, inside⟩ := searched_inSet sorted searched
  have notFull := SpineClass.inSet_ne_directFull inside
  refine ⟨?_, ?_, fun unrelated => maps.daSprayOnly unrelated, ?_⟩
  · -- no set holds a spine with a full direct failure
    intro f listed full here
    by_contra direct
    rw [Bool.not_eq_false] at direct
    exact notFull ((classOf_eq_directFull_iff cfg _ _).mpr ⟨f, listed, here, direct, full⟩)
  · -- the mapping can only be 0, whose set holds no direct failure at all
    intro healthy f listed here
    have mapping := maps.healthyPathOnly healthy
    rw [mapping] at inside
    have undirected : (classOf cfg cfg.failedLinks q.linkID).isDirect = false := inside
    by_contra direct
    rw [Bool.not_eq_false] at direct
    rw [(isDirect_classOf_iff cfg _ _).mpr ⟨f, listed, here, direct⟩] at undirected
    cases undirected
  -- set 10 holds spines without any failure only
  · intro mapping
    have mapping : q.svtMapping = 10 := mapping
    rw [mapping] at inside
    exact (classOf_eq_clean_iff cfg _ _).mp inside

/-- Two leaves share spine 1 out of four, and each has a failed link to it. -/
def twoDirectFailures : SprayConfig where
  numUplinks := 4
  failedLinks := [⟨0, 1, 10⟩, ⟨3, 1, 100⟩, ⟨1, 2, 100⟩]
  uplinks_pos := fourUplinks_pos
  inRange := by decide
  flowcellSizePkts := 2
  cell_pos := Nat.two_pos
  failureAware := true
  realisticFailure := true
  roundRobin := true
  selectiveSpraying := true
  healthyPathOnly := false
  daSprayOnly := 0
  daFlow := false
  poorPathFlow := false
  failureCase := 1
  failureRatio := 10
  fromFailedLeaf := true
  toFailedLeaf := false
  srcLeaf := 0
  destLeaf := 3
  dynamicMapping := 1
  dynamicMappingThreshold := 100000
  dynamicMappingThresholdGL2GL := 100000
  healthyLinkCapacity := 40
  flowsizeBytes := 1000000
  timing := ⟨0, 0, 0⟩

/-- A packet sent after the failure is known; every draw is zero. -/
def lateEnv : PacketEnv where
  now := 1
  databytes := 1500
  incomingTrafficToDestLeaf := 1
  randNumTotalBW := 0
  randNumHealthyBW := 0
  randNumDaIndirectFailureBW := 0
  randomNumber := 0
  randomUplink := 0

theorem selectiveFlowcell_confined_twoDirectFailures :
    ∃ b st, output twoDirectFailures lateEnv (fresh twoDirectFailures) = .ok (b, st) ∧
      ∀ f ∈ twoDirectFailures.failedLinks, f.failureRatio = 100 → f.spine = st.linkID →
        twoDirectFailures.direct f = false := by
  obtain ⟨⟨b, st⟩, sent⟩ := DrivenRun.exists_of_isOk
    (x := output twoDirectFailures lateEnv (fresh twoDirectFailures)) (by decide +kernel)
  have confined := selectiveFlowcell_confined twoDirectFailures (fun _ => lateEnv)
    ⟨by decide, rfl, rfl, rfl, rfl⟩ (k := 0) rfl sent (by decide +kernel) rfl
  exact ⟨b, st, sent, confined.1⟩

/-! ### Weak sets are left for good -/

/-- The sets of spines that some listed failure touches. -/
def OnWeakSet (svtMapping : Nat) : Prop := svtMapping = 1 ∨ svtMapping = 11 ∨ svtMapping = 12

/-- The only changes of a mapping after it has been drawn. -/
inductive Leaves : Nat → Nat → Prop
  | weakToHealthy : Leaves 1 0
  | weakToUnrelated : Leaves 1 10
  | indirectPartial : Leaves 11 10
  | indirectFull : Leaves 12 10

theorem Leaves.not_weak {m m' : Nat} (leaves : Leaves m m') : ¬OnWeakSet m' := by
  cases leaves <;> simp [OnWeakSet]

theorem remap_leaves (a : SprayAgent) :
    (remap cfg a).svtMapping = a.svtMapping ∨ Leaves a.svtMapping (remap cfg a).svtMapping := by
  simp only [remap]
  split_ifs with weak overDirect unrelated overIndirect
  · rw [overDirect.1]
    exact .inr .weakToHealthy
  · rw [overDirect.1]
    exact .inr .weakToUnrelated
  · rcases overIndirect.1 with mapping | mapping <;> rw [mapping]
    · exact .inr .indirectPartial
    · exact .inr .indirectFull
  · exact .inl rfl
  · exact .inl rfl

/-- Under dynamic mapping a weak set is kept only below its threshold. -/
theorem remap_below (a : SprayAgent) (dynamic : cfg.dynamicMapping ≠ 0) :
    ((remap cfg a).svtMapping = 1 → a.ndatabytes ≤ cfg.dynamicMappingThreshold) ∧
    ((remap cfg a).svtMapping = 11 ∨ (remap cfg a).svtMapping = 12 →
      a.ndatabytes ≤ cfg.dynamicMappingThresholdGL2GL) := by
  simp only [remap]
  split_ifs with weak overDirect unrelated overIndirect
  · simp
  · simp
  · simp
  · -- a weak set that was kept has not passed its threshold
    constructor <;> intro mapping
    · by_contra past
      exact overDirect ⟨mapping, by omega⟩
    · by_contra past
      exact overIndirect ⟨mapping, by omega⟩
  · -- the mapping was not weak to begin with
    constructor <;> intro mapping
    · exact absurd ⟨dynamic, .inl mapping⟩ weak
    · exact absurd ⟨dynamic, .inr mapping⟩ weak

theorem chooseUplink_leaves (h : chooseUplink cfg e a = .ok b) :
    b.svtMapping = a.svtMapping ∨ Leaves a.svtMapping b.svtMapping := by
  rcases chooseUplink_cases h with ⟨-, searched⟩ | ⟨-, same⟩
  · rw [(nextValidLink_ok searched).1.svtMapping]
    exact remap_leaves a
  · exact .inl same.svtMapping

/-- A search on a weak set is one below its threshold. -/
theorem searched_below (dynamic : cfg.dynamicMapping ≠ 0) {st : Stamp}
    (searches : searchesSpineSet cfg e a = true) (sent : output cfg e a = .ok (b, st)) :
    (b.svtMapping = 1 → a.ndatabytes ≤ cfg.dynamicMappingThreshold) ∧
    (b.svtMapping = 11 ∨ b.svtMapping = 12 → a.ndatabytes ≤ cfg.dynamicMappingThresholdGL2GL) := by
  obtain ⟨p, q, prepared, chosen, rfl, -⟩ := output_ok sent
  obtain ⟨packs, bytes⟩ := prepare_counts prepared
  have same : searchesSpineSet cfg e p = searchesSpineSet cfg e a := by
    simp only [searchesSpineSet, startsFlowcell, packs]
  rcases chooseUplink_cases chosen with ⟨-, searched⟩ | ⟨other, -⟩
  · -- the bytes that count are those sent before the packet
    dsimp only
    rw [(nextValidLink_ok searched).1.svtMapping, ← bytes]
    exact remap_below p dynamic
  · rw [same, searches] at other
    cases other

/-- Without dynamic mapping a long flow is never given the sets that are closed to it. -/
theorem Maps.static_long {m : Nat} (maps : Maps cfg m) (static : cfg.dynamicMapping = 0) :
    (cfg.flowsizeBytes ≥ cfg.dynamicMappingThreshold → m ≠ 1) ∧
    (cfg.flowsizeBytes ≥ cfg.dynamicMappingThresholdGL2GL → m ≠ 11 ∧ m ≠ 12) := by
  cases maps with
  | start starts =>
    cases starts <;> simp_all [mayStartWeak, mayStartIndirect]
  | leaveWeak starts leaves => exact absurd static leaves.1
  | leaveIndirect starts indirect leaves => exact absurd static leaves.1

theorem output_leaves {st : Stamp} {k : Nat} (started : a.ndatapack = k + 1)
    (h : output cfg e a = .ok (b, st)) :
    b.svtMapping = a.svtMapping ∨ Leaves a.svtMapping b.svtMapping := by
  obtain ⟨p, q, prepared, chosen, rfl, -⟩ := output_ok h
  rw [prepare_later (by omega)] at prepared
  cases prepared
  have leaves := chooseUplink_leaves chosen
  exact leaves

/-- Between two packets of a run the mapping is kept or a weak set is left. -/
theorem agentAt_weak_kept (several : 1 < cfg.numFailures) {envs : Nat → PacketEnv} {j k : Nat}
    (started : 0 < j) (before : j ≤ k) (earlier : agentAt cfg envs j = .ok a)
    (later : agentAt cfg envs k = .ok b) (weak : OnWeakSet b.svtMapping) :
    a.svtMapping = b.svtMapping := by
  -- a run on a weak set has been on it ever since packet `j`
  let I : Nat → SprayAgent → Prop := fun k s =>
    SortedBefore cfg k s ∧ (OnWeakSet s.svtMapping → a.svtMapping = s.svtMapping)
  have kept : I k b := by
    refine DrivenRun.invariant_from (m := j) ?_ ?_ before later
    · intro s reached
      cases earlier.symm.trans reached
      exact ⟨agentAt_sortedBefore several earlier, fun _ => rfl⟩
    · rintro i s t st after ⟨sorted, same⟩ answer
      refine ⟨sorted.output several answer, fun weak => ?_⟩
      have count : s.ndatapack = (i - 1) + 1 := by rw [sorted.ndatapack]; omega
      rcases output_leaves count answer with unchanged | leaves
      · rw [unchanged] at weak ⊢
        exact same weak
      · exact absurd weak leaves.not_weak
  exact kept.2 weak

/-- The mapping of a flow over a whole run: it only ever leaves weak sets, dynamic
mapping bounds the bytes sent on them, and static mapping closes them to long flows. -/
theorem weakSets_leftForGood (cfg : SprayConfig) (envs : Nat → PacketEnv)
    (several : 1 < cfg.numFailures) :
    (∀ k a b st, 0 < k → agentAt cfg envs k = .ok a → output cfg (envs k) a = .ok (b, st) →
      b.svtMapping = a.svtMapping ∨ Leaves a.svtMapping b.svtMapping) ∧
    (∀ j k a b, 0 < j → j ≤ k → agentAt cfg envs j = .ok a → agentAt cfg envs k = .ok b →
      OnWeakSet b.svtMapping → a.svtMapping = b.svtMapping) ∧
    (cfg.dynamicMapping = 1 → ∀ k a b st, agentAt cfg envs k = .ok a →
      searchesSpineSet cfg (envs k) a = true → output cfg (envs k) a = .ok (b, st) →
      (b.svtMapping = 1 → a.ndatabytes ≤ cfg.dynamicMappingThreshold) ∧
      (b.svtMapping = 11 ∨ b.svtMapping = 12 →
        a.ndatabytes ≤ cfg.dynamicMappingThresholdGL2GL)) ∧
    (cfg.dynamicMapping = 0 → ∀ k a p, agentAt cfg envs k = .ok a →
      prepare cfg (envs k) a = .ok p →
      (cfg.flowsizeBytes ≥ cfg.dynamicMappingThreshold → p.svtMapping ≠ 1) ∧
      (cfg.flowsizeBytes ≥ cfg.dynamicMappingThresholdGL2GL →
        p.svtMapping ≠ 11 ∧ p.svtMapping ≠ 12)) := by
  refine ⟨?_, ?_, ?_, ?_⟩
  · intro k a b st started reached sent
    have count := (agentAt_sortedBefore several reached).ndatapack
    exact output_leaves (k := k - 1) (by omega) sent
  · intro j k a b started before earlier later weak
    exact agentAt_weak_kept several started before earlier later weak
  · intro dynamic k a b st _ searches sent
    exact searched_below (by omega) searches sent
  · intro static k a p reached prepared
    have sorted := (agentAt_sortedBefore several reached).prepare several prepared
    exact sorted.maps.static_long static

/-- A degraded spine for the flow's pair, one that failed elsewhere, and two without a failure. -/
def degradedSpine : SprayConfig :=
  { twoDirectFailures with
    failedLinks := [⟨0, 1, 10⟩, ⟨1, 2, 100⟩]
    inRange := by decide
    dynamicMappingThreshold := 2000 }

/-- The flow starts on the degraded spine and leaves it with its second flowcell, when 3000 bytes
are past the threshold of 2000. -/
theorem weakSets_leftForGood_degradedSpine :
    (∃ b st, output degradedSpine lateEnv (fresh degradedSpine) = .ok (b, st) ∧
      b.svtMapping = 1 ∧ (fresh degradedSpine).ndatabytes ≤ 2000) ∧
    ∃ a b st, agentAt degradedSpine (fun _ => lateEnv) 2 = .ok a ∧
      output degradedSpine lateEnv a = .ok (b, st) ∧ a.ndatabytes = 3000 ∧
      b.svtMapping = 10 ∧ Leaves a.svtMapping b.svtMapping := by
  obtain ⟨step, -, below, -⟩ :=
    weakSets_leftForGood degradedSpine (fun _ => lateEnv) (by decide)
  constructor
  · obtain ⟨⟨b, st⟩, sent, weak⟩ := DrivenRun.exists_of_any
      (x := output degradedSpine lateEnv (fresh degradedSpine))
      (p := fun (b, _) => decide (b.svtMapping = 1)) (by decide +kernel)
    have weak : b.svtMapping = 1 := of_decide_eq_true weak
    exact ⟨b, st, sent, weak, (below rfl 0 _ b st rfl (by decide +kernel) sent).1 weak⟩
  · obtain ⟨a, reached, settled⟩ := DrivenRun.exists_of_any
      (x := agentAt degradedSpine (fun _ => lateEnv) 2)
      (p := fun a => decide (a.svtMapping = 1 ∧ a.ndatabytes = 3000 ∧
        (output degradedSpine lateEnv a).toOption.any fun (b, _) => decide (b.svtMapping = 10)))
      (by decide +kernel)
    obtain ⟨weak, bytes, left⟩ := of_decide_eq_true settled
    obtain ⟨⟨b, st⟩, sent, unrelated⟩ := DrivenRun.exists_of_any left
    have unrelated : b.svtMapping = 10 := of_decide_eq_true unrelated
    refine ⟨a, b, st, reached, sent, bytes, unrelated, ?_⟩
    exact (step 2 a b st (by decide) reached sent).resolve_left (by omega)

end Saps.Spray
