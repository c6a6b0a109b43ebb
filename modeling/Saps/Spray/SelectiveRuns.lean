import Saps.Spray.Output
import Saps.Spray.SpineDraw

/-!
# Runs of the selective scheme with several failures

The mapping a flow can reach is described on the configuration alone
(`StartsOn`, `Maps`), and every run is shown to stay within it.
-/
namespace Saps.Spray

open DrivenRun (bind_eq_ok)
open SignedWord (Fits)

variable {cfg : SprayConfig} {e : PacketEnv} {a b : SprayAgent}

/-! ### The search of a spine set -/

theorem nextValidLink_ok (h : nextValidLink cfg a = .ok b) :
    SameFlow a b ∧ b.linkID < cfg.numUplinks ∧
      ∀ svt, mappedSet a = some svt → svt b.linkID ≠ -1 := by
  have inside : (a.linkID + 1) % cfg.numUplinks < cfg.numUplinks := Nat.mod_lt _ cfg.uplinks_pos
  simp only [nextValidLink] at h
  cases named : mappedSet a with
  | none =>
    rw [named] at h
    cases h
    exact ⟨⟨rfl, rfl, rfl, rfl⟩, inside, by simp⟩
  | some svt =>
    simp only [named] at h
    split at h
    next valid found =>
      cases h
      refine ⟨⟨rfl, rfl, rfl, rfl⟩, CyclicSearch.search_lt inside found, ?_⟩
      intro svt' same
      cases same
      simpa using CyclicSearch.search_eq_some found
    · cases h

theorem nextValidLink_endless_iff :
    nextValidLink cfg a = .error .endlessSearch ↔
      ∃ svt, mappedSet a = some svt ∧ ∀ s < cfg.numUplinks, svt s = -1 := by
  have inside : (a.linkID + 1) % cfg.numUplinks < cfg.numUplinks := Nat.mod_lt _ cfg.uplinks_pos
  simp only [nextValidLink]
  cases named : mappedSet a with
  | none => simp
  | some svt =>
    -- one walk round the fabric finds nothing iff the set is empty
    have missed := CyclicSearch.search_eq_none_iff (p := fun s => decide (svt s ≠ -1)) inside
    simp only [decide_eq_false_iff_not, not_not] at missed
    simp only [Option.some.injEq, exists_eq_left', ← missed]
    split
    next valid found =>
      rw [found]
      simp
    next missing =>
      rw [missing]
      simp

/-- The search of a set with a spine in it returns. -/
theorem nextValidLink_returns {svt : Nat → Int} (named : mappedSet a = some svt)
    (filled : ∃ s < cfg.numUplinks, svt s ≠ -1) : ∃ b, nextValidLink cfg a = .ok b := by
  have ends : nextValidLink cfg a ≠ .error .endlessSearch := by
    rw [Ne, nextValidLink_endless_iff]
    rintro ⟨svt', same, empty⟩
    cases named.symm.trans same
    obtain ⟨s, hs, member⟩ := filled
    exact member (empty s hs)
  simp only [nextValidLink] at ends ⊢
  simp only [named] at ends ⊢
  split at ends
  · exact ⟨_, rfl⟩
  · exact absurd rfl ends

/-- A remapped agent differs in its mapping only. -/
theorem remap_eq (a : SprayAgent) :
    remap cfg a = { a with svtMapping := (remap cfg a).svtMapping } := by
  simp only [remap]
  split_ifs <;> rfl

theorem chooseUplink_ndatapack (h : chooseUplink cfg e a = .ok b) :
    b.ndatapack = a.ndatapack := by
  rcases chooseUplink_cases h with ⟨-, searched⟩ | ⟨-, same⟩
  · have same := (nextValidLink_ok searched).1.ndatapack
    rw [remap_eq] at same
    exact same
  · exact same.ndatapack

/-- The classes that the set of a mapping holds. -/
def SpineClass.inSet (svtMapping : Nat) (k : SpineClass) : Prop :=
  if svtMapping = 0 then k.isDirect = false
  else if svtMapping = 1 then k = .directPartial
  else if svtMapping = 10 then k = .clean
  else if svtMapping = 11 then k = .indirectPartial
  else k = .indirectFull

theorem mappedSet_iff {n : Nat} {c : Nat → SpineClass} (h : Represents n c a.sets)
    {svt : Nat → Int} (named : mappedSet a = some svt) (s : Nat) :
    svt s ≠ -1 ↔ (c s).inSet a.svtMapping := by
  simp only [mappedSet] at named
  simp only [SpineClass.inSet]
  split_ifs at named ⊢ <;> cases named <;>
    simp [h.noFailure, h.partialFailure, h.daNoFailure, h.daPartialFailure, h.daFullFailure]

/-- Only the search of a spine set can hang the choice of an uplink. -/
theorem chooseUplink_endless (h : chooseUplink cfg e a = .error .endlessSearch) :
    searchesSpineSet cfg e a = true ∧ nextValidLink cfg (remap cfg a) = .error .endlessSearch := by
  rcases chooseUplink_eq e a with ⟨searches, same⟩ | ⟨-, kept⟩
  · exact ⟨searches, same ▸ h⟩
  · exact absurd rfl (kept.of_error h)

/-! ### The first packet -/

/-- A flow of the selective scheme under several failures. -/
structure Selective (cfg : SprayConfig) : Prop where
  several : 1 < cfg.numFailures
  aware : cfg.failureAware = true
  realistic : cfg.realisticFailure = true
  robin : cfg.roundRobin = true
  selective : cfg.selectiveSpraying = true

/-- What the first packet leaves for a flow that meets several failures. -/
theorem firstPacket_selective (several : 1 < cfg.numFailures)
    (h : firstPacket cfg e (fresh cfg) = .ok a) :
    a.ndatapack = 0 ∧ a.ndatabytes = 0 ∧ a.sets = classify cfg cfg.failedLinks ∧
      ∃ bw, bandwidths cfg a.sets cfg.failureRatio = .ok bw ∧
        chooseSvtMapping cfg a.sets bw e = .ok a.svtMapping := by
  simp only [firstPacket] at h
  obtain ⟨mapped, mapping, h⟩ := bind_eq_ok.mp h
  obtain ⟨started, scheme, h⟩ := bind_eq_ok.mp h
  cases h
  -- the scheme leaves the sets and the mapping as they were drawn
  have same := ((initScheme_keepsFlow mapped).of_ok scheme).1
  simp only [mapToSpineSet] at mapping
  rw [if_pos several] at mapping
  obtain ⟨bw, known, mapping⟩ := bind_eq_ok.mp mapping
  obtain ⟨m, chosen, mapping⟩ := bind_eq_ok.mp mapping
  cases mapping
  refine ⟨same.ndatapack, same.ndatabytes, same.sets, bw, ?_, ?_⟩
  · rw [same.sets]
    exact known
  · rw [same.sets, same.svtMapping]
    exact chosen

/-! ### The mappings a flow can come to -/

/-- Some count of bytes is past the threshold of the weak direct set. -/
def MayLeaveWeak (cfg : SprayConfig) : Prop :=
  cfg.dynamicMapping ≠ 0 ∧ cfg.dynamicMappingThreshold < 2 ^ 31 - 1

/-- Some count of bytes is past the threshold of the indirect sets. -/
def MayLeaveIndirect (cfg : SprayConfig) : Prop :=
  cfg.dynamicMapping ≠ 0 ∧ cfg.dynamicMappingThresholdGL2GL < 2 ^ 31 - 1

instance (cfg : SprayConfig) : Decidable (MayLeaveWeak cfg) :=
  inferInstanceAs (Decidable (_ ∧ _))

instance (cfg : SprayConfig) : Decidable (MayLeaveIndirect cfg) :=
  inferInstanceAs (Decidable (_ ∧ _))

/-- The mappings that some packet of the flow can be routed by. -/
inductive Maps (cfg : SprayConfig) : Nat → Prop
  | start {m : Nat} (starts : StartsOn cfg m) : Maps cfg m
  | leaveWeak (starts : StartsOn cfg 1) (leaves : MayLeaveWeak cfg) :
      Maps cfg (if cfg.daSprayOnly = 1 then 0 else 10)
  | leaveIndirect {m : Nat} (starts : StartsOn cfg m) (indirect : m = 11 ∨ m = 12)
      (leaves : MayLeaveIndirect cfg) : Maps cfg 10

theorem Maps.starts_of_weak {m : Nat} (maps : Maps cfg m) (weak : m = 1 ∨ m = 11 ∨ m = 12) :
    StartsOn cfg m := by
  cases maps with
  | start starts => exact starts
  | leaveWeak starts leaves => split at weak <;> omega
  | leaveIndirect starts indirect leaves => omega

theorem Maps.range {m : Nat} (maps : Maps cfg m) :
    m = 0 ∨ m = 1 ∨ m = 10 ∨ m = 11 ∨ m = 12 := by
  cases maps with
  | start starts => cases starts <;> simp
  | leaveWeak starts leaves =>
    split
    · exact .inl rfl
    · exact .inr (.inr (.inl rfl))
  | leaveIndirect starts indirect leaves => simp

theorem mappedSet_of_maps (maps : Maps cfg a.svtMapping) : ∃ svt, mappedSet a = some svt := by
  have known := maps.range
  simp only [mappedSet]
  split_ifs
  case neg => omega
  all_goals exact ⟨_, rfl⟩

/-- A threshold that a count of bytes is past is not the largest `int`. -/
theorem lt_of_past {threshold : Int} (counted : Fits 32 a.ndatabytes)
    (past : a.ndatabytes > threshold) : threshold < 2 ^ 31 - 1 := by
  have high := (SignedWord.fits_iff.mp counted).2
  omega

theorem remap_maps (maps : Maps cfg a.svtMapping) (counted : Fits 32 a.ndatabytes) :
    Maps cfg (remap cfg a).svtMapping := by
  simp only [remap]
  -- a mapping that is remapped is a weak one, so the flow started on it
  split_ifs with weak overDirect unrelated overIndirect
  · have starts := maps.starts_of_weak weak.2
    rw [overDirect.1] at starts
    have left := Maps.leaveWeak starts ⟨weak.1, lt_of_past counted overDirect.2⟩
    rwa [if_pos unrelated] at left
  · have starts := maps.starts_of_weak weak.2
    rw [overDirect.1] at starts
    have left := Maps.leaveWeak starts ⟨weak.1, lt_of_past counted overDirect.2⟩
    rwa [if_neg unrelated] at left
  · exact .leaveIndirect (maps.starts_of_weak weak.2) overIndirect.1
      ⟨weak.1, lt_of_past counted overIndirect.2⟩
  · exact maps
  · exact maps

/-! ### Runs -/

/-- The agent that packet `k` of a flow under several failures finds prepared. -/
structure Sorted (cfg : SprayConfig) (k : Nat) (a : SprayAgent) : Prop where
  ndatapack : a.ndatapack = k
  counted : Fits 32 a.ndatabytes
  sets : a.sets = classify cfg cfg.failedLinks
  maps : Maps cfg a.svtMapping
  possible : DrawPossible cfg

theorem Sorted.represents {k : Nat} (sorted : Sorted cfg k a) :
    Represents cfg.numUplinks (classOf cfg cfg.failedLinks) a.sets := by
  rw [sorted.sets]
  exact classify_represents cfg cfg.inRange

theorem Sorted.remap {k : Nat} (sorted : Sorted cfg k a) : Sorted cfg k (remap cfg a) := by
  have maps := remap_maps sorted.maps sorted.counted
  rw [remap_eq]
  exact ⟨sorted.ndatapack, sorted.counted, sorted.sets, maps, sorted.possible⟩

theorem chooseUplink_sorted {k : Nat} (sorted : Sorted cfg k a)
    (h : chooseUplink cfg e a = .ok b) : Sorted cfg k b := by
  rcases chooseUplink_cases h with ⟨-, searched⟩ | ⟨-, same⟩
  · obtain ⟨same, -⟩ := nextValidLink_ok searched
    have remapped := sorted.remap
    exact ⟨same.ndatapack.trans remapped.ndatapack, same.ndatabytes ▸ remapped.counted,
      same.sets.trans remapped.sets, same.svtMapping ▸ remapped.maps, remapped.possible⟩
  · exact ⟨same.ndatapack.trans sorted.ndatapack, same.ndatabytes ▸ sorted.counted,
      same.sets.trans sorted.sets, same.svtMapping ▸ sorted.maps, sorted.possible⟩

/-- What a run carries from packet to packet: nothing yet, or a sorted agent. -/
def SortedBefore (cfg : SprayConfig) (k : Nat) (a : SprayAgent) : Prop :=
  (k = 0 ∧ a = fresh cfg) ∨ (0 < k ∧ Sorted cfg k a)

theorem SortedBefore.ndatapack {k : Nat} (before : SortedBefore cfg k a) : a.ndatapack = k := by
  rcases before with ⟨rfl, rfl⟩ | ⟨-, sorted⟩
  · rfl
  · exact sorted.ndatapack

theorem SortedBefore.prepare {k : Nat} (several : 1 < cfg.numFailures)
    (before : SortedBefore cfg k a) (h : prepare cfg e a = .ok b) : Sorted cfg k b := by
  rcases before with ⟨rfl, rfl⟩ | ⟨started, sorted⟩
  · -- the first packet classifies the spines and draws a mapping
    rw [prepare_first rfl] at h
    obtain ⟨count, bytes, sets, bw, known, chosen⟩ := firstPacket_selective several h
    have represents : Represents cfg.numUplinks (classOf cfg cfg.failedLinks) b.sets := by
      rw [sets]
      exact classify_represents cfg cfg.inRange
    obtain ⟨possible, starts⟩ := chooseSvtMapping_startsOn represents known chosen
    exact ⟨count, bytes ▸ by decide, sets, .start starts, possible⟩
  · -- every later one finds them as they are
    rw [prepare_later (by rwa [sorted.ndatapack])] at h
    cases h
    exact sorted

theorem SortedBefore.output {k : Nat} {st : Stamp} (several : 1 < cfg.numFailures)
    (before : SortedBefore cfg k a) (h : output cfg e a = .ok (b, st)) :
    SortedBefore cfg (k + 1) b := by
  obtain ⟨p, q, prepared, chosen, rfl, -⟩ := output_ok h
  obtain ⟨ndatapack, -, sets, maps, possible⟩ :=
    chooseUplink_sorted (before.prepare several prepared) chosen
  exact .inr ⟨Nat.succ_pos k, by simp [ndatapack], SignedWord.fits_wrap 32 _, sets, maps, possible⟩

/-- Every run of a flow under several failures keeps its agent sorted. -/
theorem agentAt_sortedBefore (several : 1 < cfg.numFailures) {envs : Nat → PacketEnv} {k : Nat}
    (reached : agentAt cfg envs k = .ok a) : SortedBefore cfg k a :=
  DrivenRun.invariant (.inl ⟨rfl, rfl⟩)
    (fun _ _ _ _ before answer => before.output several answer) reached

end Saps.Spray
