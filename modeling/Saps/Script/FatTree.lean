import Mathlib.Algebra.Group.Nat.Even
import Mathlib.Order.Interval.Set.Nat
import Mathlib.Tactic.Ring
import Saps.Library.RowMajor

/-!
# The fat tree

The nodes and the links that the script creates for `TOPOLOGY == "FATTREE"`: `K` pods of
`K / 2` ToRs and `K / 2` aggregation switches, under `K * K / 4` cores. A link is duplex.
-/
namespace Saps.Script.FatTree

open RowMajor

/-! ### The nodes -/

def numNodesPerPod (K : Nat) : Nat := K / 2

def numHostsPerTor (K : Nat) : Nat := K / 2

def numCores (K : Nat) : Nat := K * K / 4

/-- The indices of `core`. -/
def cores (K : Nat) : List Nat := List.range (numCores K)

/-- The indices of `aggr` and of `tor`, which one loop creates. -/
def switches (K : Nat) : List Nat :=
  loops₂ K (numNodesPerPod K) fun i j => i * numNodesPerPod K + j

/-- The indices of `host`. -/
def hosts (K : Nat) : List Nat :=
  loops₃ K (numNodesPerPod K) (numHostsPerTor K) fun i j k =>
    (i * numNodesPerPod K + j) * numHostsPerTor K + k

/-! ### The links -/

inductive Link where
  | host (tor host : Nat)
  | pod (tor aggr : Nat)
  | core (core aggr : Nat)
deriving DecidableEq, Repr

def hostLinks (K : Nat) : List Link :=
  loops₃ K (numNodesPerPod K) (numHostsPerTor K) fun i j k =>
    let tIndex := i * numNodesPerPod K + j
    .host tIndex (tIndex * numHostsPerTor K + k)

/-- The links inside the pods. -/
def podLinks (K : Nat) : List Link :=
  loops₃ K (numNodesPerPod K) (K / 2) fun i j k =>
    .pod (i * numNodesPerPod K + k) (i * numNodesPerPod K + j)

/-- The links between the aggregation tier and the core tier. -/
def coreLinks (K : Nat) : List Link :=
  loops₃ K (numNodesPerPod K) (K / 2) fun i j k =>
    .core (j * (K / 2) + k) (i * numNodesPerPod K + j)

def links (K : Nat) : List Link := hostLinks K ++ podLinks K ++ coreLinks K

/-! ### What the topology is for -/

/-- The switches of pod `i`, ToRs and aggregation switches alike. -/
def InPod (K i index : Nat) : Prop := ∃ j < numNodesPerPod K, i * numNodesPerPod K + j = index

/-- The ends of the link were created. -/
def Link.InRange (K : Nat) : Link → Prop
  | .host t h => t ∈ switches K ∧ h ∈ hosts K
  | .pod t a => t ∈ switches K ∧ a ∈ switches K
  | .core c a => c ∈ cores K ∧ a ∈ switches K

/-- The switches between two ToRs: ToR, aggregation switch, core, aggregation switch, ToR. -/
structure Path where
  up : Nat
  core : Nat
  down : Nat
deriving DecidableEq, Repr

def Joins (K tor tor' : Nat) (p : Path) : Prop :=
  .pod tor p.up ∈ links K ∧ .core p.core p.up ∈ links K ∧
    .core p.core p.down ∈ links K ∧ .pod tor' p.down ∈ links K

structure PathDiversity (K : Nat) : Prop where
  core_aggr : ∀ c ∈ cores K, ∀ i < K, ∃! a, InPod K i a ∧ .core c a ∈ links K
  aggr_cores : ∀ a ∈ switches K, {c | .core c a ∈ links K}.ncard = K / 2
  aggr_tors : ∀ i < K, ∀ a, InPod K i a →
    (∀ tor, .pod tor a ∈ links K ↔ InPod K i tor) ∧ {tor | InPod K i tor}.ncard = K / 2
  once : (links K).Nodup
  inRange : ∀ link ∈ links K, link.InRange K
  paths : ∀ i < K, ∀ i' < K, i ≠ i' → ∀ tor tor', InPod K i tor → InPod K i' tor' →
    {p | Joins K tor tor' p}.ncard = K * K / 4 ∧
    (∀ p, Joins K tor tor' p → p.core ∈ cores K) ∧
    ∀ c ∈ cores K, ∃! p, Joins K tor tor' p ∧ p.core = c

variable {K i i' a c j k tor tor' : Nat}

/-! ### Which links there are -/

theorem mem_switches : a ∈ switches K ↔ ∃ i < K, InPod K i a := mem_loops₂

theorem numCores_eq (even : Even K) : numCores K = K / 2 * (K / 2) := by
  obtain ⟨h, rfl⟩ := even
  have half : (h + h) / 2 = h := by omega
  have square : (h + h) * (h + h) = h * h * 4 := by ring
  rw [numCores, half, square, Nat.mul_div_cancel _ (Nat.succ_pos 3)]

theorem pod_mem_links : .pod tor a ∈ links K ↔ ∃ i < K, InPod K i tor ∧ InPod K i a := by
  simp only [links, hostLinks, podLinks, coreLinks, List.mem_append, mem_loops₃, InPod,
    numNodesPerPod, Link.pod.injEq, reduceCtorEq, and_false, exists_false, or_false, false_or]
  constructor
  · rintro ⟨i, pod, j, aggr, k, torInPod, rfl, rfl⟩
    exact ⟨i, pod, ⟨k, torInPod, rfl⟩, j, aggr, rfl⟩
  · rintro ⟨i, pod, ⟨k, torInPod, rfl⟩, j, aggr, rfl⟩
    exact ⟨i, pod, j, aggr, k, torInPod, rfl, rfl⟩

theorem core_mem_links :
    .core c a ∈ links K ↔ ∃ i < K, ∃ j < K / 2, ∃ k < K / 2,
      j * (K / 2) + k = c ∧ i * (K / 2) + j = a := by
  simp [links, hostLinks, podLinks, coreLinks, mem_loops₃, numNodesPerPod]

/-- Core `k` of the aggregation switches at position `j` of their pods. -/
theorem core_index_mem_links (position : j < K / 2) (core : k < K / 2) :
    .core (j * (K / 2) + k) a ∈ links K ↔ ∃ i < K, i * (K / 2) + j = a := by
  rw [core_mem_links]
  constructor
  · rintro ⟨i, pod, j', position', k', core', same, rfl⟩
    obtain ⟨rfl, -⟩ := index_inj core' core same
    exact ⟨i, pod, rfl⟩
  · rintro ⟨i, pod, rfl⟩
    exact ⟨i, pod, j, position, k, core, rfl, rfl⟩

/-- The cores of the aggregation switch at position `j` of pod `i`. -/
theorem mem_links_aggr (pod : i < K) (position : j < K / 2) :
    .core c (i * (K / 2) + j) ∈ links K ↔ ∃ k < K / 2, j * (K / 2) + k = c := by
  rw [core_mem_links]
  constructor
  · rintro ⟨i', pod', j', position', k, core, rfl, same⟩
    obtain ⟨-, rfl⟩ := index_inj position' position same
    exact ⟨k, core, rfl⟩
  · rintro ⟨k, core, rfl⟩
    exact ⟨i, pod, j, position, k, core, rfl, rfl⟩

theorem inPod_unique (first : InPod K i a) (second : InPod K i' a) : i = i' := by
  obtain ⟨j, position, rfl⟩ := first
  obtain ⟨j', position', same⟩ := second
  exact (index_inj position position' same.symm).1

/-! ### The parts of the theorem -/

theorem mem_cores (even : Even K) :
    c ∈ cores K ↔ ∃ j < K / 2, ∃ k < K / 2, j * (K / 2) + k = c := by
  rw [cores, List.mem_range, numCores_eq even]
  constructor
  · exact exists_index
  · rintro ⟨j, position, k, core, rfl⟩
    exact index_lt position core

theorem core_aggr (even : Even K) (created : c ∈ cores K) (pod : i < K) :
    ∃! a, InPod K i a ∧ .core c a ∈ links K := by
  obtain ⟨j, position, k, core, rfl⟩ := (mem_cores even).mp created
  -- core `k` of position `j` is linked to the switch at this position
  refine ⟨i * (K / 2) + j, ⟨⟨j, position, rfl⟩, ?_⟩, ?_⟩
  · exact (core_index_mem_links position core).mpr ⟨i, pod, rfl⟩
  · rintro a ⟨inPod, linked⟩
    obtain ⟨i', pod', rfl⟩ := (core_index_mem_links position core).mp linked
    rw [inPod_unique inPod ⟨j, position, rfl⟩]

/-- The indices of a row are as many as its columns. -/
theorem ncard_row (i n : Nat) : {x | ∃ j < n, i * n + j = x}.ncard = n := by
  have row : {x | ∃ j < n, i * n + j = x} = (i * n + ·) '' Set.Iio n := rfl
  rw [row, Set.ncard_image_of_injective _ (add_right_injective _), Set.ncard_Iio_nat]

theorem aggr_cores (created : a ∈ switches K) : {c | .core c a ∈ links K}.ncard = K / 2 := by
  obtain ⟨i, pod, j, position, rfl⟩ := mem_switches.mp created
  have cores : {c | .core c (i * (K / 2) + j) ∈ links K} = {c | ∃ k < K / 2, j * (K / 2) + k = c} :=
    Set.ext fun c => mem_links_aggr pod position
  exact (congrArg Set.ncard cores).trans (ncard_row j (K / 2))

theorem aggr_tors (pod : i < K) (inPod : InPod K i a) : .pod tor a ∈ links K ↔ InPod K i tor := by
  rw [pod_mem_links]
  constructor
  · rintro ⟨i', pod', torInPod, aggrInPod⟩
    rw [inPod_unique inPod aggrInPod]
    exact torInPod
  · intro torInPod
    exact ⟨i, pod, torInPod, inPod⟩

theorem hostLinks_nodup (K : Nat) : (hostLinks K).Nodup := by
  apply nodup_loops₃
  intro i _ j hj k hk i' _ j' hj' k' hk' same
  injection same with tor host
  obtain ⟨rfl, rfl⟩ := index_inj hj hj' tor
  exact ⟨rfl, rfl, (index_inj hk hk' host).2⟩

theorem podLinks_nodup (K : Nat) : (podLinks K).Nodup := by
  apply nodup_loops₃
  intro i _ j hj k hk i' _ j' hj' k' hk' same
  injection same with tor aggr
  obtain ⟨rfl, rfl⟩ := index_inj hj hj' aggr
  exact ⟨rfl, rfl, (index_inj hk hk' tor).2⟩

theorem coreLinks_nodup (K : Nat) : (coreLinks K).Nodup := by
  apply nodup_loops₃
  intro i _ j hj k hk i' _ j' hj' k' hk' same
  injection same with core aggr
  obtain ⟨rfl, rfl⟩ := index_inj hj hj' aggr
  exact ⟨rfl, rfl, (index_inj hk hk' core).2⟩

/-- The three loops create links of different kinds. -/
theorem links_nodup (K : Nat) : (links K).Nodup := by
  rw [links, List.nodup_append, List.nodup_append]
  -- no link of one loop is of the kind of another
  refine ⟨⟨hostLinks_nodup K, podLinks_nodup K, ?_⟩, coreLinks_nodup K, ?_⟩
  · rintro _ host _ pod rfl
    obtain ⟨_, _, _, _, _, _, rfl⟩ := mem_loops₃.mp host
    obtain ⟨_, _, _, _, _, _, same⟩ := mem_loops₃.mp pod
    cases same
  · rintro _ other _ core rfl
    obtain ⟨_, _, _, _, _, _, rfl⟩ := mem_loops₃.mp core
    rcases List.mem_append.mp other with host | pod
    · obtain ⟨_, _, _, _, _, _, same⟩ := mem_loops₃.mp host
      cases same
    · obtain ⟨_, _, _, _, _, _, same⟩ := mem_loops₃.mp pod
      cases same

theorem links_inRange (even : Even K) {link : Link} (created : link ∈ links K) :
    link.InRange K := by
  rcases List.mem_append.mp created with lower | core
  · rcases List.mem_append.mp lower with host | pod
    · obtain ⟨i, hi, j, hj, k, hk, rfl⟩ := mem_loops₃.mp host
      exact ⟨mem_loops₂.mpr ⟨i, hi, j, hj, rfl⟩, mem_loops₃.mpr ⟨i, hi, j, hj, k, hk, rfl⟩⟩
    · obtain ⟨i, hi, j, hj, k, hk, rfl⟩ := mem_loops₃.mp pod
      exact ⟨mem_loops₂.mpr ⟨i, hi, k, hk, rfl⟩, mem_loops₂.mpr ⟨i, hi, j, hj, rfl⟩⟩
  · obtain ⟨i, hi, j, hj, k, hk, rfl⟩ := mem_loops₃.mp core
    exact ⟨(mem_cores even).mpr ⟨j, hj, k, hk, rfl⟩, mem_loops₂.mpr ⟨i, hi, j, hj, rfl⟩⟩

/-! ### The paths between two ToRs -/

/-- The path through core `c`: the aggregation switches on it are at the same position. -/
def pathThrough (K i i' c : Nat) : Path :=
  ⟨i * (K / 2) + c / (K / 2), c, i' * (K / 2) + c / (K / 2)⟩

theorem joins_iff (even : Even K) (pod : i < K) (pod' : i' < K) (inPod : InPod K i tor)
    (inPod' : InPod K i' tor') (p : Path) :
    Joins K tor tor' p ↔ ∃ c ∈ cores K, pathThrough K i i' c = p := by
  constructor
  · rintro ⟨up, rise, fall, down⟩
    obtain ⟨h, podUp, torUp, j, position, aggrUp⟩ := pod_mem_links.mp up
    obtain ⟨h', podDown, torDown, j', position', aggrDown⟩ := pod_mem_links.mp down
    obtain rfl := inPod_unique inPod torUp
    obtain rfl := inPod_unique inPod' torDown
    -- the core is one of those of both aggregation switches, so their positions agree
    rw [← aggrUp] at rise
    rw [← aggrDown] at fall
    obtain ⟨k, core, same⟩ := (mem_links_aggr pod position).mp rise
    obtain ⟨k', core', same'⟩ := (mem_links_aggr pod' position').mp fall
    obtain ⟨rfl, rfl⟩ := index_inj core core' (same.trans same'.symm)
    have atPosition : p.core / (K / 2) = j := by rw [← same, div_index core]
    refine ⟨p.core, (mem_cores even).mpr ⟨j, position, k, core, same⟩, ?_⟩
    rw [pathThrough, atPosition]
    exact congrArg₂ (Path.mk · p.core ·) aggrUp aggrDown
  · rintro ⟨c, created, rfl⟩
    obtain ⟨j, position, k, core, rfl⟩ := (mem_cores even).mp created
    rw [pathThrough, div_index core]
    exact ⟨pod_mem_links.mpr ⟨i, pod, inPod, j, position, rfl⟩,
      (core_index_mem_links position core).mpr ⟨i, pod, rfl⟩,
      (core_index_mem_links position core).mpr ⟨i', pod', rfl⟩,
      pod_mem_links.mpr ⟨i', pod', inPod', j, position, rfl⟩⟩

/-- One path for each core. -/
theorem ncard_paths (even : Even K) (pod : i < K) (pod' : i' < K) (inPod : InPod K i tor)
    (inPod' : InPod K i' tor') : {p | Joins K tor tor' p}.ncard = K * K / 4 := by
  have through : {p | Joins K tor tor' p} = pathThrough K i i' '' Set.Iio (numCores K) := by
    ext p
    simp only [Set.mem_ofPred_eq, joins_iff even pod pod' inPod inPod', Set.mem_image, Set.mem_Iio,
      cores, List.mem_range]
  have distinct : Function.Injective (pathThrough K i i') :=
    fun c c' same => congrArg Path.core same
  rw [through, Set.ncard_image_of_injective _ distinct, Set.ncard_Iio_nat, numCores]

theorem existsUnique_path (even : Even K) (pod : i < K) (pod' : i' < K) (inPod : InPod K i tor)
    (inPod' : InPod K i' tor') (created : c ∈ cores K) :
    ∃! p, Joins K tor tor' p ∧ p.core = c := by
  refine ⟨pathThrough K i i' c, ⟨?_, rfl⟩, ?_⟩
  · exact (joins_iff even pod pod' inPod inPod' _).mpr ⟨c, created, rfl⟩
  · rintro p ⟨joins, rfl⟩
    obtain ⟨c, -, rfl⟩ := (joins_iff even pod pod' inPod inPod' p).mp joins
    rfl

/-- The topology has exactly the path diversity of a fat tree. -/
theorem fatTree_diverse (K : Nat) (even : Even K) : PathDiversity K where
  core_aggr _ created _ pod := core_aggr even created pod
  aggr_cores _ created := aggr_cores created
  aggr_tors i pod _ inPod := ⟨fun _ => aggr_tors pod inPod, ncard_row i (K / 2)⟩
  once := links_nodup K
  inRange _ created := links_inRange even created
  paths i pod i' pod' _ tor tor' inPod inPod' := by
    refine ⟨ncard_paths even pod pod' inPod inPod', fun p joins => ?_, fun c created => ?_⟩
    · obtain ⟨c, created, rfl⟩ := (joins_iff even pod pod' inPod inPod' p).mp joins
      exact created
    · exact existsUnique_path even pod pod' inPod inPod' created

/-- Four-port switches: four paths between the ToRs 0 and 3 of the first two pods. -/
theorem fatTree_diverse_fourPorts :
    PathDiversity 4 ∧ {p | Joins 4 0 3 p}.ncard = 4 := by
  have diverse := fatTree_diverse 4 (by decide)
  have paths := diverse.paths 0 (by decide) 1 (by decide) (by decide) 0 3
    ⟨0, by decide, rfl⟩ ⟨1, by decide, rfl⟩
  exact ⟨diverse, paths.1⟩

end Saps.Script.FatTree
