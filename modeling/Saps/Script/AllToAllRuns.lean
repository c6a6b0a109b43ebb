import Saps.Script.AllToAll

/-!
# Whole runs of the traffic between all hosts

What the flows of a run of any length have in common, how the mapping treats them, and that the
loop goes on while there is time.
-/
namespace Saps.Script

/-- A draw of just this number. -/
def IndexDraw.centre {n : Nat} (i : Fin n) : IndexDraw n where
  value := i.val
  low := by
    have nonneg : (0 : ℚ) ≤ i.val := Nat.cast_nonneg i.val
    linarith
  high := by
    have below : (i.val : ℚ) + 1 ≤ n := by exact_mod_cast i.isLt
    linarith

namespace TrafficSettings

variable {s : TrafficSettings} {poor : Option ℚ} {t t' : Traffic} {d : FlowDraws s} {f : Flow}
variable {draws : List (FlowDraws s)}

/-! ### A whole run -/

/-- What a round knows of its flow. -/
structure Made (poor : Option ℚ) (d : FlowDraws s) (f : Flow) : Prop where
  srcHost : s.IsHost f.srcInd
  dstHost : s.IsHost f.dstInd
  sound : d.flowType.Inside → (s.Sound f ↔ d.Inside)
  mapped : s.mapFlow poor d.hash f.start (decide (d.flowType.index = 1)) f.srcLeafInd f.dstLeafInd
    (f.transferSize / 1000) = some f.mapping
  rack : f.isIntraRack = d.flowType.index % 2

/-- The traffic of so many rounds. -/
structure Accounted (s : TrafficSettings) (poor : Option ℚ) (draws : List (FlowDraws s))
    (t : Traffic) : Prop where
  flows : List.Forall₂ (Made poor) draws t.flows
  /-- The identifiers count on, and the hosts take turns as the nodes. -/
  numbered : ∀ (k : Nat) (f : Flow), t.flows[k]? = some f →
    f.shortFlowId = 8001 + k ∧ f.node = (k % s.totalHosts : Nat)
  started : t.flows.Pairwise fun f g => f.start < g.start
  during : ∀ f ∈ t.flows, 0 ≤ f.start ∧ f.start ≤ s.simTime / 40
  srcCount : ∀ host, t.srcCount host = t.flows.countP (·.srcInd = host)
  dstCount : ∀ host, t.dstCount host = t.flows.countP (·.dstInd = host)
  thruAgg : t.interRackThruAggCount = draws.countP (·.flowType.index = 0)
  intraRack : t.intraRackCount = draws.countP (·.flowType.index = 1)
  kinds : t.interRackThruAggCount + t.intraRackCount + t.interRackThruCoreCount = t.flows.length

/-- The variables that one round leaves to the next. -/
structure Running (s : TrafficSettings) (t : Traffic) : Prop where
  shortFlowId : t.shortFlowId = 8000 + t.flows.length
  sink : t.sink = if t.flows = [] then 0 else ((t.flows.length - 1) % s.totalHosts : Nat) + 1
  globalTime : 0 ≤ t.globalTime
  passed : ∀ f ∈ t.flows, f.start < t.globalTime

/-- A counter for one number more. -/
theorem countP_update {flows : List Flow} {count : Int → Nat} {ind : Flow → Int} {f : Flow}
    (counted : ∀ host, count host = flows.countP (ind · = host)) (host : Int) :
    Function.update count (ind f) (count (ind f) + 1) host =
      (flows ++ [f]).countP (ind · = host) := by
  rw [List.countP_append, List.countP_singleton]
  by_cases same : host = ind f
  · subst same
    simp [counted]
  · rw [Function.update_of_ne same, counted, if_neg (by simpa using Ne.symm same)]
    rfl

theorem makeFlow_made (made : s.makeFlow poor t d = some f) :
    Made poor d f ∧ f.shortFlowId = t.shortFlowId + 1 ∧
      f.node = (if t.sink = s.totalHosts then 0 else t.sink) ∧ f.start = t.globalTime := by
  have hosts := makeFlow_hosts made
  have ends := makeFlow_endpoints made
  have sound := fun kind => makeFlow_sound kind made
  obtain ⟨e, -, made⟩ := Option.bind_eq_some_iff.mp made
  obtain ⟨mapping, mapped, made⟩ := Option.bind_eq_some_iff.mp made
  split at made
  next =>
    cases made
    refine ⟨⟨hosts.1, hosts.2, sound, ?_, ends.2⟩, rfl, rfl, rfl⟩
    rw [mul_div_assoc, div_self (by norm_num), mul_one]
    exact mapped
  next => cases made

theorem round_made (next : s.round poor t d = some t') :
    t.globalTime ≤ s.simTime / 40 ∧ ∃ f, s.makeFlow poor t d = some f ∧
      t' = t.add d.flowType.index d.inter f := by
  rw [TrafficSettings.round] at next
  split at next
  next inTime =>
    obtain ⟨f, made, added⟩ := Option.map_eq_some_iff.mp next
    exact ⟨inTime, f, made, added.symm⟩
  next => cases next

/-- The node of the flow after so many. -/
theorem Running.node (running : s.Running t) (some_host : 0 < s.totalHosts) :
    (if t.sink = s.totalHosts then 0 else t.sink) = (t.flows.length % s.totalHosts : Nat) := by
  rw [running.sink]
  split_ifs with none full wraps
  · rw [none, List.length_nil, Nat.zero_mod]
    rfl
  · rw [none, List.length_nil, Nat.zero_mod]
  · have pos := List.length_pos_iff.mpr none
    have step := Nat.mod_add_mod (t.flows.length - 1) s.totalHosts 1
    have turn : (t.flows.length - 1) % s.totalHosts + 1 = s.totalHosts := by exact_mod_cast wraps
    rw [turn, Nat.mod_self, Nat.sub_add_cancel pos] at step
    rw [← step]
    rfl
  · have pos := List.length_pos_iff.mpr none
    have step := Nat.mod_add_mod (t.flows.length - 1) s.totalHosts 1
    have bound := Nat.mod_lt (t.flows.length - 1) some_host
    have turn : (t.flows.length - 1) % s.totalHosts + 1 ≠ s.totalHosts := by exact_mod_cast wraps
    rw [Nat.mod_eq_of_lt (by omega), Nat.sub_add_cancel pos] at step
    rw [← step]

theorem Running.add (running : s.Running t) (made : s.makeFlow poor t d = some f) :
    s.Running (t.add d.flowType.index d.inter f) := by
  obtain ⟨known, id, node, start⟩ := makeFlow_made made
  have some_host : 0 < s.totalHosts := by
    have host := known.srcHost
    rw [IsHost] at host
    omega
  have later := d.inter_pos
  have clock := running.globalTime
  refine ⟨?_, ?_, ?_, fun g listed => ?_⟩
  · rw [Traffic.add_shortFlowId, Traffic.add_flows, id, running.shortFlowId, List.length_append,
      List.length_singleton]
    push_cast
    ring
  · have more : t.flows ++ [f] ≠ [] := by simp
    rw [Traffic.add_sink, Traffic.add_flows, node, running.node some_host, if_neg more,
      List.length_append, List.length_singleton, Nat.add_sub_cancel]
    push_cast
    rfl
  · exact (add_pos_of_nonneg_of_pos clock later).le
  · rcases List.mem_append.mp listed with before | new
    · exact (running.passed g before).trans (lt_add_of_pos_right _ later)
    · rw [List.mem_singleton.mp new, start]
      exact lt_add_of_pos_right _ later

theorem Accounted.add (acc : s.Accounted poor draws t) (running : s.Running t)
    (inTime : t.globalTime ≤ s.simTime / 40) (made : s.makeFlow poor t d = some f) :
    s.Accounted poor (draws ++ [d]) (t.add d.flowType.index d.inter f) := by
  obtain ⟨known, id, node, start⟩ := makeFlow_made made
  have some_host : 0 < s.totalHosts := by
    have host := known.srcHost
    rw [IsHost] at host
    omega
  refine ⟨?_, fun k g there => ?_, ?_, fun g listed => ?_, fun host => ?_, fun host => ?_, ?_, ?_,
    ?_⟩
  · exact List.rel_append acc.flows (List.Forall₂.cons known .nil)
  · rw [Traffic.add_flows, List.getElem?_append] at there
    split at there
    next before => exact acc.numbered k g there
    next after =>
      rw [List.getElem?_singleton] at there
      split at there
      next last =>
        cases there
        rw [show k = t.flows.length by omega]
        refine ⟨?_, node.trans (running.node some_host)⟩
        rw [id, running.shortFlowId]
        ring
      next => cases there
  · refine List.pairwise_append.mpr ⟨acc.started, List.pairwise_singleton _ _, ?_⟩
    intro g before h new
    rw [List.mem_singleton.mp new, start]
    exact running.passed g before
  · rcases List.mem_append.mp listed with before | new
    · exact acc.during g before
    · rw [List.mem_singleton.mp new, start]
      exact ⟨running.globalTime, inTime⟩
  · exact countP_update acc.srcCount host
  · exact countP_update acc.dstCount host
  · rw [List.countP_append, ← acc.thruAgg, List.countP_singleton]
    simp [Traffic.add]
  · rw [List.countP_append, ← acc.intraRack, List.countP_singleton]
    simp [Traffic.add]
  · have kinds := acc.kinds
    simp only [Traffic.add, List.length_append, List.length_singleton]
    split_ifs <;> omega

theorem rounds_accounted (ran : s.rounds poor draws = some t) : s.Accounted poor draws t := by
  suffices both : s.Accounted poor draws t ∧ s.Running t from both.1
  induction draws using List.reverseRecOn generalizing t with
  | nil =>
    cases ran
    exact ⟨⟨.nil, fun k f there => by simp at there, .nil, List.forall_mem_nil _,
      fun _ => rfl, fun _ => rfl, rfl, rfl, rfl⟩, rfl, rfl, le_refl 0, List.forall_mem_nil _⟩
  | append_singleton before d ih =>
    rw [rounds, List.foldlM_append] at ran
    obtain ⟨t₀, ran, last⟩ := Option.bind_eq_some_iff.mp ran
    obtain ⟨acc, running⟩ := ih ran
    obtain ⟨t₁, next, done⟩ := Option.bind_eq_some_iff.mp last
    cases done
    obtain ⟨inTime, f, made, rfl⟩ := round_made next
    exact ⟨acc.add running inTime made, running.add made⟩

/-! ### The mapping over a run -/

/-- Failures that the mapping provides for, on links that have capacity left. -/
structure Capable (s : TrafficSettings) : Prop extends s.Planned where
  bandwidth : 0 < s.bwTorAgg
  ratio : 0 < s.failureRatio
  multiplier : 0 < s.spsPoorPathFlowMultiplier

/-- The value of `poorLinkCapacity` where it is set. -/
def poorCapacity (s : TrafficSettings) : ℚ :=
  s.spsPoorPathFlowMultiplier * (s.bwTorAgg / 1000) / s.failureRatio

theorem Capable.poorLinkCapacity (capable : s.Capable) :
    0 < s.poorCapacity ∧ s.poorLinkCapacity =
      .ok (if s.selectiveSpraying = 1 then some s.poorCapacity else none) := by
  obtain ⟨planned, bandwidth, ratio, multiplier⟩ := capable
  refine ⟨by rw [poorCapacity]; positivity, ?_⟩
  rw [TrafficSettings.poorLinkCapacity]
  by_cases selective : s.selectiveSpraying = 1
  · rw [if_pos ⟨planned.failureCase, selective⟩, if_pos selective, divide_ok ratio.ne']
    rfl
  · rw [if_neg fun both => selective both.2, if_neg selective]
    rfl

/-- How a flow of a round is mapped: onto an affected path by its share alone, never onto one that
has failed fully, and to a spine with delay asymmetry only if there is one, but for a large flow
of a leaf at which both uplinks failed. Between two racks the share is one of the whole that the
number is drawn from. -/
structure Mapped (d : FlowDraws s) (f : Flow) : Prop where
  poorFlow : f.mapping.poorFlow = true ↔ f.isIntraRack = 0 ∧
    s.Drawn f.start false f.srcLeafInd f.dstLeafInd (f.transferSize / 1000) ∧
    s.Open f.srcLeafInd f.dstLeafInd (f.transferSize / 1000) ∧
    (s.share s.poorCapacity d.hash f.srcLeafInd f.dstLeafInd).Hit
  inRange : f.isIntraRack = 0 → d.hash.InRange s →
    (s.share s.poorCapacity d.hash f.srcLeafInd f.dstLeafInd).draw ∈ Set.Icc (-1 / 2)
      ((s.share s.poorCapacity d.hash f.srcLeafInd f.dstLeafInd).whole - 1 / 2)
  full : s.failureCase = 2 → s.multipleFailure ≠ 1 → f.mapping.poorFlow = true →
    s.weakSpines f.srcLeafInd f.dstLeafInd = []
  daFlow : f.mapping.daFlow = true →
    (∃ failed ∈ s.failures, failed.spine ∉ s.weakSpines f.srcLeafInd f.dstLeafInd) ∨
      (s.weakSpines f.srcLeafInd f.dstLeafInd).length = 2 ∧ s.spsThresh ≤ f.transferSize / 1000

theorem IsHost.leaf {ind : Int} (host : s.IsHost ind) :
    0 ≤ ind / s.numHostsPerLeaf ∧ ind / s.numHostsPerLeaf < s.numToRs := by
  have pos := host.rack_pos
  obtain ⟨low, high⟩ := host
  refine ⟨Int.ediv_nonneg low pos.le, Int.ediv_lt_of_lt_mul pos ?_⟩
  rw [totalHosts, mul_comm] at high
  exact_mod_cast high

theorem Sound.apart (sound : s.Sound f) (srcHost : s.IsHost f.srcInd) (dstHost : s.IsHost f.dstInd)
    (inter : f.isIntraRack = 0) : s.Apart f.srcLeafInd f.dstLeafInd := by
  have src := srcHost.leaf
  have dst := dstHost.leaf
  rw [sound.srcLeaf] at src
  rw [sound.dstLeaf] at dst
  refine ⟨src.1, src.2, dst.1, dst.2, fun same => ?_⟩
  rw [sound.rack, if_pos same] at inter
  cases inter

theorem mapFlow_default {now size : ℚ} {intraRack : Bool} {src dst : Int} {m : Mapping}
    {h : HashDraws} (mapped : s.mapFlow poor h now intraRack src dst size = some m)
    (drawn : ¬ s.Drawn now intraRack src dst size) : m = .default := by
  rw [mapFlow, if_neg drawn] at mapped
  exact (Option.some_inj.mp mapped).symm

/-- What is open to a flow after one full failure leaves the failed path out. -/
theorem Open.weakSpines {src dst : Int} {size : ℚ} (planned : s.Planned)
    (full : s.failureCase = 2) (single : s.multipleFailure ≠ 1) (allowed : s.Open src dst size) :
    s.weakSpines src dst = [] := by
  rw [Open] at allowed
  split_ifs at allowed with both direct
  · exact absurd allowed.1 single
  · rw [full] at allowed
    exact absurd allowed.1 (by decide)
  · rw [not_or, Bool.not_eq_true, Bool.not_eq_true] at direct
    exact weakSpines_eq_nil planned direct.1 direct.2

theorem Made.mapping (capable : s.Capable) (setup : s.poorLinkCapacity = .ok poor)
    (made : Made poor d f) (kind : d.flowType.Inside) (inside : d.Inside) : Mapped d f := by
  have sound := (made.sound kind).mpr inside
  obtain ⟨low, high⟩ := IndexDraw.inside_iff.mp kind
  have mapped := made.mapped
  have rack := made.rack
  by_cases intra : d.flowType.index = 1
  · -- flows inside a rack are not drawn for
    have default := mapFlow_default mapped (by simp [Drawn, intra])
    rw [intra] at rack
    exact ⟨by simp [default, Mapping.default, rack], by simp [rack],
      by simp [default, Mapping.default], by simp [default, Mapping.default]⟩
  · have inter : f.isIntraRack = 0 := by
      push_cast at high
      rw [rack]
      omega
    have apart := sound.apart made.srcHost made.dstHost inter
    rw [decide_eq_false intra] at mapped
    suffices share : f.mapping.poorFlow = true ↔
        s.Drawn f.start false f.srcLeafInd f.dstLeafInd (f.transferSize / 1000) ∧
          s.Open f.srcLeafInd f.dstLeafInd (f.transferSize / 1000) ∧
          (s.share s.poorCapacity d.hash f.srcLeafInd f.dstLeafInd).Hit from
      ⟨by simpa [inter] using share,
        fun _ range => share_inRange capable.toPlanned apart.ne range,
        fun full single poorly => (share.mp poorly).2.1.weakSpines capable.toPlanned full single,
        mapFlow_daFlow capable.toPlanned apart mapped⟩
    obtain ⟨pos, capacity⟩ := capable.poorLinkCapacity
    rw [capacity] at setup
    cases setup
    by_cases selective : s.selectiveSpraying = 1
    · obtain ⟨m, same, poorFlow⟩ := @mapFlow_share s _ _ (f.transferSize / 1000) f.start
        _ d.hash capable.toPlanned apart pos
      rw [if_pos selective, same] at mapped
      rw [← Option.some_inj.mp mapped]
      exact poorFlow
    · have drawn : ¬ s.Drawn f.start false f.srcLeafInd f.dstLeafInd (f.transferSize / 1000) :=
        fun drawn => selective drawn.2.1
      rw [mapFlow_default mapped drawn]
      simp [Mapping.default, drawn]

/-! ### The loop goes on -/

theorem isHost_of_inside {leaf h : Int} (row : 0 ≤ leaf ∧ leaf < s.numToRs)
    (column : 0 ≤ h ∧ h < s.numHostsPerLeaf) : s.IsHost (leaf * s.numHostsPerLeaf + h) := by
  rw [IsHost, totalHosts]
  push_cast
  constructor <;> nlinarith

theorem mapFlow_isSome (capable : s.Capable) (setup : s.poorLinkCapacity = .ok poor)
    (h : HashDraws) (now : ℚ) (intraRack : Bool) (src dst : Int) (size : ℚ)
    (apart : intraRack = false → s.Apart src dst) :
    ∃ m, s.mapFlow poor h now intraRack src dst size = some m := by
  by_cases drawn : s.Drawn now intraRack src dst size
  · obtain ⟨pos, capacity⟩ := capable.poorLinkCapacity
    rw [capacity, if_pos drawn.2.1] at setup
    cases setup
    obtain ⟨m, mapped, -⟩ := @mapFlow_share s src dst size now _ h capable.toPlanned
      (apart drawn.2.2.2.2.1) pos
    rw [drawn.2.2.2.2.1]
    exact ⟨m, mapped⟩
  · rw [mapFlow, if_neg drawn]
    exact ⟨_, rfl⟩

/-- As long as there is time, a round ends with a flow as soon as another leaf, and another host,
have been drawn. -/
theorem round_ends (capable : s.Capable) (setup : s.poorLinkCapacity = .ok poor)
    (inTime : t.globalTime ≤ s.simTime / 40) (kind : d.flowType.Inside) (inside : d.Inside)
    (leafs : ∃ draw ∈ d.dstLeafs, draw.index ≠ d.srcLeaf.index)
    (hosts : ∃ draw ∈ d.dstHosts, draw.index ≠ d.srcHost.index) :
    ∃ k l t', s.round poor t
      { d with dstLeafs := d.dstLeafs.take k, dstHosts := d.dstHosts.take l } = some t' := by
  obtain ⟨low, high⟩ := IndexDraw.inside_iff.mp kind
  have srcLeaf := IndexDraw.inside_iff.mp inside.srcLeaf
  have srcHost := IndexDraw.inside_iff.mp inside.srcHost
  have src := isHost_of_inside srcLeaf srcHost
  obtain ⟨k, dstLeaf, leafDrawn, otherLeaf⟩ := IndexDraw.redraw_ends leafs
  obtain ⟨l, dstHost, hostDrawn, otherHost⟩ := IndexDraw.redraw_ends hosts
  have inter_or_intra : d.flowType.index = 0 ∨ d.flowType.index = 1 := by
    push_cast at high
    omega
  rcases inter_or_intra with inter | intra
  · have dst : 0 ≤ dstLeaf ∧ dstLeaf < s.numToRs :=
      (IndexDraw.redraw_inside leafDrawn srcLeaf).mp fun draw listed =>
        inside.dstLeafs inter draw (List.mem_of_mem_take listed)
    obtain ⟨first, rest, drawn⟩ : ∃ first rest, d.dstHosts = first :: rest := by
      obtain ⟨draw, listed, -⟩ := hosts
      exact List.exists_cons_of_ne_nil (List.ne_nil_of_mem listed)
    have host := IndexDraw.inside_iff.mp (inside.dstHosts first (drawn ▸ List.mem_cons_self))
    obtain ⟨m, mapped⟩ := mapFlow_isSome capable setup d.hash t.globalTime false d.srcLeaf.index
      dstLeaf ⌈d.nbytes⌉ fun _ =>
        ⟨srcLeaf.1, srcLeaf.2, dst.1, dst.2, Ne.symm otherLeaf⟩
    refine ⟨k, 1, ?_⟩
    simp [TrafficSettings.round, inTime, makeFlow, endpoints, inter, leafDrawn, drawn,
      IndexDraw.only, mapped, src, isHost_of_inside dst host]
  · have dst : 0 ≤ dstHost ∧ dstHost < s.numHostsPerLeaf :=
      (IndexDraw.redraw_inside hostDrawn srcHost).mp fun draw listed =>
        inside.dstHosts draw (List.mem_of_mem_take listed)
    obtain ⟨m, mapped⟩ := mapFlow_isSome capable setup d.hash t.globalTime true d.srcLeaf.index
      d.srcLeaf.index ⌈d.nbytes⌉ fun apart => by cases apart
    refine ⟨0, l, ?_⟩
    simp [TrafficSettings.round, inTime, makeFlow, endpoints, intra, hostDrawn, mapped, src,
      isHost_of_inside srcLeaf dst]

/-- A round whose kind was drawn at an end of its range stops the script where `index` has been
overwritten. -/
theorem round_stops (overwritten : s.IndexOverwritten) (end_ : ¬ d.flowType.Inside) :
    s.round poor t d = none := by
  have range := mt IndexDraw.inside_iff.mpr end_
  have inter : d.flowType.index ≠ 0 := fun zero => range (by rw [zero]; decide)
  have intra : d.flowType.index ≠ 1 := fun one => range (by rw [one]; decide)
  have stops : s.makeFlow poor t d = none := by
    rw [makeFlow, endpoints, if_neg inter, if_neg intra, if_pos overwritten]
    rfl
  rw [TrafficSettings.round, stops, Option.map_none, ite_self]

/-- The traffic of a run of any length: all its flows are between hosts that exist, and their
number, order, times and hosts are what the counters and the summary say. While there is time it
goes on with every round of a kind, and with another one only if `index` is still a random
variable. -/
theorem rounds_traffic (ran : s.rounds poor draws = some t) :
    s.Accounted poor draws t ∧
      (s.IndexOverwritten → ∀ d : FlowDraws s, ¬ d.flowType.Inside → s.round poor t d = none) ∧
      (s.Capable → s.poorLinkCapacity = .ok poor →
      ∀ d : FlowDraws s, t.globalTime ≤ s.simTime / 40 → d.flowType.Inside → d.Inside →
        (∃ draw ∈ d.dstLeafs, draw.index ≠ d.srcLeaf.index) →
        (∃ draw ∈ d.dstHosts, draw.index ≠ d.srcHost.index) →
        ∃ k l t', s.round poor t
          { d with dstLeafs := d.dstLeafs.take k, dstHosts := d.dstHosts.take l } = some t') :=
  ⟨rounds_accounted ran, fun overwritten _ => round_stops overwritten,
    fun capable setup _ => round_ends capable setup⟩

/-- In every run between failures that the mapping provides for, a flow whose numbers were not
drawn at the end of a range is mapped as its share says. -/
theorem rounds_mapped (capable : s.Capable) (setup : s.poorLinkCapacity = .ok poor)
    (ran : s.rounds poor draws = some t) :
    List.Forall₂ (fun d f => d.flowType.Inside → d.Inside → Mapped d f) draws t.flows :=
  (rounds_accounted ran).flows.imp fun _ _ made kind inside =>
    made.mapping capable setup kind inside

/-- The leaf-spine topology of the experiments, with two links degraded. -/
def leafSpine : TrafficSettings where
  toFailureSettings := FailureSettings.twoLinksDegraded
  numToRs := 4
  numAggs := 4
  numHostsPerLeaf := 4
  numFailures := 2
  selectiveSpraying := 1
  healthyPathOnly := 0
  daSprayOnly := 0
  daHashSome := 0
  dynamicMapping := 0
  spsPoorPathFlowMultiplier := 1
  spsThresh := 100
  spsThreshGL2GL := 100
  fsThreshold := 10000
  simTime := 80

/-- A flow of 20 kilobytes from leaf 0, or inside it, and the next one a quarter of a second later;
all chances are drawn as 0. -/
def leafSpine.drawn (flowType : Fin 2) (dstLeafs : List (Fin 4)) : FlowDraws leafSpine where
  flowType := .centre flowType
  srcLeaf := @IndexDraw.centre 4 0
  dstLeafs := dstLeafs.map (@IndexDraw.centre 4)
  srcHost := @IndexDraw.centre 4 2
  dstHosts := [@IndexDraw.centre 4 3]
  srcIndex := @IndexDraw.centre 16 0
  dstIndexs := []
  nbytes := 39 / 2
  hash := ⟨0, 0, 0, 0, 0, 0, 0⟩
  inter := 1 / 4
  inter_pos := by norm_num

/-- Three flows: one before the failure is detected, one inside the rack and one that is drawn for
the poor path. -/
def leafSpine.threeRounds : List (FlowDraws leafSpine) :=
  [drawn 0 [0, 1], drawn 1 [], drawn 0 [1]]

theorem leafSpine.capable : leafSpine.Capable where
  failureCase := .inl rfl
  two := fun _ => ⟨rfl, by decide⟩
  bandwidth := by decide +kernel
  ratio := by decide +kernel
  multiplier := by decide +kernel

theorem leafSpine.setup : leafSpine.poorLinkCapacity = .ok (some 1) := by decide +kernel

theorem leafSpine.ran : (leafSpine.rounds (some 1) threeRounds).isSome := by decide +kernel

def leafSpine.traffic : Traffic := (leafSpine.rounds (some 1) threeRounds).get ran

theorem leafSpine.reached : leafSpine.rounds (some 1) threeRounds = some traffic :=
  (Option.some_get ran).symm

theorem rounds_mapped_leafSpine :
    leafSpine.traffic.flows.map (fun f => (f.srcInd, f.dstInd, f.mapping.poorFlow)) =
        [(2, 7, false), (2, 3, false), (2, 7, true)] ∧
      List.Forall₂ (fun d f => d.flowType.Inside → d.Inside → Mapped d f) leafSpine.threeRounds
        leafSpine.traffic.flows :=
  ⟨by decide +kernel, rounds_mapped leafSpine.capable leafSpine.setup leafSpine.reached⟩

/-- A round whose kind is drawn at the upper end. -/
def leafSpine.noKind : FlowDraws leafSpine :=
  { drawn 0 [0, 1] with flowType := ⟨3 / 2, by norm_num, by norm_num⟩ }

/-- A fourth round takes two draws to get to another leaf. One of no kind would stop the script. -/
theorem rounds_traffic_leafSpine :
    leafSpine.Accounted (some 1) leafSpine.threeRounds leafSpine.traffic ∧
      leafSpine.round (some 1) leafSpine.traffic leafSpine.noKind = none ∧
      ∃ k l t', leafSpine.round (some 1) leafSpine.traffic
        { leafSpine.drawn 0 [0, 1] with
          dstLeafs := (leafSpine.drawn 0 [0, 1]).dstLeafs.take k
          dstHosts := (leafSpine.drawn 0 [0, 1]).dstHosts.take l } = some t' :=
  have traffic := rounds_traffic leafSpine.reached
  ⟨traffic.1, traffic.2.1 (by decide) leafSpine.noKind (by decide +kernel),
    traffic.2.2 leafSpine.capable leafSpine.setup (leafSpine.drawn 0 [0, 1])
      (by decide +kernel) (by decide +kernel)
      ⟨by decide +kernel, by decide +kernel, by decide +kernel, by decide +kernel⟩
      (by decide +kernel) (by decide +kernel)⟩

end TrafficSettings

end Saps.Script
