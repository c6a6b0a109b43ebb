import Mathlib.Logic.Relation
import Saps.Classifier.UplinkNumbers
import Saps.Spray.FlowcellPath
import Saps.Spray.MappingPolicy

/-!
# From the sender to the spine

One flow of the selective scheme, with the leaf switches at both its ends, in a fabric whose links
go down and come back. The sender stamps the number of an uplink, a classifier looks the number
up, perhaps much later, in slots that the routes have changed in the meantime, and the sink
may stamp its ACKs with the number of the data packet.
-/
namespace Saps.Network

open Classifier MultiPathForwarder Spray

variable {T τ : Type}

/-! ### The parties -/

/-- The header with which a packet leaves the sender. -/
def stamped (st : Stamp) (header : Packet) : Packet :=
  { header with
    linkID := st.linkID
    failureDetected := if st.failureDetected then 1 else 0 }

/-- The header of the ACK that `ack()` of the sink makes out of a new packet. -/
def answered (ackOnSamePath realisticFailure : Bool) (data header : Packet) : Packet :=
  if ackOnSamePath && realisticFailure && decide (data.failureDetected ≠ 0) then
    { header with linkID := data.linkID, failureDetected := 1 }
  else { header with failureDetected := 0 }

/-- A packet or an ACK on its way. It is settled if the failure had been detected when its flowcell
began, and ever since. -/
structure Segment where
  packet : Packet
  settled : Bool

/-- A leaf switch: the classifier behind its uplinks and the routes to the other leaf. -/
structure Leaf (T τ : Type) where
  c : MultiPathForwarder
  node : Routes T τ

inductive Side where
  | source
  | dest
deriving DecidableEq

structure Crossing (T τ : Type) where
  agent : SprayAgent
  /-- The flowcell of the last packet is settled. -/
  settled : Bool
  leaf : Side → Leaf T τ
  /-- Everything sent; any of it may be lost, or arrive at any time. -/
  data : List Segment
  acks : List Segment
  /-- The spines to which the link of one of the leaves is down. -/
  cut : List Nat

/-- One of the links over the spine is listed as fully failed. -/
def Dead (cfg : SprayConfig) (spine : Nat) : Prop :=
  ∃ f ∈ cfg.failedLinks, f.failureRatio = 100 ∧ f.spine = spine ∧ cfg.direct f = true

/-- Whether the next packet is settled. Only the branches for poor-path flows move the uplink in the
middle of a flowcell. -/
def settles (cfg : SprayConfig) (e : PacketEnv) (x : Crossing T τ) : Bool :=
  cfg.failureDetected e.now &&
    (startsFlowcell cfg x.agent || x.settled && !onPoorPath cfg e x.agent)

section

variable [DecidableEq τ]
variable (table : SlotTable T τ) (mshift : BitVec 32 → BitVec 32) (cfg : SprayConfig)
variable (ackOnSamePath : Bool) (links : Side → List τ)

/-- Links that are listed as fully failed go down and come back, and so do the routes over them, not
necessarily at the same time. The switches forward packets of other flows, too. -/
inductive Step : Crossing T τ → Crossing T τ → Prop
  | send {x : Crossing T τ} (e : PacketEnv) (header : Packet) {agent : SprayAgent} {st : Stamp} :
      output cfg e x.agent = .ok (agent, st) →
      Step x { x with
        agent
        settled := settles cfg e x
        data := ⟨stamped st header, settles cfg e x⟩ :: x.data }
  | answer {x : Crossing T τ} (header : Packet) {s : Segment} : s ∈ x.data →
      Step x { x with
        acks := ⟨answered ackOnSamePath cfg.realisticFailure s.packet header,
          s.settled && ackOnSamePath⟩ :: x.acks }
  | switch {x : Crossing T τ} (side : Side) (held : Locals) (p : Packet) {t : T}
      {answer : MultiPathForwarder.Answer} : (x.leaf side).node.mpathClsfr = some t →
      (x.leaf side).c.classify table mshift t held p = some answer →
      Step x { x with
        leaf := Function.update x.leaf side { x.leaf side with c := answer.c } }
  | fail {x : Crossing T τ} (spine : Nat) : Dead cfg spine →
      Step x { x with cut := spine :: x.cut }
  | mend {x : Crossing T τ} (spine : Nat) : Step x { x with cut := x.cut.erase spine }
  | delete {x : Crossing T τ} (side : Side) (ifs : List τ) (nullagent : τ) :
      (∀ link ∈ ifs, ∃ spine, Dead cfg spine ∧ (links side)[spine]? = some link) →
      Step x { x with
        leaf := Function.update x.leaf side { x.leaf side with
          node := (x.leaf side).node.deleteRoutes table ifs nullagent } }
  | add {x : Crossing T τ} (side : Side) (ifs : List τ) {node : Routes T τ} :
      (x.leaf side).node.addRoutes table ifs = some node →
      Step x { x with leaf := Function.update x.leaf side { x.leaf side with node } }

/-- The classifier sprays by the numbers stamped on the packets, if not before a failure is
detected. -/
def Numbered (c : MultiPathForwarder) : Prop :=
  c.packetSpraying = 0 ∧ c.flowcellSpraying ≠ 0 ∨ c.packetSpraying ≠ 0 ∧ c.selectiveSpraying ≠ 0

/-- Nothing sent, and every route installed. -/
structure Opened (x : Crossing T τ) : Prop where
  agent : x.agent = fresh cfg
  settled : x.settled = false
  data : x.data = []
  acks : x.acks = []
  cut : x.cut = []
  leaf : ∀ side, (links side).length = cfg.numUplinks ∧ (links side).Nodup ∧
    (∃ t, FirstInstalled table (links side) (x.leaf side).node t) ∧ Numbered (x.leaf side).c

/-- A run, and where it has come to. -/
def Reached (x : Crossing T τ) : Prop :=
  ∃ start, Opened table cfg links start ∧
    Relation.ReflTransGen (Step table mshift cfg ackOnSamePath links) start x

/-- The uplinks that the policy of the flow leaves open. -/
structure Allowed (spine : Nat) : Prop where
  inside : spine < cfg.numUplinks
  alive : ¬ Dead cfg spine
  healthy : cfg.healthyPathOnly = true →
    ∀ f ∈ cfg.failedLinks, f.spine = spine → cfg.direct f = false

/-- The classifier of a leaf sends the segment over the link to the spine that was chosen for it,
now and whenever it comes, and the path over this spine is up. -/
def Lands (x : Crossing T τ) (side : Side) (s : Segment) : Prop :=
  ∃ spine link, s.packet.linkID = (spine : Nat) ∧ Allowed cfg spine ∧ spine ∉ x.cut ∧
    (links side)[spine]? = some link ∧
    ∃ t, (x.leaf side).node.mpathClsfr = some t ∧
      ∀ held, delivered table mshift (x.leaf side).c t held s.packet = some link

end

/-! ### A leaf switch -/

section

variable {table : SlotTable T τ} {mshift : BitVec 32 → BitVec 32} {t : T} {i : Nat} {link : τ}

/-- A number whose slot is in use leads to the link in this slot. -/
theorem Numbered.delivered {c : MultiPathForwarder} (numbered : Numbered c) {p : Packet}
    (stamp : p.linkID = i) (detected : p.failureDetected ≠ 0) (slot : table.slot t i = some link)
    (held : Locals) : delivered table mshift c t held p = some link := by
  have used : table.slot t i ≠ none := by simp [slot]
  rcases numbered with ⟨packets, flowcells⟩ | ⟨packets, selective⟩
  · have first : FirstInUse table t i i := ⟨le_refl i, used, fun j after before => by omega⟩
    rw [first.delivered_eq packets flowcells held stamp, slot]
  · -- the search ends where it begins
    have looked := inUse_eq (lt_paths used)
    have spun : ∀ fail turns, spin table t fail (turns + 1) i i = some ((i : Int), (i : Int)) :=
      fun fail turns => spin_stop looked (.inl (usedAt_iff.mpr used))
    rw [Classifier.delivered, MultiPathForwarder.classify, if_pos packets, spray,
      if_pos ⟨selective, detected⟩, stamp]
    dsimp only
    rw [spun, Option.map_some, Option.bind_some, Int.toNat_natCast, slot]

theorem Numbered.classify {c : MultiPathForwarder} (numbered : Numbered c) {held : Locals}
    {p : Packet} {answer : MultiPathForwarder.Answer}
    (h : c.classify table mshift t held p = some answer) : Numbered answer.c := by
  -- a call changes nothing but `ns_`
  have same : ∃ ns, answer.c = { c with ns } := by
    rcases numbered with ⟨packets, flowcells⟩ | ⟨packets, -⟩
    · rw [MultiPathForwarder.classify, if_neg (not_not.mpr packets), if_pos flowcells,
        flowcell] at h
      split at h
      · obtain ⟨⟨cl, ns⟩, -, rfl⟩ := Option.map_eq_some_iff.mp h
        exact ⟨ns, rfl⟩
      · obtain ⟨cl, -, rfl⟩ := Option.map_eq_some_iff.mp h
        exact ⟨p.linkID, rfl⟩
    · rw [MultiPathForwarder.classify, if_pos packets, spray] at h
      split at h
      · obtain ⟨⟨cl, ns⟩, -, rfl⟩ := Option.map_eq_some_iff.mp h
        exact ⟨ns, rfl⟩
      · obtain ⟨next, -, h⟩ := Option.bind_eq_some_iff.mp h
        obtain ⟨⟨cl, ns⟩, -, rfl⟩ := Option.map_eq_some_iff.mp h
        exact ⟨ns, rfl⟩
  obtain ⟨ns, same⟩ := same
  rw [same]
  exact numbered

/-- New links go behind the slots in use. -/
theorem slot_addRoutes {node next : Routes T τ} {ifs : List τ} (multiPath : node.multiPath = true)
    (there : node.mpathClsfr = some t) (h : node.addRoutes table ifs = some next) :
    next.multiPath = true ∧ ∃ t', next.mpathClsfr = some t' ∧
      ∀ i link, table.slot t i = some link → table.slot t' i = some link := by
  rw [Routes.addRoutes_of_mpathClsfr multiPath there] at h
  cases h
  refine ⟨multiPath, _, rfl, fun i link slot => ?_⟩
  clear there
  induction ifs generalizing t with
  | nil => exact slot
  | cons new ifs ih =>
    refine ih ?_
    have used := table.le_maxslot t i (by simp [slot])
    rw [table.slot_installNext, if_neg (by omega)]
    exact slot

end

/-! ### The choice of the sender -/

section

variable {cfg : SprayConfig} {e : PacketEnv} {a b : SprayAgent} {st : Stamp} {k : Nat}

/-- Every flowcell that starts when the failure is detected gets an uplink that is allowed. -/
theorem output_starts (scheme : Selective cfg) (sorted : SortedBefore cfg k a)
    (detected : cfg.failureDetected e.now = true) (starts : startsFlowcell cfg a = true)
    (sent : output cfg e a = .ok (b, st)) : Allowed cfg b.linkID := by
  obtain ⟨p, q, prepared, chosen, rfl, rfl⟩ := output_ok sent
  have sorted := sorted.prepare scheme.several prepared
  have searches : searchesSpineSet cfg e p = true := by
    have starts : startsFlowcell cfg p = true := by
      rw [startsFlowcell, (prepare_counts prepared).1]
      exact starts
    simp [searchesSpineSet, scheme.aware, scheme.realistic, scheme.robin, scheme.selective,
      scheme.several, detected, starts]
  have searched : nextValidLink cfg (remap cfg p) = .ok q := by
    rcases chooseUplink_cases chosen with ⟨-, searched⟩ | ⟨other, -⟩
    · exact searched
    · exact absurd (searches.symm.trans other) (by decide)
  obtain ⟨maps, inside⟩ := searched_inSet sorted searched
  refine ⟨(nextValidLink_ok searched).2.1, ?_, fun healthy f listed here => ?_⟩
  · rintro ⟨f, listed, full, here, direct⟩
    exact SpineClass.inSet_ne_directFull inside
      ((classOf_eq_directFull_iff cfg _ _).mpr ⟨f, listed, here, direct, full⟩)
  · -- the only mapping of a healthy-path-only flow is 0
    rw [maps.healthyPathOnly healthy] at inside
    have undirected : (classOf cfg cfg.failedLinks q.linkID).isDirect = false := inside
    refine Bool.eq_false_iff.mpr fun direct => ?_
    rw [(isDirect_classOf_iff cfg _ _).mpr ⟨f, listed, here, direct⟩] at undirected
    cases undirected

theorem output_continues (started : startsFlowcell cfg a = false)
    (sprayed : onPoorPath cfg e a = false) (sent : output cfg e a = .ok (b, st)) :
    b.linkID = a.linkID := by
  obtain ⟨p, q, prepared, chosen, rfl, -⟩ := output_ok sent
  have later : 0 < a.ndatapack := by
    refine Nat.pos_of_ne_zero fun first => ?_
    rw [startsFlowcell, first, Nat.zero_mod] at started
    cases started
  rw [prepare_later later] at prepared
  cases prepared
  rw [midcell_unchanged started sprayed chosen]

theorem output_stamp (sent : output cfg e a = .ok (b, st)) :
    st.linkID = b.linkID ∧ st.failureDetected = cfg.failureDetected e.now := by
  obtain ⟨p, q, -, -, rfl, rfl⟩ := output_ok sent
  exact ⟨rfl, rfl⟩

end

/-! ### Runs -/

section

variable {table : SlotTable T τ} {mshift : BitVec 32 → BitVec 32} {cfg : SprayConfig}
variable {ackOnSamePath : Bool} {links : Side → List τ} {x y : Crossing T τ}

/-- A segment on its way: if it is settled it carries an uplink that is allowed, and says so. -/
def Guarded (cfg : SprayConfig) (s : Segment) : Prop :=
  s.settled = true → s.packet.failureDetected ≠ 0 ∧
    ∃ spine, s.packet.linkID = (spine : Nat) ∧ Allowed cfg spine

/-- What every step keeps of a leaf: the routes over the spines that are not dead have never
moved. -/
structure Firm (table : SlotTable T τ) (cfg : SprayConfig) (links : List τ) (leaf : Leaf T τ) :
    Prop where
  distinct : links.Nodup
  complete : links.length = cfg.numUplinks
  numbered : Numbered leaf.c
  multiPath : leaf.node.multiPath = true
  slot : ∃ t, leaf.node.mpathClsfr = some t ∧
    ∀ i link, links[i]? = some link → ¬ Dead cfg i → table.slot t i = some link

theorem Firm.add {leaf : Leaf T τ} {links : List τ} (firm : Firm table cfg links leaf)
    {ifs : List τ} {node : Routes T τ} (added : leaf.node.addRoutes table ifs = some node) :
    Firm table cfg links { leaf with node } := by
  obtain ⟨t, there, slot⟩ := firm.slot
  obtain ⟨multiPath, t', after, kept⟩ := slot_addRoutes firm.multiPath there added
  exact ⟨firm.distinct, firm.complete, firm.numbered, multiPath, t', after,
    fun i link here alive => kept i link (slot i link here alive)⟩

structure Sound (table : SlotTable T τ) (cfg : SprayConfig) (links : Side → List τ)
    (x : Crossing T τ) : Prop where
  agent : ∃ k, SortedBefore cfg k x.agent
  settled : x.settled = true → Allowed cfg x.agent.linkID
  data : ∀ s ∈ x.data, Guarded cfg s
  acks : ∀ s ∈ x.acks, Guarded cfg s
  detected : cfg.flowcellSizePkts = 1 →
    ∀ s ∈ x.data, s.packet.failureDetected ≠ 0 → s.settled = true
  cut : ∀ spine ∈ x.cut, Dead cfg spine
  leaf : ∀ side, Firm table cfg (links side) (x.leaf side)

theorem Sound.opened (opened : Opened table cfg links x) : Sound table cfg links x where
  agent := ⟨0, .inl ⟨rfl, opened.agent⟩⟩
  settled settled := absurd (settled.symm.trans opened.settled) (by decide)
  data := opened.data ▸ List.forall_mem_nil _
  acks := opened.acks ▸ List.forall_mem_nil _
  detected _ := opened.data ▸ List.forall_mem_nil _
  cut := opened.cut ▸ List.forall_mem_nil _
  leaf side := by
    obtain ⟨complete, distinct, ⟨t, first⟩, numbered⟩ := opened.leaf side
    exact ⟨distinct, complete, numbered, first.multiPath, t, first.mpathClsfr,
      fun i link here _ => (first.slot i).trans here⟩

/-- One leaf changes, and stays firm. -/
theorem Sound.update (sound : Sound table cfg links x) {side : Side} {leaf : Leaf T τ}
    (firm : Firm table cfg (links side) leaf) :
    Sound table cfg links { x with leaf := Function.update x.leaf side leaf } := by
  refine ⟨sound.agent, sound.settled, sound.data, sound.acks, sound.detected, sound.cut, ?_⟩
  intro other
  change Firm table cfg (links other) (Function.update x.leaf side leaf other)
  by_cases same : other = side
  · subst same
    rw [Function.update_self]
    exact firm
  · rw [Function.update_of_ne same]
    exact sound.leaf other

theorem Sound.send (sound : Sound table cfg links x) (scheme : Selective cfg) {e : PacketEnv}
    (header : Packet) {agent : SprayAgent} {st : Stamp}
    (sent : output cfg e x.agent = .ok (agent, st)) :
    Sound table cfg links { x with
      agent
      settled := settles cfg e x
      data := ⟨stamped st header, settles cfg e x⟩ :: x.data } := by
  obtain ⟨k, sorted⟩ := sound.agent
  obtain ⟨link, flag⟩ := output_stamp sent
  have allowed : settles cfg e x = true → Allowed cfg agent.linkID := by
    intro settles
    simp only [Network.settles, Bool.and_eq_true, Bool.or_eq_true, Bool.not_eq_true'] at settles
    obtain ⟨detected, starts | ⟨settled, sprayed⟩⟩ := settles
    · exact output_starts scheme sorted detected starts sent
    · cases starts : startsFlowcell cfg x.agent with
      | true => exact output_starts scheme sorted detected starts sent
      | false =>
        rw [output_continues starts sprayed sent]
        exact sound.settled settled
  have detects : settles cfg e x = true → cfg.failureDetected e.now = true := by
    intro settles
    simp only [Network.settles, Bool.and_eq_true] at settles
    exact settles.1
  refine ⟨⟨k + 1, sorted.output scheme.several sent⟩, allowed, ?_, sound.acks, ?_, sound.cut,
    sound.leaf⟩
  · refine List.forall_mem_cons.mpr ⟨fun settles => ⟨?_, agent.linkID, ?_, allowed settles⟩,
      sound.data⟩
    · simp [stamped, flag, detects settles]
    · simp [stamped, link]
  · intro single
    refine List.forall_mem_cons.mpr ⟨fun known => ?_, sound.detected single⟩
    have starts : startsFlowcell cfg x.agent = true := by
      rw [startsFlowcell, single, Nat.mod_one]
      rfl
    have detected : cfg.failureDetected e.now = true := by
      by_contra unknown
      simp [stamped, flag, unknown] at known
    simp [settles, detected, starts]

theorem Guarded.answered {s : Segment} (guarded : Guarded cfg s) (scheme : Selective cfg)
    (header : Packet) :
    Guarded cfg ⟨answered ackOnSamePath cfg.realisticFailure s.packet header,
      s.settled && ackOnSamePath⟩ := by
  intro both
  obtain ⟨settled, same⟩ := (Bool.and_eq_true _ _).mp both
  obtain ⟨detected, spine, link, allowed⟩ := guarded settled
  have marked : (ackOnSamePath && cfg.realisticFailure &&
      decide (s.packet.failureDetected ≠ 0)) = true := by
    simp [same, scheme.realistic, detected]
  rw [Network.answered, if_pos marked]
  exact ⟨one_ne_zero, spine, link, allowed⟩

theorem Sound.lands (sound : Sound table cfg links x) (side : Side) {s : Segment}
    (guarded : Guarded cfg s) (settled : s.settled = true) :
    Lands table mshift cfg links x side s := by
  obtain ⟨detected, spine, stamp, allowed⟩ := guarded settled
  have firm := sound.leaf side
  have inside : spine < (links side).length := firm.complete ▸ allowed.inside
  obtain ⟨t, there, slot⟩ := firm.slot
  have here : (links side)[spine]? = some (links side)[spine] := List.getElem?_eq_getElem inside
  exact ⟨spine, _, stamp, allowed, fun cut => allowed.alive (sound.cut spine cut), here, t, there,
    firm.numbered.delivered stamp detected (slot spine _ here allowed.alive)⟩

variable [DecidableEq τ]

theorem Firm.delete {leaf : Leaf T τ} {links : List τ} (firm : Firm table cfg links leaf)
    {ifs : List τ} (nullagent : τ)
    (dead : ∀ link ∈ ifs, ∃ spine, Dead cfg spine ∧ links[spine]? = some link) :
    Firm table cfg links { leaf with node := leaf.node.deleteRoutes table ifs nullagent } := by
  obtain ⟨t, there, slot⟩ := firm.slot
  obtain ⟨t', after, slots, same⟩ :=
    @Routes.deleteRoutes_of_mpathClsfr _ _ table _ ifs _ nullagent _ there
  refine ⟨firm.distinct, firm.complete, firm.numbered, same.trans firm.multiPath, t', after, ?_⟩
  intro i link here alive
  refine (slots i link).mpr ⟨slot i link here alive, fun member => ?_⟩
  obtain ⟨spine, gone, there⟩ := dead link member
  -- the link is at one place only
  have inside : spine < links.length := (List.getElem?_eq_some_iff.mp there).1
  have same : spine = i := (List.getElem?_inj inside firm.distinct).mp (there.trans here.symm)
  exact alive (same ▸ gone)

theorem Sound.step (sound : Sound table cfg links x) (scheme : Selective cfg)
    (step : Step table mshift cfg ackOnSamePath links x y) : Sound table cfg links y := by
  cases step with
  | send e header sent => exact sound.send scheme header sent
  | answer header member =>
    exact { sound with
      acks := List.forall_mem_cons.mpr
        ⟨(sound.data _ member).answered scheme header, sound.acks⟩ }
  | switch side held p there classified =>
    have firm := sound.leaf side
    exact sound.update { firm with numbered := firm.numbered.classify classified }
  | fail spine dead =>
    exact { sound with cut := List.forall_mem_cons.mpr ⟨dead, sound.cut⟩ }
  | mend spine =>
    exact { sound with cut := fun other member => sound.cut other (List.mem_of_mem_erase member) }
  | delete side ifs nullagent dead => exact sound.update ((sound.leaf side).delete nullagent dead)
  | add side ifs added => exact sound.update ((sound.leaf side).add added)

theorem Reached.sound (scheme : Selective cfg)
    (reached : Reached table mshift cfg ackOnSamePath links x) : Sound table cfg links x := by
  obtain ⟨start, opened, steps⟩ := reached
  induction steps with
  | refl => exact .opened opened
  | tail _ step before => exact before.step scheme step

/-- Once the failure is detected, every flowcell that starts takes a path that is up and that the
policy of the flow allows, and its ACKs, too, if they use the same path; whatever happens to links
and routes while the packets are under way. -/
theorem settled_lands (scheme : Selective cfg)
    (reached : Reached table mshift cfg ackOnSamePath links x) :
    (∀ s ∈ x.data, s.settled = true → Lands table mshift cfg links x .source s) ∧
      (∀ s ∈ x.acks, s.settled = true → Lands table mshift cfg links x .dest s) ∧
      (cfg.flowcellSizePkts = 1 →
        ∀ s ∈ x.data, s.packet.failureDetected ≠ 0 → s.settled = true) := by
  have sound := reached.sound scheme
  exact ⟨fun s member => sound.lands .source (sound.data s member),
    fun s member => sound.lands .dest (sound.acks s member), sound.detected⟩

end

/-- The four uplinks of either leaf. -/
def fourLinks : Side → List Nat
  | .source => [10, 11, 12, 13]
  | .dest => [20, 21, 22, 23]

def sprayingLeaf (links : List Nat) : Leaf (SlotList Nat) Nat where
  c := { packetSpraying := 1, selectiveSpraying := 1 }
  node := { routes := 4, mpathClsfr := some (installed links), entry := .multiPath }

def fourSpines : Crossing (SlotList Nat) Nat where
  agent := fresh twoDirectFailures
  settled := false
  leaf := fun side => sprayingLeaf (fourLinks side)
  data := []
  acks := []
  cut := []

theorem fourSpines_opened : Opened (slotList Nat) twoDirectFailures fourLinks fourSpines where
  agent := rfl
  settled := rfl
  data := rfl
  acks := rfl
  cut := rfl
  leaf side := by
    have first : FirstInstalled (slotList Nat) (fourLinks side) (fourSpines.leaf side).node
        (installed (fourLinks side)) :=
      ⟨rfl, rfl, @slot_foldl_installNext _ _ (slotList Nat) _ (fourLinks side) [] fun _ => rfl⟩
    cases side <;> exact ⟨rfl, by decide, ⟨_, first⟩, .inr ⟨by decide, by decide⟩⟩

/-- A packet is under way when spine 1 is lost, and so is its ACK when the routes are gone. -/
theorem settled_lands_fourSpines : ∃ x s a,
    Reached (slotList Nat) id twoDirectFailures true fourLinks x ∧
      (x.data = [s] ∧ x.acks = [a] ∧ x.cut = [1] ∧ s.settled = true ∧ a.settled = true) ∧
      Lands (slotList Nat) id twoDirectFailures fourLinks x .source s ∧
      Lands (slotList Nat) id twoDirectFailures fourLinks x .dest a := by
  obtain ⟨⟨agent, st⟩, sent⟩ := DrivenRun.exists_of_isOk
    (x := output twoDirectFailures lateEnv (fresh twoDirectFailures)) (by decide +kernel)
  have dead : Dead twoDirectFailures 1 := ⟨⟨3, 1, 100⟩, by decide, rfl, rfl, by decide⟩
  have settled : settles twoDirectFailures lateEnv fourSpines = true := by decide +kernel
  have scheme : Selective twoDirectFailures := ⟨by decide, rfl, rfl, rfl, rfl⟩
  have gone : ∀ link ∈ [11], ∃ spine, Dead twoDirectFailures spine ∧
      (fourLinks .source)[spine]? = some link := by
    intro link member
    rw [List.mem_singleton.mp member]
    exact ⟨1, dead, rfl⟩
  have steps : Relation.ReflTransGen (Step (slotList Nat) id twoDirectFailures true fourLinks)
      fourSpines _ :=
    (((Relation.ReflTransGen.refl.tail (.send lateEnv default sent)).tail
      (.fail 1 dead)).tail (.answer default List.mem_cons_self)).tail
      (.delete .source [11] 0 gone)
  have reached : Reached (slotList Nat) id twoDirectFailures true fourLinks _ :=
    ⟨fourSpines, fourSpines_opened, steps⟩
  have lands := settled_lands scheme reached
  refine ⟨_, _, _, reached, ⟨rfl, rfl, rfl, settled, ?_⟩, lands.1 _ List.mem_cons_self settled,
    lands.2.1 _ List.mem_cons_self ?_⟩
  · simp [settled]
  · simp [settled]

end Saps.Network
