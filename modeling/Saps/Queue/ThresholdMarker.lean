import Mathlib.Tactic.Linarith
import Saps.Queue.Red

/-!
# RED as a threshold marker

With the switch options for DCTCP nothing random is left of RED: a packet is
marked if the queue is long now and was long when the packet before it came.
-/
namespace Saps.Queue

/-- The switch options for DCTCP with marking threshold `K`, and the defaults next to them. -/
structure Dctcp {Q : Type} (K : ℚ) (s : REDQueue Q) : Prop where
  qib : s.qib = false
  bytes : s.edp.bytes = false
  setbit : s.edp.setbit = true
  gentle : s.edp.gentle = false
  qW : s.edp.qW = 1
  markP : s.edp.markP = 1
  thMinPkts : s.edp.thMinPkts = K
  thMaxPkts : s.edp.thMaxPkts = K
  useMarkP : s.edp.useMarkP = true
  wait : s.edp.wait = true
  adaptive : s.edp.adaptive = 0
  cautious : s.edp.cautious = 0

structure Draws.Valid (draws : Draws) : Prop where
  nonneg : 0 ≤ draws.uniform
  le_one : draws.uniform ≤ 1
  integer : ∀ k, 0 < k → draws.integer k < k

inductive Event where
  | arrival (pkt : Packet) (now : ℚ) (draws : Draws)
  | departure (now : ℚ)

/-- Every packet that arrives is ECN-capable. -/
def Event.Valid : Event → Prop
  | .arrival pkt _ draws => pkt.ect = true ∧ draws.Valid
  | .departure _ => True

/-- A queue length at which a packet may be marked. -/
def Long (K : ℚ) (found : Int) : Prop := max K 2 ≤ found

instance (K : ℚ) (found : Int) : Decidable (Long K found) :=
  inferInstanceAs (Decidable (max K 2 ≤ found))

namespace REDQueue

variable {Q : Type} (queue : PacketQueue Q) (maths : Maths)

/-- An event, with the queue length that the last arrival found. -/
def step : REDQueue Q × Option Int → Event → REDQueue Q × Option Int
  | (s, _), .arrival pkt now draws =>
    ((s.enque queue maths pkt now draws).s, some (queue.length s.q))
  | (s, last), .departure now => ((s.deque queue now).1, last)

def run (events : List Event) (s : REDQueue Q) : REDQueue Q × Option Int :=
  events.foldl (step queue maths) (s, none)

/-! ### One arrival -/

/-- What the events never change, and the state of the two flags behind the marks. -/
structure Marker (K : ℚ) (limit : Int) (s : REDQueue Q) (last : Option Int) : Prop
    extends Dctcp K s where
  thMin : s.edp.thMin = K
  thMax : s.edp.thMax = K
  qlim : s.qlim = limit
  count : 0 ≤ s.edv.count
  old : s.edv.old ≠ 0 ↔ ∃ found, last = some found ∧ Long K found

variable {queue maths} {K : ℚ} {limit : Int} {s : REDQueue Q} {last : Option Int}

/-- A step that keeps the parameters has only the two flags to account for. -/
theorem Marker.move (marker : Marker K limit s last) {t : REDQueue Q} {next : Option Int}
    (edp : t.edp = s.edp) (qib : t.qib = s.qib) (qlim : t.qlim = s.qlim) (count : 0 ≤ t.edv.count)
    (old : t.edv.old ≠ 0 ↔ ∃ found, next = some found ∧ Long K found) :
    Marker K limit t next where
  qib := qib.trans marker.qib
  bytes := edp ▸ marker.bytes
  setbit := edp ▸ marker.setbit
  gentle := edp ▸ marker.gentle
  qW := edp ▸ marker.qW
  markP := edp ▸ marker.markP
  thMinPkts := edp ▸ marker.thMinPkts
  thMaxPkts := edp ▸ marker.thMaxPkts
  useMarkP := edp ▸ marker.useMarkP
  wait := edp ▸ marker.wait
  adaptive := edp ▸ marker.adaptive
  cautious := edp ▸ marker.cautious
  thMin := edp ▸ marker.thMin
  thMax := edp ▸ marker.thMax
  qlim := qlim.trans marker.qlim
  count := count
  old := old

theorem long_iff {found : Int} : Long K found ↔ (found : ℚ) ≥ K ∧ found > 1 := by
  rw [Long, max_le_iff, show (2 : ℚ) = ((2 : Int) : ℚ) by norm_num, Int.cast_le]
  exact and_congr_right fun _ => by omega

theorem qlen_eq (dctcp : Dctcp K s) : qlen queue s = queue.length s.q := by
  rw [qlen, dctcp.qib]
  rfl

/-- With weight 1 the average is the queue length, however long the queue was idle. -/
theorem average_eq (dctcp : Dctcp K s) (now : ℚ) : average queue now s =
    { s with idle := false, edv := { s.edv with vAve := queue.length s.q } } := by
  simp [average, estimator, dctcp.qW, dctcp.adaptive, qlen_eq dctcp]

theorem calculatePNew_eq_one {vAve thMax : ℚ} (vA vB vC vD maxP : ℚ) (above : vAve ≥ thMax) :
    calculatePNew vAve thMax false vA vB vC vD maxP = 1 := by
  simp [calculatePNew, above]

/-- The wait branch, too, is certain from the first packet after a mark on. -/
theorem modifyP_eq_one {count : Int} (countBytes meanPktsize size : Int) (some : 1 ≤ count) :
    modifyP 1 count countBytes false meanPktsize true size = 1 := by
  have atLeast : (1 : ℚ) ≤ count := by exact_mod_cast some
  simp only [modifyP, Bool.false_eq_true, if_false, if_true, false_and, mul_one,
    if_neg atLeast.not_gt]
  split_ifs with first large large
  · exact rfl
  · -- between 1 and 2 there is only 1
    have one : count = 1 := by
      have below : count < 2 := by exact_mod_cast first
      omega
    rw [one]
    norm_num
  · exact rfl
  · exact rfl

theorem dropEarly_eq (marker : Marker K limit s last) {pkt : Packet} {u : ℚ} (ect : pkt.ect = true)
    (drawn : u ≤ 1) (above : s.edv.vAve ≥ K) (some : 1 ≤ s.edv.count) :
    dropEarly queue maths pkt u s =
      (false, { pkt with ce := true },
        { s with edv := { s.edv with vProb1 := 1, vProb := 1, count := 0, countBytes := 0 } }) := by
  have p : calculatePNew s.edv.vAve s.edp.thMax s.edp.gentle s.edv.vA s.edv.vB s.edv.vC s.edv.vD
      s.edv.curMaxP = 1 := by
    rw [marker.gentle, marker.thMax]
    exact calculatePNew_eq_one _ _ _ _ _ above
  have modified := modifyP_eq_one s.edv.countBytes s.edp.meanPktsize pkt.size some
  rw [dropEarly]
  simp only [p, marker.bytes, marker.wait, modified, marker.cautious, marker.setbit, ect,
    marker.useMarkP, marker.markP]
  simp [drawn]

/-- What is due to a packet that finds the queue at length `found`, `last` being the length that
the packet before it found. -/
def Marks (K : ℚ) (found : Int) (last : Option Int) : Prop :=
  Long K found ∧ ∃ before, last = some before ∧ Long K before

/-- No early drop, and a mark exactly where one is due. -/
theorem dropLogic_eq (marker : Marker K limit s last) {pkt : Packet} {u : ℚ} (ect : pkt.ect = true)
    (drawn : u ≤ 1) (average : s.edv.vAve = queue.length s.q) (some : 1 ≤ s.edv.count) :
    ∃ edv ce, dropLogic queue maths pkt u s = (.none, { pkt with ce }, { s with edv }) ∧
      (ce = true ↔ pkt.ce = true ∨ Marks K (queue.length s.q) last) ∧
      0 ≤ edv.count ∧ (edv.old ≠ 0 ↔ Long K (queue.length s.q)) := by
  rw [dropLogic]
  simp only [marker.useMarkP, not_true_eq_false, false_and, if_false, qlen_eq marker.toDctcp,
    marker.thMin, average, ← long_iff]
  by_cases long : Long K (queue.length s.q)
  · rw [if_pos long]
    by_cases armed : s.edv.old = 0
    -- the first long queue only arms the marker
    · rw [if_pos armed]
      refine ⟨_, pkt.ce, rfl, ?_, Int.one_nonneg, iff_of_true one_ne_zero long⟩
      rw [or_iff_left]
      exact fun marks => marker.old.mpr marks.2 armed
    · rw [if_neg armed, dropEarly_eq marker ect drawn (average ▸ (long_iff.mp long).1) some]
      refine ⟨_, true, rfl, iff_of_true rfl (.inr ⟨long, marker.old.mp armed⟩), le_refl _, ?_⟩
      exact iff_of_true armed long
  · rw [if_neg long]
    refine ⟨_, pkt.ce, rfl, ?_, le_trans Int.one_nonneg some, iff_of_false (fun old => old rfl) long⟩
    rw [or_iff_left]
    exact fun marks => long marks.1

/-- What an arrival leaves: the mark that is due, and a drop only from a full queue, of one packet. -/
structure Admitted (K : ℚ) (found : Int) (last : Option Int) (limit : Int) (before : List Packet)
    (pkt : Packet) (after : List Packet) (marked : Packet) (dropped : List Packet) : Prop where
  packet : marked = { pkt with ce := marked.ce }
  mark : marked.ce = true ↔ pkt.ce = true ∨ Marks K found last
  kept : found < limit → dropped = [] ∧ after = before ++ [marked]
  full : limit ≤ found → ∃ n victim, (before ++ [marked])[n]? = some victim ∧ dropped = [victim] ∧
    after = (before ++ [marked]).eraseIdx n

theorem victim_lt {draws : Draws} (valid : draws.Valid) (some : queue.contents s.q ≠ []) :
    victim queue draws.integer s < (queue.contents s.q).length := by
  have positive := List.length_pos_of_ne_nil some
  simp only [victim]
  split_ifs
  · omega
  · exact valid.integer _ positive
  · omega

/-- The state in which the drop logic finds the queue. -/
theorem Marker.tally (marker : Marker K limit s last) (pkt : Packet) (now : ℚ) :
    let t := REDQueue.tally queue pkt (average queue now s)
    Marker K limit t last ∧ t.q = s.q ∧ t.edv.vAve = queue.length t.q ∧ 1 ≤ t.edv.count := by
  have count := marker.count
  rw [average_eq marker.toDctcp]
  refine ⟨marker.move rfl rfl rfl ?_ marker.old, rfl, rfl, ?_⟩
  · dsimp only [REDQueue.tally]
    omega
  · dsimp only [REDQueue.tally]
    omega

/-- A packet that finds a full queue enters it, and one packet leaves it again. -/
theorem settle_forced {pkt : Packet} {draws : Draws} (valid : draws.Valid) :
    let after := settle queue .forced draws.integer pkt s
    ∃ n victim, (queue.contents s.q ++ [pkt])[n]? = some victim ∧ after.dropped = [victim] ∧
      queue.contents after.s.q = (queue.contents s.q ++ [pkt]).eraseIdx n := by
  let entered : REDQueue Q := { s with q := queue.enque s.q pkt }
  have contents : queue.contents entered.q = queue.contents s.q ++ [pkt] :=
    queue.contents_enque s.q pkt
  have inside : victim queue draws.integer entered < (queue.contents entered.q).length :=
    victim_lt valid (by simp [contents])
  obtain ⟨picked, found⟩ : ∃ picked,
      (queue.contents entered.q)[victim queue draws.integer entered]? = some picked :=
    ⟨_, List.getElem?_eq_getElem inside⟩
  refine ⟨victim queue draws.integer entered, picked, ?_, congrArg Option.toList found, ?_⟩
  · rw [← contents]
    exact found
  · rw [← contents]
    exact queue.contents_removeAt _ _

theorem enque_eq (marker : Marker K limit s last) {pkt : Packet} (now : ℚ) {draws : Draws}
    (ect : pkt.ect = true) (valid : draws.Valid) :
    let after := enque queue maths pkt now draws s
    Admitted K (queue.length s.q) last limit (queue.contents s.q) pkt
        (queue.contents after.s.q) after.pkt after.dropped ∧
      Marker K limit after.s (some (queue.length s.q)) := by
  obtain ⟨moved, same, average, some⟩ := @Marker.tally _ queue _ _ _ _ marker pkt now
  rw [enque]
  generalize tally queue pkt (REDQueue.average queue now s) = t at moved same average some
  rw [← same]
  obtain ⟨edv, ce, logic, mark, count, old⟩ :=
    @dropLogic_eq _ queue maths _ _ _ _ moved pkt draws.uniform ect valid.le_one average some
  have flags : edv.old ≠ 0 ↔
      ∃ found, Option.some (queue.length t.q) = Option.some found ∧ Long K found := by
    simpa using old
  have marked : Marker K limit { t with edv } (Option.some (queue.length t.q)) :=
    moved.move rfl rfl rfl count flags
  have limited : (if t.qib then t.qlim * t.edp.meanPktsize else t.qlim) = limit := by
    rw [moved.qib, moved.qlim]
    rfl
  simp only [logic, qlen_eq moved.toDctcp, limited]
  -- the packet enters in any case, and a full queue gives one up
  split_ifs with full
  · obtain ⟨n, victim, inside, dropped, contents⟩ :=
      @settle_forced _ queue { t with edv } { pkt with ce } draws valid
    refine ⟨⟨rfl, mark, fun short => absurd full short.not_ge, fun _ => ?_⟩, ?_⟩
    · exact ⟨n, victim, inside, dropped, contents⟩
    · refine marked.move rfl rfl rfl ?_ ?_
      · simp only [settle]
        split_ifs
        · exact count
        · exact le_refl _
      · simp only [settle]
        split_ifs <;> exact flags
  · refine ⟨⟨rfl, mark, fun _ => ⟨rfl, ?_⟩, fun long => absurd long full⟩, ?_⟩
    · exact queue.contents_enque t.q _
    · exact marked.move rfl rfl rfl count flags

/-! ### Runs -/

theorem step_marker (marker : Marker K limit s last) {event : Event} (valid : event.Valid) :
    Marker K limit (step queue maths (s, last) event).1 (step queue maths (s, last) event).2 := by
  cases event with
  | arrival pkt now draws => exact (enque_eq marker now valid.1 valid.2).2
  | departure now =>
    simp only [step, deque]
    split
    · exact marker.move rfl rfl rfl marker.count marker.old
    · exact marker.move rfl rfl rfl marker.count marker.old

theorem run_marker (marker : Marker K limit s last) {events : List Event}
    (valid : ∀ event ∈ events, event.Valid) :
    Marker K limit (events.foldl (step queue maths) (s, last)).1
      (events.foldl (step queue maths) (s, last)).2 := by
  induction events generalizing s last with
  | nil => exact marker
  | cons event events ih =>
    exact ih (step_marker marker (valid event (by simp))) fun later member =>
      valid later (by simp [member])

/-- With a weight and thresholds given, nothing is configured automatically but `bottom`. -/
theorem initializeParams_eq (exp : ℚ → ℚ) (link : Link) {edp : Edp} (qW : edp.qW = 1)
    (thMin : edp.thMinPkts ≠ 0) (thMax : edp.thMaxPkts ≠ 0) :
    ∃ bottom, initializeParams exp link edp = { edp with bottom } := by
  have weight : ¬ edp.qW = 0 ∧ ¬ edp.qW = -1 ∧ ¬ edp.qW = -2 := by
    rw [qW]
    norm_num
  simp only [initializeParams, if_neg weight.1, if_neg weight.2.1, if_neg weight.2.2, if_neg thMin,
    if_neg thMax]
  split_ifs
  · exact ⟨_, rfl⟩
  · exact ⟨_, rfl⟩
  · exact ⟨edp.bottom, rfl⟩

theorem resetEdp_eq (exp : ℚ → ℚ) (positive : 0 < K) (dctcp : Dctcp K s) :
    ∃ ptc bottom, resetEdp exp s.link s.qib s.edp =
      { s.edp with ptc, bottom, thMin := K, thMax := K } := by
  have thMin : s.edp.thMinPkts ≠ 0 := dctcp.thMinPkts ▸ positive.ne'
  have thMax : s.edp.thMaxPkts ≠ 0 := dctcp.thMaxPkts ▸ positive.ne'
  simp only [resetEdp, dctcp.qib, Bool.false_eq_true, if_false]
  cases s.link with
  | none =>
    refine ⟨s.edp.ptc, s.edp.bottom, ?_⟩
    simp only [if_neg thMax]
    rw [dctcp.thMinPkts, dctcp.thMaxPkts]
  | some link =>
    let ptc := link.bandwidth / (8 * s.edp.meanPktsize)
    obtain ⟨bottom, edp⟩ := @initializeParams_eq exp link { s.edp with ptc } dctcp.qW thMin thMax
    refine ⟨ptc, bottom, ?_⟩
    simp only [edp, ptc, if_neg thMax]
    rw [dctcp.thMinPkts, dctcp.thMaxPkts]

theorem resetEdv_flags (edp : Edp) (edv : Edv) :
    (resetEdv edp edv).count = 0 ∧ (resetEdv edp edv).old = 0 := by
  cases gentle : edp.gentle with
  | false => simp [resetEdv, gentle]
  | true => simp [resetEdv, gentle]

theorem reset_marker (positive : 0 < K) (dctcp : Dctcp K s) (now : ℚ) :
    Marker K s.qlim (reset queue maths now s) none := by
  obtain ⟨ptc, bottom, edp⟩ := resetEdp_eq maths.exp positive dctcp
  obtain ⟨count, old⟩ := resetEdv_flags (resetEdp maths.exp s.link s.qib s.edp) s.edv
  have flags : (reset queue maths now s).edv.old ≠ 0 ↔
      ∃ found, (none : Option Int) = some found ∧ Long K found :=
    iff_of_false (fun some => some old) (by rintro ⟨found, none, -⟩; cases none)
  have parameters : (reset queue maths now s).edp =
      { s.edp with ptc, bottom, thMin := K, thMax := K } := edp
  exact {
    qib := dctcp.qib
    bytes := parameters ▸ dctcp.bytes
    setbit := parameters ▸ dctcp.setbit
    gentle := parameters ▸ dctcp.gentle
    qW := parameters ▸ dctcp.qW
    markP := parameters ▸ dctcp.markP
    thMinPkts := parameters ▸ dctcp.thMinPkts
    thMaxPkts := parameters ▸ dctcp.thMaxPkts
    useMarkP := parameters ▸ dctcp.useMarkP
    wait := parameters ▸ dctcp.wait
    adaptive := parameters ▸ dctcp.adaptive
    cautious := parameters ▸ dctcp.cautious
    thMin := by rw [parameters]
    thMax := by rw [parameters]
    qlim := rfl
    count := count.ge
    old := flags }

/-- After `reset()`, for every limit and every history: marks as from a threshold marker, and one
packet dropped exactly where a packet finds the queue full. -/
theorem dctcp_thresholdMarker (positive : 0 < K) (dctcp : Dctcp K s) (resetAt : ℚ)
    (events : List Event) (valid : ∀ event ∈ events, event.Valid) (pkt : Packet) (now : ℚ)
    (draws : Draws) (ect : pkt.ect = true) (drawn : draws.Valid) :
    let found := run queue maths events (reset queue maths resetAt s)
    let after := enque queue maths pkt now draws found.1
    Admitted K (queue.length found.1.q) found.2 s.qlim (queue.contents found.1.q) pkt
      (queue.contents after.s.q) after.pkt after.dropped :=
  (enque_eq (run_marker (reset_marker positive dctcp resetAt) valid) now ect drawn).1

/-- A queue as a list. -/
def listQueue : PacketQueue (List Packet) where
  contents := id
  enque := fun q pkt => q ++ [pkt]
  deque := fun
    | [] => none
    | pkt :: q => some (pkt, q)
  removeAt := List.eraseIdx
  reset := fun _ => []
  contents_enque := fun _ _ => rfl
  contents_removeAt := fun _ _ => rfl

/-- A queue with threshold 1 and room for three packets, before its first `reset()`. -/
def shallow : REDQueue (List Packet) where
  edp := { thMinPkts := 1, thMaxPkts := 1 }
  edv := {
    vAve := 0
    vProb1 := 0
    vSlope := 0
    vProb := 0
    vA := 0
    vB := 0
    vC := 0
    vD := 0
    count := 0
    countBytes := 0
    old := 0
    curMaxP := 1
    lastset := 0
    status := .between }
  q := []
  qlim := 3
  link := none
  qib := false
  dropFront := false
  dropRand := false
  ns1Compat := false
  idle := true
  idletime := 0
  curq := 0

/-- Without a link the packet time constant is 0, and both functions are asked for nothing else. -/
def trivialMaths : Maths := ⟨fun _ => 1, fun _ _ => 1⟩

def arriving : Event := .arrival ⟨1500, true, false⟩ 0 ⟨1, fun _ => 0⟩

/-- The fourth packet finds two long queues in a row, the second of them full. -/
theorem shallow_thresholdMarker :
    let found := run listQueue trivialMaths [arriving, arriving, arriving]
      (reset listQueue trivialMaths 0 shallow)
    let after := enque listQueue trivialMaths ⟨1500, true, false⟩ 0 ⟨1, fun _ => 0⟩ found.1
    (after.pkt.ce = true ∧ after.dropped.length = 1) ∧
      Admitted 1 (listQueue.length found.1.q) found.2 3 (listQueue.contents found.1.q)
        ⟨1500, true, false⟩ (listQueue.contents after.s.q) after.pkt after.dropped := by
  have drawn : Draws.Valid ⟨1, fun _ => 0⟩ := ⟨zero_le_one, le_refl 1, fun k some => some⟩
  have valid : ∀ event ∈ [arriving, arriving, arriving], event.Valid := by
    simp [arriving, Event.Valid, drawn]
  refine ⟨by decide +kernel, ?_⟩
  exact dctcp_thresholdMarker (s := shallow) zero_lt_one
    ⟨rfl, rfl, rfl, rfl, rfl, rfl, rfl, rfl, rfl, rfl, rfl, rfl⟩ 0 _ valid _ 0 _ rfl drawn

end REDQueue

end Saps.Queue
