import Saps.Queue.ThresholdMarker

/-!
# What becomes of the packets

A RED queue under any traffic, with any parameters: every packet that comes in
leaves at the front, is dropped or is still there.
-/
namespace Saps.Queue

/-- What the code relies on of the queue below where packets leave it. -/
structure PacketQueue.Fifo {Q : Type} (queue : PacketQueue Q) : Prop where
  deque_some : ∀ {q pkt rest}, queue.deque q = some (pkt, rest) →
    queue.contents q = pkt :: queue.contents rest
  deque_none : ∀ {q}, queue.deque q = none → queue.contents q = []
  reset : ∀ q, queue.contents (queue.reset q) = []

/-- Only the draws of an event are constrained. -/
def Event.Drawn : Event → Prop
  | .arrival _ _ draws => draws.Valid
  | .departure _ => True

/-- An arrival: the packet as it came and as it was taken in, and what RED knew of the queue. -/
structure Admission where
  now : ℚ
  offered : Packet
  taken : Packet
  dropped : List Packet
  found : Int
  full : Bool
  vAve : ℚ
  curMaxP : ℚ
deriving DecidableEq, Repr

namespace REDQueue

variable {Q : Type} (queue : PacketQueue Q) (maths : Maths)

/-- The limit, in the unit of the queue size. -/
def limit (s : REDQueue Q) : Int := if s.qib then s.qlim * s.edp.meanPktsize else s.qlim

def admission (pkt : Packet) (now : ℚ) (draws : Draws) (s : REDQueue Q) : Admission :=
  let after := s.enque queue maths pkt now draws
  { now
    offered := pkt
    taken := after.pkt
    dropped := after.dropped
    found := qlen queue s
    full := decide (limit s ≤ qlen queue s)
    vAve := after.s.edv.vAve
    curMaxP := after.s.edv.curMaxP }

/-- A queue with all that came to it and all that left it. -/
structure History (Q : Type) where
  s : REDQueue Q
  admissions : List Admission
  departed : List Packet

namespace History

variable (h : History Q)

def dropped : List Packet := h.admissions.flatMap Admission.dropped

def arrive (pkt : Packet) (now : ℚ) (draws : Draws) : History Q :=
  { h with
    s := (h.s.enque queue maths pkt now draws).s
    admissions := h.admissions ++ [admission queue maths pkt now draws h.s] }

def depart (now : ℚ) : History Q :=
  let (s, pkt) := h.s.deque queue now
  { h with s, departed := h.departed ++ pkt.toList }

def step (event : Event) : History Q :=
  match event with
  | .arrival pkt now draws => h.arrive queue maths pkt now draws
  | .departure now => h.depart queue now

end History

def historyOf (events : List Event) (s : REDQueue Q) : History Q :=
  events.foldl (History.step queue maths) ⟨s, [], []⟩

/-! ### What an arrival does -/

/-- The probability that `drop_early()` starts from. -/
def earlyP (s : REDQueue Q) : ℚ :=
  calculatePNew s.edv.vAve s.edp.thMax s.edp.gentle s.edv.vA s.edv.vB s.edv.vC s.edv.vD
    s.edv.curMaxP

/-- The probability with which `drop_early()` acts. -/
def modifiedP (pkt : Packet) (s : REDQueue Q) : ℚ :=
  modifyP (earlyP s) s.edv.count s.edv.countBytes s.edp.bytes s.edp.meanPktsize s.edp.wait pkt.size

/-- The state in which `drop_early()` leaves a packet alone. -/
def judged (pkt : Packet) (s : REDQueue Q) : REDQueue Q :=
  { s with edv := { s.edv with vProb1 := earlyP s, vProb := modifiedP pkt s } }

/-- The state in which it acts. -/
def acted (pkt : Packet) (s : REDQueue Q) : REDQueue Q :=
  let s := judged pkt s
  { s with edv := { s.edv with count := 0, countBytes := 0 } }

/-- What the drop logic can make of a packet. -/
inductive Judged (pkt : Packet) (u : ℚ) (s : REDQueue Q) : Droptype × Packet × REDQueue Q → Prop
  | forced (useMarkP : s.edp.useMarkP = false)
      (high : s.edp.gentle = false ∧ s.edv.vAve ≥ s.edp.thMax ∨
        s.edp.gentle = true ∧ s.edv.vAve ≥ 2 * s.edp.thMax) :
      Judged pkt u s (.forced, pkt, s)
  | crossed (above : s.edv.vAve ≥ s.edp.thMin) (long : qlen queue s > 1) (old : s.edv.old = 0) :
      Judged pkt u s (.none, pkt,
        { s with edv := { s.edv with count := 1, countBytes := pkt.size, old := 1 } })
  | spared (above : s.edv.vAve ≥ s.edp.thMin) (armed : s.edv.old ≠ 0)
      (missed : s.edp.cautious ≠ 1 → s.edp.cautious ≠ 2 → modifiedP pkt s < u) :
      Judged pkt u s (.none, pkt, judged pkt s)
  | marked (above : s.edv.vAve ≥ s.edp.thMin) (hit : s.edp.cautious ≠ 2 → u ≤ modifiedP pkt s)
      (setbit : s.edp.setbit = true) (ect : pkt.ect = true) :
      Judged pkt u s (.none, { pkt with ce := true }, acted pkt s)
  | dropped (above : s.edv.vAve ≥ s.edp.thMin) (hit : s.edp.cautious ≠ 2 → u ≤ modifiedP pkt s)
      (refused : s.edp.setbit = true → pkt.ect = true →
        s.edp.useMarkP = true ∧ s.edp.markP < earlyP s) :
      Judged pkt u s (.unforced, pkt, acted pkt s)
  | below (low : s.edv.vAve < s.edp.thMin ∨ qlen queue s ≤ 1) :
      Judged pkt u s (.none, pkt, { s with edv := { s.edv with vProb := 0, old := 0 } })

/-- The draw that `drop_early()` compares with the probability. -/
def adjusted (u : ℚ) (s : REDQueue Q) : ℚ :=
  let ratio := qlen queue s / (maths.pow (1 - s.edp.qW) (s.edp.ptc * (5 / 100)) * s.edv.vAve)
  if s.edp.cautious = 2 ∧ ratio < 1 then u * (1 / ratio) else u

variable {s : REDQueue Q}

theorem adjusted_eq {u : ℚ} (plain : s.edp.cautious ≠ 2) : adjusted queue maths u s = u :=
  if_neg fun both => plain both.1

theorem dropEarly_eq_ite (pkt : Packet) (u : ℚ) (s : REDQueue Q) :
    dropEarly queue maths pkt u s =
      if s.edp.cautious = 1 ∧ (qlen queue s : ℚ) <
          maths.pow (1 - s.edp.qW) (s.edp.ptc * (5 / 100)) * s.edv.vAve then
        (false, pkt, judged pkt s)
      else if adjusted queue maths u s ≤ modifiedP pkt s then
        if s.edp.setbit = true ∧ pkt.ect = true ∧
            (¬ s.edp.useMarkP = true ∨ earlyP s ≤ s.edp.markP) then
          (false, { pkt with ce := true }, acted pkt s)
        else (true, pkt, acted pkt s)
      else (false, pkt, judged pkt s) := rfl

theorem dropLogic_judged (pkt : Packet) (u : ℚ) (s : REDQueue Q) :
    Judged queue pkt u s (dropLogic queue maths pkt u s) := by
  rw [dropLogic]
  split
  next inside =>
    split
    next forced => exact .forced (by simpa using forced.1) (by simpa using forced.2)
    next =>
      split
      next old => exact .crossed inside.1 inside.2 old
      next armed =>
        rw [dropEarly_eq_ite]
        by_cases cautious : s.edp.cautious = 1 ∧ (qlen queue s : ℚ) <
            maths.pow (1 - s.edp.qW) (s.edp.ptc * (5 / 100)) * s.edv.vAve
        · rw [if_pos cautious]
          exact .spared inside.1 armed fun other => absurd cautious.1 other
        · rw [if_neg cautious]
          by_cases hit : adjusted queue maths u s ≤ modifiedP pkt s
          · have drawn : s.edp.cautious ≠ 2 → u ≤ modifiedP pkt s := fun plain => by
              rwa [adjusted_eq queue maths plain] at hit
            rw [if_pos hit]
            by_cases mark : s.edp.setbit = true ∧ pkt.ect = true ∧
                (¬ s.edp.useMarkP = true ∨ earlyP s ≤ s.edp.markP)
            · rw [if_pos mark]
              exact .marked inside.1 drawn mark.1 mark.2.1
            · rw [if_neg mark]
              refine .dropped inside.1 drawn fun setbit ect => ?_
              simpa [setbit, ect] using mark
          · rw [if_neg hit]
            refine .spared inside.1 armed fun _ plain => ?_
            rwa [adjusted_eq queue maths plain, not_le] at hit
  next outside =>
    refine .below ?_
    rw [not_and_or, not_le, not_lt] at outside
    exact outside

/-- The state in which the drop logic finds the queue. -/
def prepared (queue : PacketQueue Q) (pkt : Packet) (now : ℚ) (s : REDQueue Q) : REDQueue Q :=
  tally queue pkt (average queue now s)

theorem enque_judged (pkt : Packet) (now : ℚ) (draws : Draws) (s : REDQueue Q) :
    ∃ droptype taken t,
      Judged queue pkt draws.uniform (prepared queue pkt now s) (droptype, taken, t) ∧
      s.enque queue maths pkt now draws =
        settle queue (if limit s ≤ qlen queue s then .forced else droptype) draws.integer taken t :=
  ⟨_, _, _, dropLogic_judged queue maths pkt draws.uniform (prepared queue pkt now s), rfl⟩

/-- The parameters and what `reset()` made of them. -/
structure Kept (s t : REDQueue Q) : Prop where
  edp : t.edp = s.edp
  qib : t.qib = s.qib
  qlim : t.qlim = s.qlim
  vA : t.edv.vA = s.edv.vA
  vB : t.edv.vB = s.edv.vB
  vC : t.edv.vC = s.edv.vC
  vD : t.edv.vD = s.edv.vD

theorem Kept.refl (s : REDQueue Q) : Kept s s := ⟨rfl, rfl, rfl, rfl, rfl, rfl, rfl⟩

theorem Kept.trans {s t r : REDQueue Q} (first : Kept s t) (second : Kept t r) : Kept s r :=
  ⟨second.edp.trans first.edp, second.qib.trans first.qib, second.qlim.trans first.qlim,
    second.vA.trans first.vA, second.vB.trans first.vB, second.vC.trans first.vC,
    second.vD.trans first.vD⟩

theorem Kept.limit {s t : REDQueue Q} (kept : Kept s t) : limit t = limit s := by
  simp only [REDQueue.limit, kept.qib, kept.qlim, kept.edp]

/-- `max_p` after an arrival that makes this the average. -/
def adapted (edp : Edp) (newAve now : ℚ) (edv : Edv) : Edv :=
  if edp.adaptive = 1 then
    if edp.fengAdaptive = 1 then updateMaxPFeng edp newAve edv
    else if now > edv.lastset + edp.interval then updateMaxP edp newAve now edv
    else edv
  else edv

/-- The arrivals pretended for an idle period. -/
def pretended (now : ℚ) (s : REDQueue Q) : Nat :=
  let ptc := if s.edp.cautious = 3 then s.edp.ptc * s.edp.meanPktsize / s.edp.idlePktsize
    else s.edp.ptc
  (if s.idle then truncate (ptc * (now - s.idletime)) else 0).toNat

/-- The average at an arrival. -/
def newAve (queue : PacketQueue Q) (now : ℚ) (s : REDQueue Q) : ℚ :=
  decay s.edp.qW (pretended now s) s.edv.vAve * (1 - s.edp.qW) + s.edp.qW * qlen queue s

/-- Adapting `max_p` changes nothing else but its own bookkeeping. -/
theorem adapted_eq (edp : Edp) (newAve now : ℚ) (edv : Edv) :
    ∃ curMaxP lastset status, adapted edp newAve now edv =
      { edv with curMaxP, lastset, status } := by
  simp only [adapted]
  split_ifs
  · simp only [updateMaxPFeng]
    split_ifs <;> exact ⟨_, _, _, rfl⟩
  · simp only [updateMaxP]
    split_ifs <;> exact ⟨_, _, _, rfl⟩
  · exact ⟨_, _, _, rfl⟩
  · exact ⟨_, _, _, rfl⟩

theorem prepared_eq (pkt : Packet) (now : ℚ) (s : REDQueue Q) :
    prepared queue pkt now s =
      { s with
        idle := false
        curq := qlen queue s
        edv := { adapted s.edp (newAve queue now s) now s.edv with
          vAve := newAve queue now s
          count := s.edv.count + 1
          countBytes := s.edv.countBytes + pkt.size } } := by
  obtain ⟨curMaxP, lastset, status, eq⟩ := adapted_eq s.edp (newAve queue now s) now s.edv
  have estimated : ∀ m : Int, estimator s.edp (qlen queue s) (m + 1) s.edv.vAve s.edp.qW now s.edv =
      (decay s.edp.qW m.toNat s.edv.vAve * (1 - s.edp.qW) + s.edp.qW * qlen queue s,
        adapted s.edp (decay s.edp.qW m.toNat s.edv.vAve * (1 - s.edp.qW) +
          s.edp.qW * qlen queue s) now s.edv) := by
    intro m
    simp only [estimator, adapted, add_sub_cancel_right]
  simp only [prepared, tally, average, estimated]
  simp only [newAve, pretended] at eq ⊢
  rw [eq]
  rfl

theorem prepared_kept (pkt : Packet) (now : ℚ) (s : REDQueue Q) :
    Kept s (prepared queue pkt now s) ∧ (prepared queue pkt now s).q = s.q := by
  obtain ⟨curMaxP, lastset, status, eq⟩ := adapted_eq s.edp (newAve queue now s) now s.edv
  rw [prepared_eq queue, eq]
  exact ⟨⟨rfl, rfl, rfl, rfl, rfl, rfl, rfl⟩, rfl⟩

variable {queue}

theorem Judged.kept {pkt taken : Packet} {u : ℚ} {droptype : Droptype} {t : REDQueue Q}
    (judgement : Judged queue pkt u s (droptype, taken, t)) : Kept s t ∧ t.q = s.q := by
  cases judgement <;> exact ⟨⟨rfl, rfl, rfl, rfl, rfl, rfl, rfl⟩, rfl⟩

variable (queue)

theorem settle_kept (droptype : Droptype) (integer : Nat → Nat) (pkt : Packet) (s : REDQueue Q) :
    Kept s (settle queue droptype integer pkt s).s := by
  cases droptype with
  | none => exact ⟨rfl, rfl, rfl, rfl, rfl, rfl, rfl⟩
  | unforced => exact .refl s
  | forced =>
    simp only [settle]
    split_ifs <;> exact ⟨rfl, rfl, rfl, rfl, rfl, rfl, rfl⟩

theorem enque_kept (pkt : Packet) (now : ℚ) (draws : Draws) (s : REDQueue Q) :
    Kept s (s.enque queue maths pkt now draws).s := by
  obtain ⟨droptype, taken, t, judgement, enque⟩ := enque_judged queue maths pkt now draws s
  rw [enque]
  exact ((prepared_kept queue pkt now s).1.trans judgement.kept.1).trans (settle_kept queue _ _ _ _)

theorem deque_kept (now : ℚ) (s : REDQueue Q) : Kept s (s.deque queue now).1 := by
  simp only [deque]
  split <;> exact ⟨rfl, rfl, rfl, rfl, rfl, rfl, rfl⟩

theorem depart_edv (now : ℚ) (h : History Q) : (h.depart queue now).s.edv = h.s.edv := by
  simp only [History.depart, deque]
  split <;> rfl

theorem step_kept (event : Event) (h : History Q) : Kept h.s (h.step queue maths event).s := by
  cases event with
  | arrival pkt now draws => exact enque_kept queue maths pkt now draws h.s
  | departure now => exact deque_kept queue now h.s

/-- A run is followed step by step, and the parameters stay the same all along. -/
theorem historyOf_invariant {I : History Q → Prop} {events : List Event} (initial : I ⟨s, [], []⟩)
    (preserved : ∀ h, Kept s h.s → I h → ∀ event ∈ events, I (h.step queue maths event)) :
    I (historyOf queue maths events s) := by
  have both := List.foldlRecOn (motive := fun h : History Q => Kept s h.s ∧ I h) events
    (History.step queue maths) ⟨Kept.refl s, initial⟩ fun h before event member =>
      ⟨before.1.trans (step_kept queue maths event h), preserved h before.1 before.2 event member⟩
  exact both.2

theorem historyOf_kept (events : List Event) (s : REDQueue Q) :
    Kept s (historyOf queue maths events s).s :=
  historyOf_invariant queue maths (I := fun h => Kept s h.s) (.refl s) fun h _ before event _ =>
    before.trans (step_kept queue maths event h)

/-! ### Conservation -/

/-- What RED may do to the mark of a packet that it takes in. -/
structure Admission.Marked (edp : Edp) (a : Admission) : Prop where
  packet : a.taken = { a.offered with ce := a.taken.ce }
  kept : a.offered.ce = true → a.taken.ce = true
  capable : a.taken.ce = true → a.offered.ce = true ∨ edp.setbit = true ∧ a.offered.ect = true

/-- Nothing is lost but what was dropped, nothing is doubled, and nothing is overtaken. -/
structure Conserved (queue : PacketQueue Q) (h : History Q) : Prop where
  marked : ∀ a ∈ h.admissions, Admission.Marked h.s.edp a
  order : (h.departed ++ queue.contents h.s.q).Sublist (h.admissions.map Admission.taken)
  whole : (h.departed ++ queue.contents h.s.q ++ h.dropped).Perm
    (h.admissions.map Admission.taken)

variable {queue}

theorem Judged.packet {pkt taken : Packet} {u : ℚ} {droptype : Droptype} {t : REDQueue Q}
    (judgement : Judged queue pkt u s (droptype, taken, t)) :
    taken = { pkt with ce := taken.ce } ∧ (pkt.ce = true → taken.ce = true) ∧
      (taken.ce = true → pkt.ce = true ∨ s.edp.setbit = true ∧ pkt.ect = true) := by
  cases judgement with
  | marked above hit setbit ect => exact ⟨rfl, fun _ => rfl, fun _ => .inr ⟨setbit, ect⟩⟩
  | forced | crossed | spared | dropped | below => exact ⟨rfl, id, .inl⟩

variable (queue)

/-- The packet joins the queue, of which one may be dropped. -/
theorem settle_contents {draws : Draws} (valid : draws.Valid) (droptype : Droptype) (pkt : Packet)
    (s : REDQueue Q) :
    let after := settle queue droptype draws.integer pkt s
    (queue.contents after.s.q).Sublist (queue.contents s.q ++ [pkt]) ∧
      (queue.contents after.s.q ++ after.dropped).Perm (queue.contents s.q ++ [pkt]) := by
  cases droptype with
  | none =>
    have entered := queue.contents_enque s.q pkt
    simp only [settle, entered, List.append_nil]
    exact ⟨.refl _, .refl _⟩
  | unforced => exact ⟨List.sublist_append_left _ _, .refl _⟩
  | forced =>
    obtain ⟨n, victim, here, dropped, left⟩ := @settle_forced _ queue s pkt draws valid
    simp only [dropped, left]
    refine ⟨List.eraseIdx_sublist _ _, List.perm_append_comm.trans ?_⟩
    obtain ⟨inside, rfl⟩ := List.getElem?_eq_some_iff.mp here
    exact List.getElem_cons_eraseIdx_perm inside

variable {queue maths}

theorem Conserved.arrive {h : History Q} (conserved : Conserved queue h) (pkt : Packet) (now : ℚ)
    {draws : Draws} (valid : draws.Valid) :
    Conserved queue (h.arrive queue maths pkt now draws) := by
  obtain ⟨droptype, taken, t, judgement, enque⟩ := enque_judged queue maths pkt now draws h.s
  have before := prepared_kept queue pkt now h.s
  have same : t.q = h.s.q := judgement.kept.2.trans before.2
  have kept : Kept h.s (h.s.enque queue maths pkt now draws).s :=
    enque_kept queue maths pkt now draws h.s
  obtain ⟨sublist, perm⟩ := settle_contents queue valid
    (if limit h.s ≤ qlen queue h.s then .forced else droptype) taken t
  have packet : (admission queue maths pkt now draws h.s).taken = taken := by
    simp only [admission, enque, settle]
    split <;> rfl
  rw [← enque] at sublist perm
  rw [same] at sublist perm
  constructor
  · intro a member
    simp only [History.arrive, List.mem_append, List.mem_singleton] at member
    have parameters : (h.arrive queue maths pkt now draws).s.edp = h.s.edp := kept.edp
    rw [parameters]
    rcases member with old | rfl
    · exact conserved.marked a old
    · obtain ⟨same, kept, capable⟩ := judgement.packet
      rw [before.1.edp] at capable
      rw [← packet] at same kept capable
      exact ⟨same, kept, capable⟩
  · simp only [History.arrive, List.map_append, List.map_cons, List.map_nil, packet]
    have longer := (List.Sublist.refl h.departed).append sublist
    rw [← List.append_assoc] at longer
    exact longer.trans (conserved.order.append (.refl _))
  · simp only [History.arrive, History.dropped, List.flatMap_append, List.flatMap_cons,
      List.flatMap_nil, List.append_nil, List.map_append, List.map_cons, List.map_nil, packet]
    refine List.perm_iff_count.mpr fun a => ?_
    have old := conserved.whole.count_eq a
    have new := perm.count_eq a
    simp only [History.dropped, List.count_append, admission] at old new ⊢
    omega

theorem Conserved.depart {h : History Q} (fifo : queue.Fifo) (conserved : Conserved queue h)
    (now : ℚ) : Conserved queue (h.depart queue now) := by
  have edp : (h.depart queue now).s.edp = h.s.edp := (deque_kept queue now h.s).edp
  have contents : (h.depart queue now).departed ++ queue.contents (h.depart queue now).s.q =
      h.departed ++ queue.contents h.s.q := by
    simp only [History.depart, deque]
    split
    next pkt q taken => simp [fifo.deque_some taken]
    next empty => simp
  constructor
  · intro a member
    rw [edp]
    exact conserved.marked a member
  · rw [contents]
    exact conserved.order
  · rw [contents]
    exact conserved.whole

/-- The queue below holds no more packets than a limit in packets allows, now and at arrivals. -/
def Limited (queue : PacketQueue Q) (h : History Q) : Prop :=
  h.s.qib = false → queue.length h.s.q ≤ max h.s.qlim 0 ∧
    ∀ a ∈ h.admissions, a.found ≤ max h.s.qlim 0

theorem Limited.arrive {h : History Q} (limited : Limited queue h) (pkt : Packet) (now : ℚ)
    {draws : Draws} (valid : draws.Valid) : Limited queue (h.arrive queue maths pkt now draws) := by
  obtain ⟨droptype, taken, t, judgement, enque⟩ := enque_judged queue maths pkt now draws h.s
  have kept : Kept h.s (h.s.enque queue maths pkt now draws).s :=
    enque_kept queue maths pkt now draws h.s
  have same : t.q = h.s.q := judgement.kept.2.trans (prepared_kept queue pkt now h.s).2
  intro packets
  have packets : h.s.qib = false := kept.qib.symm.trans packets
  obtain ⟨before, found⟩ := limited packets
  have qlim : (h.arrive queue maths pkt now draws).s.qlim = h.s.qlim := kept.qlim
  have length : qlen queue h.s = queue.length h.s.q := by simp [qlen, packets]
  have unit : limit h.s ≤ qlen queue h.s ↔ h.s.qlim ≤ queue.length h.s.q := by
    simp [limit, length, packets]
  rw [qlim]
  refine ⟨?_, fun a member => ?_⟩
  swap
  · simp only [History.arrive, List.mem_append, List.mem_singleton] at member
    rcases member with old | rfl
    · exact found a old
    · exact length.le.trans before
  change queue.length (h.s.enque queue maths pkt now draws).s.q ≤ _
  rw [enque]
  simp only [unit]
  split_ifs with full
  · -- one in, one out
    obtain ⟨n, victim, here, -, left⟩ := @settle_forced _ queue t taken draws valid
    obtain ⟨inside, -⟩ := List.getElem?_eq_some_iff.mp here
    have shorter := List.length_eraseIdx_add_one inside
    rw [same] at shorter left
    simp only [List.length_append, List.length_singleton] at shorter
    simp only [PacketQueue.length, left] at before ⊢
    omega
  · have room : queue.length t.q < h.s.qlim := by
      rw [same]
      exact not_le.mp full
    obtain ⟨sublist, -⟩ := settle_contents queue valid droptype taken t
    have longer := sublist.length_le
    simp only [List.length_append, List.length_singleton] at longer
    simp only [PacketQueue.length] at room ⊢
    omega

theorem Limited.depart {h : History Q} (fifo : queue.Fifo) (limited : Limited queue h) (now : ℚ) :
    Limited queue (h.depart queue now) := by
  intro packets
  have kept : Kept h.s (h.depart queue now).s := deque_kept queue now h.s
  obtain ⟨before, found⟩ := limited (kept.qib.symm.trans packets)
  rw [kept.qlim]
  refine ⟨le_trans ?_ before, found⟩
  simp only [History.depart, deque]
  split
  next pkt q taken => simp [PacketQueue.length, fifo.deque_some taken]
  next => exact le_refl _

theorem reset_conserved (fifo : queue.Fifo) (resetAt : ℚ) (s : REDQueue Q) (events : List Event)
    (drawn : ∀ event ∈ events, event.Drawn) :
    let h := historyOf queue maths events (reset queue maths resetAt s)
    Conserved queue h ∧ Limited queue h := by
  have empty : queue.contents (reset queue maths resetAt s).q = [] := fifo.reset s.q
  refine historyOf_invariant queue maths (I := fun h => Conserved queue h ∧ Limited queue h)
    ⟨⟨List.forall_mem_nil _, ?_, ?_⟩, ?_⟩ fun h _ before event member => ?_
  · simp [empty]
  · simp [empty, History.dropped]
  · exact fun _ => ⟨by simp [PacketQueue.length, empty], List.forall_mem_nil _⟩
  · have drawn := drawn event member
    cases event with
    | arrival pkt now draws => exact ⟨before.1.arrive pkt now drawn, before.2.arrive pkt now drawn⟩
    | departure now => exact ⟨before.1.depart fifo now, before.2.depart fifo now⟩

/-- Whatever the parameters, the traffic and the draws: the packets taken in are those that left at
the front, those still there and those dropped, the first two in the order in which they came; no
mark is taken away or put on a packet that is not ECN-capable; and a limit in packets is kept. -/
theorem packets_conserved (fifo : queue.Fifo) (resetAt : ℚ) (s : REDQueue Q) (events : List Event)
    (drawn : ∀ event ∈ events, event.Drawn) :
    let h := historyOf queue maths events (reset queue maths resetAt s)
    Conserved queue h ∧ (s.qib = false → queue.length h.s.q ≤ max s.qlim 0) := by
  obtain ⟨conserved, limited⟩ := @reset_conserved _ _ maths fifo resetAt s events drawn
  have kept := historyOf_kept queue maths events (reset queue maths resetAt s)
  refine ⟨conserved, fun packets => ?_⟩
  have bounded := (limited (kept.qib.trans packets)).1
  rw [kept.qlim] at bounded
  exact bounded

/-- An adaptive queue with room for four packets, before its first `reset()`. -/
def adaptiveQueue : REDQueue (List Packet) :=
  { shallow with
    edp := {
      qW := 1 / 2
      thMinPkts := 1
      thMaxPkts := 4
      maxPInv := 2
      gentle := true
      adaptive := 1
      interval := 1
      top := 4 / 5 }
    qlim := 4
    link := some ⟨8000000⟩ }

def arrives (ect : Bool) (now uniform : ℚ) : Event :=
  .arrival ⟨1000, ect, false⟩ now ⟨uniform, fun _ => 0⟩

/-- One early drop of a packet that is not ECN-capable, one mark, and one packet too many. -/
def mixedTraffic : List Event :=
  [arrives true 1 1, arrives true 1 1, arrives true 1 1, arrives true 1 1, .departure 1,
    arrives true 1 1, .departure 1, arrives false 1 (1 / 10), arrives true 2 1, .departure 2,
    arrives true 3 1, .departure 3, arrives true 4 (1 / 10), arrives true 4 1]

theorem listQueue_fifo : listQueue.Fifo where
  deque_some := by
    intro q pkt rest some
    cases q with
    | nil => cases some
    | cons head tail =>
      cases some
      rfl
  deque_none := by
    intro q none
    cases q with
    | nil => rfl
    | cons head tail => cases none
  reset := fun _ => rfl

theorem mixedTraffic_cases : ∀ event ∈ mixedTraffic, (∃ now, event = .departure now) ∨
    ∃ ect now uniform, event = arrives ect now uniform ∧ 0 < uniform ∧ uniform ≤ 1 := by
  have arrival : ∀ ect now uniform, 0 < uniform → uniform ≤ 1 →
      (∃ time, arrives ect now uniform = .departure time) ∨
        ∃ ect' time uniform', arrives ect now uniform = arrives ect' time uniform' ∧
          0 < uniform' ∧ uniform' ≤ 1 :=
    fun ect now uniform low high => .inr ⟨ect, now, uniform, rfl, low, high⟩
  intro event member
  simp only [mixedTraffic, List.mem_cons, List.not_mem_nil, or_false] at member
  obtain rfl | rfl | rfl | rfl | rfl | rfl | rfl | rfl | rfl | rfl | rfl | rfl | rfl | rfl := member
  all_goals first
    | exact .inl ⟨_, rfl⟩
    | exact arrival _ _ _ (by norm_num) (by norm_num)

theorem mixedTraffic_drawn : ∀ event ∈ mixedTraffic, event.Drawn := by
  intro event member
  obtain ⟨now, rfl⟩ | ⟨ect, now, uniform, rfl, low, high⟩ := mixedTraffic_cases event member
  · exact trivial
  · exact ⟨low.le, high, fun _ positive => positive⟩

/-- With an early drop, a mark and an overflow. -/
theorem packets_conserved_mixedTraffic :
    let h := historyOf listQueue trivialMaths mixedTraffic
      (reset listQueue trivialMaths 0 adaptiveQueue)
    (h.departed.length = 4 ∧ h.dropped.length = 2 ∧ (listQueue.contents h.s.q).length = 4) ∧
      Conserved listQueue h ∧
      (adaptiveQueue.qib = false → listQueue.length h.s.q ≤ max adaptiveQueue.qlim 0) :=
  ⟨by decide +kernel,
    packets_conserved listQueue_fifo 0 adaptiveQueue mixedTraffic mixedTraffic_drawn⟩

/-! ### Explicit congestion notification -/

/-- The weight that is configured automatically. -/
def initialQW (exp : ℚ → ℚ) (edp : Edp) : ℚ :=
  if edp.qW = 0 then 1 - exp (-1 / edp.ptc)
  else if edp.qW = -1 then
    let rtt := 3 * (edp.delay + 1 / edp.ptc)
    1 - exp (-1 / (10 * (if rtt < 1 / 10 then 1 / 10 else rtt) * edp.ptc))
  else if edp.qW = -2 then 1 - exp (-10 / edp.ptc)
  else edp.qW

def initialThMinPkts (edp : Edp) : ℚ :=
  if edp.thMinPkts = 0 then
    if 5 < edp.targetdelay * edp.ptc / 2 then edp.targetdelay * edp.ptc / 2 else 5
  else edp.thMinPkts

def initialThMaxPkts (edp : Edp) : ℚ :=
  if edp.thMaxPkts = 0 then 3 * initialThMinPkts edp else edp.thMaxPkts

def initialBottom (link : Link) (edp : Edp) : ℚ :=
  if edp.bottom = 0 then
    if 80000 / link.bandwidth < 1 / 100 then 80000 / link.bandwidth else 1 / 100
  else edp.bottom

/-- Each parameter is configured on its own. -/
theorem initializeParams_fields (exp : ℚ → ℚ) (link : Link) (edp : Edp) :
    initializeParams exp link edp =
      { edp with
        qW := initialQW exp edp
        thMinPkts := initialThMinPkts edp
        thMaxPkts := initialThMaxPkts edp
        bottom := initialBottom link edp } := by
  have weight : (if edp.qW = 0 then { edp with qW := 1 - exp (-1 / edp.ptc) }
      else if edp.qW = -1 then
        { edp with qW := 1 - exp (-1 / (10 * (if 3 * (edp.delay + 1 / edp.ptc) < 1 / 10 then 1 / 10
          else 3 * (edp.delay + 1 / edp.ptc)) * edp.ptc)) }
      else if edp.qW = -2 then { edp with qW := 1 - exp (-10 / edp.ptc) }
      else edp) = { edp with qW := initialQW exp edp } := by
    simp only [initialQW]
    split_ifs <;> rfl
  have low : (if edp.thMinPkts = 0 then
      { edp with
        qW := initialQW exp edp
        thMinPkts :=
          if 5 < edp.targetdelay * edp.ptc / 2 then edp.targetdelay * edp.ptc / 2 else 5 }
      else { edp with qW := initialQW exp edp }) =
      { edp with qW := initialQW exp edp, thMinPkts := initialThMinPkts edp } := by
    simp only [initialThMinPkts]
    split_ifs <;> rfl
  have high : (if edp.thMaxPkts = 0 then
      { edp with
        qW := initialQW exp edp
        thMinPkts := initialThMinPkts edp
        thMaxPkts := 3 * initialThMinPkts edp }
      else { edp with qW := initialQW exp edp, thMinPkts := initialThMinPkts edp }) =
      { edp with
        qW := initialQW exp edp
        thMinPkts := initialThMinPkts edp
        thMaxPkts := initialThMaxPkts edp } := by
    simp only [initialThMaxPkts]
    split_ifs <;> rfl
  simp only [initializeParams, weight, low, high, initialBottom]
  split_ifs <;> rfl

/-- What `reset()` may change of the parameters. -/
theorem resetEdp_changes (exp : ℚ → ℚ) (link : Option Link) (qib : Bool) (edp : Edp) :
    ∃ ptc qW thMinPkts thMaxPkts bottom thMin thMax, resetEdp exp link qib edp =
      { edp with ptc, qW, thMinPkts, thMaxPkts, bottom, thMin, thMax } := by
  cases link with
  | none =>
    simp only [resetEdp]
    split_ifs <;> exact ⟨_, _, _, _, _, _, _, rfl⟩
  | some link =>
    simp only [resetEdp, initializeParams_fields]
    split_ifs <;> exact ⟨_, _, _, _, _, _, _, rfl⟩

theorem calculatePNew_le_one (vAve thMax : ℚ) (gentle : Bool) (vA vB vC vD maxP : ℚ) :
    calculatePNew vAve thMax gentle vA vB vC vD maxP ≤ 1 := by
  simp only [calculatePNew]
  split_ifs <;> linarith

/-- Packets are marked instead of dropped, at whatever probability. -/
structure MarksAll (edp : Edp) : Prop where
  setbit : edp.setbit = true
  useMarkP : edp.useMarkP = true
  markP : 1 ≤ edp.markP

theorem MarksAll.reset {edp : Edp} (marks : MarksAll edp) (exp : ℚ → ℚ) (link : Option Link)
    (qib : Bool) : MarksAll (resetEdp exp link qib edp) := by
  obtain ⟨_, _, _, _, _, _, _, eq⟩ := resetEdp_changes exp link qib edp
  rw [eq]
  exact ⟨marks.setbit, marks.useMarkP, marks.markP⟩

end REDQueue

end Saps.Queue
