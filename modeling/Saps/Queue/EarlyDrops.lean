import Saps.Queue.RedRanges

/-!
# The distance of early drops

RED counts the packets since its last early drop or mark, so how far apart these
come does not depend on the draws alone.
-/
namespace Saps.Queue

/-- The packet was marked, or dropped although there was room. -/
def Admission.Struck (a : Admission) : Prop :=
  a.taken.ce ≠ a.offered.ce ∨ a.full = false ∧ a.dropped ≠ []

/-- The packet was marked, or some packet was dropped. -/
def Admission.Hit (a : Admission) : Prop := a.taken.ce ≠ a.offered.ce ∨ a.dropped ≠ []

instance (a : Admission) : Decidable a.Struck := inferInstanceAs (Decidable (_ ∨ _ ∧ _))

instance (a : Admission) : Decidable a.Hit := inferInstanceAs (Decidable (_ ∨ _))

/-- `Random::uniform()` draws from the open interval. -/
def Event.Uniform : Event → Prop
  | .arrival _ _ draws => 0 < draws.uniform
  | .departure _ => True

namespace REDQueue

variable {Q : Type} {queue : PacketQueue Q} {maths : Maths} {s : REDQueue Q} {resetAt : ℚ}

/-- Packets are counted, not bytes, and an early drop waits for the count. -/
structure Waits (edp : Edp) : Prop where
  bytes : edp.bytes = false
  wait : edp.wait = true
  useMarkP : edp.useMarkP = true
  cautious : edp.cautious ≠ 1 ∧ edp.cautious ≠ 2

theorem Waits.reset {edp : Edp} (waits : Waits edp) (exp : ℚ → ℚ) (link : Option Link)
    (qib : Bool) : Waits (resetEdp exp link qib edp) := by
  obtain ⟨_, _, _, _, _, _, _, eq⟩ := resetEdp_changes exp link qib edp
  rw [eq]
  exact ⟨waits.bytes, waits.wait, waits.useMarkP, waits.cautious⟩

/-! ### The count and the probability -/

theorem modifyP_eq_zero {p : ℚ} {count : Int} (countBytes meanPktsize size : Int)
    (early : count * p < 1) : modifyP p count countBytes false meanPktsize true size = 0 := by
  simp [modifyP, early]

theorem modifyP_eq_one_of_late {p : ℚ} {count : Int} (countBytes meanPktsize size : Int)
    (late : 2 ≤ count * p) : modifyP p count countBytes false meanPktsize true size = 1 := by
  have first : ¬ (count * p < 1) := by linarith
  simp [modifyP, first, late.not_gt]

/-- No packet is struck before the count is up. -/
theorem count_of_hit (waits : Waits s.edp) {pkt : Packet} {u : ℚ} (positive : 0 < u)
    (hit : u ≤ modifiedP pkt s) : 1 ≤ s.edv.count * earlyP s := by
  by_contra early
  rw [modifiedP, waits.bytes, waits.wait, modifyP_eq_zero _ _ _ (not_le.mp early)] at hit
  linarith

/-- And none is spared when it is up twice. -/
theorem count_of_missed (waits : Waits s.edp) {pkt : Packet} {u : ℚ} (le_one : u ≤ 1)
    (missed : modifiedP pkt s < u) : s.edv.count * earlyP s < 2 := by
  by_contra late
  rw [modifiedP, waits.bytes, waits.wait, modifyP_eq_one_of_late _ _ _ (not_lt.mp late)] at missed
  linarith

theorem earlyP_le_curMaxP (ready : Ready s) (positive : 0 < s.edv.curMaxP)
    (above : s.edv.vAve ≥ s.edp.thMin) (below : s.edv.vAve < s.edp.thMax) :
    earlyP s ≤ s.edv.curMaxP := by
  have ordered : s.edp.thMin < s.edp.thMax := above.trans_lt below
  have width : 0 < s.edp.thMax - s.edp.thMin := sub_pos.mpr ordered
  have short : (s.edv.vAve - s.edp.thMin) / (s.edp.thMax - s.edp.thMin) ≤ 1 :=
    (div_le_one width).mpr (by linarith)
  have scaled := mul_le_mul_of_nonneg_right short positive.le
  rw [one_mul, ← ready.line_eq ordered] at scaled
  simp only [earlyP, calculatePNew, not_le.mpr below, and_false, if_false]
  split_ifs with large
  · exact large.le.trans scaled
  · exact scaled

/-- Between an average of `level` and a `max_p` of `P`, the probability is at least this. -/
def leastP (edp : Edp) (level P : ℚ) : ℚ := (level - edp.thMin) / (edp.thMax - edp.thMin) * P

theorem leastP_le_earlyP (ready : Ready s) {level P : ℚ} (ordered : s.edp.thMin < s.edp.thMax)
    (low : s.edp.thMin ≤ level) (high : level ≤ s.edp.thMax) (nonneg : 0 ≤ P)
    (start : P ≤ 1 / s.edp.maxPInv) (reached : level ≤ s.edv.vAve) (maxP : P ≤ s.edv.curMaxP) :
    leastP s.edp level P ≤ earlyP s := by
  have width : 0 < s.edp.thMax - s.edp.thMin := sub_pos.mpr ordered
  have small : leastP s.edp level P ≤ P := by
    have short : (level - s.edp.thMin) / (s.edp.thMax - s.edp.thMin) ≤ 1 :=
      (div_le_one width).mpr (by linarith)
    have scaled := mul_le_mul_of_nonneg_right short nonneg
    rwa [one_mul] at scaled
  have le_one : leastP s.edp level P ≤ 1 := (small.trans start).trans ready.maxP_range.2
  refine le_earlyP le_one (fun gentle high => ?_) fun _ => ?_
  · exact (small.trans start).trans (ready.gentle_line gentle high)
  · rw [ready.line_eq ordered, leastP]
    have further : level - s.edp.thMin ≤ s.edv.vAve - s.edp.thMin := by linarith
    have steeper := div_le_div_of_nonneg_right further width.le
    exact mul_le_mul steeper maxP nonneg (div_nonneg (by linarith) width.le)

/-! ### One arrival -/

theorem settle_count (droptype : Droptype) (integer : Nat → Nat) (pkt : Packet) (s : REDQueue Q) :
    (settle queue droptype integer pkt s).s.edv.count = s.edv.count ∨
      (settle queue droptype integer pkt s).s.edv.count = 0 := by
  cases droptype with
  | none => exact .inl rfl
  | unforced => exact .inl rfl
  | forced =>
    simp only [settle]
    split_ifs
    · exact .inl rfl
    · exact .inr rfl

/-- A packet that is taken in as it came, with no early drop, is not struck. -/
theorem not_struck {pkt : Packet} {now : ℚ} {draws : Draws} {t : REDQueue Q}
    (enque : s.enque queue maths pkt now draws =
      settle queue (if limit s ≤ qlen queue s then .forced else .none) draws.integer pkt t) :
    ¬ (admission queue maths pkt now draws s).Struck := by
  have same : (settle queue (if limit s ≤ qlen queue s then .forced else .none) draws.integer pkt
      t).pkt = pkt := by
    simp only [settle]
    split <;> rfl
  rintro (marked | ⟨room, dropped⟩)
  · simp only [admission, enque, same] at marked
    exact marked rfl
  · have room : ¬ limit s ≤ qlen queue s := of_decide_eq_false room
    simp only [admission, enque, if_neg room] at dropped
    exact dropped rfl

/-- What an arrival makes of the count. -/
theorem enque_count (waits : Waits s.edp) (ready : Ready s) (positive : 0 < s.edv.curMaxP)
    (nonneg : 0 ≤ s.edv.count) (pkt : Packet) (now : ℚ) {draws : Draws}
    (uniform : 0 < draws.uniform) :
    let after := (s.enque queue maths pkt now draws).s
    0 ≤ after.edv.count ∧ after.edv.count ≤ s.edv.count + 1 ∧
      ((admission queue maths pkt now draws s).Struck → after.edv.count = 0 ∧
        (after.edv.vAve < s.edp.thMax →
          1 ≤ ((s.edv.count + 1 : Int) : ℚ) * after.edv.curMaxP)) := by
  intro after
  obtain ⟨droptype, taken, t, judgement, enque⟩ := enque_judged queue maths pkt now draws s
  obtain ⟨vAve, curMaxP, -⟩ := judgement.estimates
  obtain ⟨vAve', curMaxP', -, -, -⟩ := @settle_estimates _ queue
    (if limit s ≤ qlen queue s then .forced else droptype) draws.integer taken t
  have settled := @settle_count _ queue (if limit s ≤ qlen queue s then .forced else droptype)
    draws.integer taken t
  rw [← enque] at vAve' curMaxP' settled
  have kept := (prepared_kept queue pkt now s).1
  have waits : Waits (prepared queue pkt now s).edp := kept.edp ▸ waits
  have ready' := ready.keep kept
  have counted : (prepared queue pkt now s).edv.count = s.edv.count + 1 := by
    rw [prepared_eq]
  have adapts : 0 < (prepared queue pkt now s).edv.curMaxP := by
    rw [prepared_eq]
    exact adapted_pos ready.alpha ready.beta _ _ positive
  -- an early action starts the count again
  have hit (above : (prepared queue pkt now s).edv.vAve ≥ (prepared queue pkt now s).edp.thMin)
      (due : draws.uniform ≤ modifiedP pkt (prepared queue pkt now s)) :
      after.edv.vAve < s.edp.thMax → 1 ≤ ((s.edv.count + 1 : Int) : ℚ) * after.edv.curMaxP := by
    intro below
    have due := count_of_hit waits uniform due
    rw [vAve'.trans vAve, ← kept.edp] at below
    have small := earlyP_le_curMaxP ready' adapts above below
    rw [counted] at due
    rw [curMaxP'.trans curMaxP]
    have some : (0 : ℚ) ≤ ((s.edv.count + 1 : Int) : ℚ) := by exact_mod_cast (by omega)
    exact due.trans (mul_le_mul_of_nonneg_left small some)
  cases judgement with
  | forced useMarkP =>
    exact absurd (useMarkP.symm.trans waits.useMarkP) Bool.false_ne_true
  | crossed =>
    have start : after.edv.count = 1 ∨ after.edv.count = 0 := settled
    exact ⟨by omega, by omega, fun struck => absurd struck (not_struck enque)⟩
  | spared =>
    have start : after.edv.count = s.edv.count + 1 ∨ after.edv.count = 0 := counted ▸ settled
    exact ⟨by omega, by omega, fun struck => absurd struck (not_struck enque)⟩
  | below =>
    have start : after.edv.count = s.edv.count + 1 ∨ after.edv.count = 0 := counted ▸ settled
    exact ⟨by omega, by omega, fun struck => absurd struck (not_struck enque)⟩
  | marked above due =>
    have start : after.edv.count = 0 := settled.elim id id
    exact ⟨start.ge, by omega, fun _ => ⟨start, hit above (due waits.cautious.2)⟩⟩
  | dropped above due =>
    have start : after.edv.count = 0 := settled.elim id id
    exact ⟨start.ge, by omega, fun _ => ⟨start, hit above (due waits.cautious.2)⟩⟩

/-! ### Not too close -/

/-- The count never exceeds the distance of the last packet that was struck. -/
structure Counted (h : History Q) : Prop where
  positive : 0 < h.s.edv.curMaxP
  nonneg : 0 ≤ h.s.edv.count
  total : h.s.edv.count ≤ h.admissions.length
  since : ∀ (i : Nat) a, h.admissions[i]? = some a → a.Struck →
    h.s.edv.count + i < h.admissions.length
  first : ∀ (j : Nat) b, h.admissions[j]? = some b → b.Struck → b.vAve < h.s.edp.thMax →
    1 ≤ ((j : ℚ) + 1) * b.curMaxP
  apart : ∀ (i j : Nat) a b, i < j → h.admissions[i]? = some a → h.admissions[j]? = some b →
    a.Struck → b.Struck → b.vAve < h.s.edp.thMax → 1 ≤ ((j : ℚ) - i) * b.curMaxP

/-- The new arrival stands behind all others. -/
theorem arrive_place {h : History Q} {pkt : Packet} {now : ℚ} {draws : Draws} {i : Nat}
    {a : Admission} (here : (h.arrive queue maths pkt now draws).admissions[i]? = some a) :
    h.admissions[i]? = some a ∧ i < h.admissions.length ∨
      i = h.admissions.length ∧ a = admission queue maths pkt now draws h.s := by
  simp only [History.arrive] at here
  rcases Nat.lt_trichotomy i h.admissions.length with before | rfl | beyond
  · rw [List.getElem?_append_left before] at here
    exact .inl ⟨here, before⟩
  · rw [List.getElem?_concat_length] at here
    exact .inr ⟨rfl, (Option.some.inj here).symm⟩
  · rw [List.getElem?_eq_none (by simp; omega)] at here
    cases here

theorem Counted.arrive {h : History Q} (counted : Counted h) (waits : Waits h.s.edp)
    (ready : Ready h.s) (pkt : Packet) (now : ℚ) {draws : Draws} (uniform : 0 < draws.uniform) :
    Counted (h.arrive queue maths pkt now draws) := by
  obtain ⟨nonneg, next, struck⟩ := @enque_count _ queue maths _ waits ready counted.positive
    counted.nonneg pkt now draws uniform
  have edp : (h.arrive queue maths pkt now draws).s.edp = h.s.edp :=
    (enque_kept queue maths pkt now draws h.s).edp
  have adapts : 0 < (h.s.enque queue maths pkt now draws).s.edv.curMaxP := by
    rw [(enque_estimates pkt now draws h.s).2.1]
    exact adapted_pos ready.alpha ready.beta _ _ counted.positive
  have place := fun (i : Nat) a => @arrive_place _ queue maths h pkt now draws i a
  have length : (h.arrive queue maths pkt now draws).admissions.length =
      h.admissions.length + 1 := by simp [History.arrive]
  refine ⟨adapts, nonneg, ?_, ?_, ?_, ?_⟩
  · rw [length]
    have total := counted.total
    have next : (h.arrive queue maths pkt now draws).s.edv.count ≤ h.s.edv.count + 1 := next
    omega
  · intro i a here isStruck
    rw [length]
    have next : (h.arrive queue maths pkt now draws).s.edv.count ≤ h.s.edv.count + 1 := next
    rcases place i a here with ⟨old, before⟩ | ⟨rfl, rfl⟩
    · have since := counted.since i a old isStruck
      omega
    · have start : (h.arrive queue maths pkt now draws).s.edv.count = 0 := (struck isStruck).1
      omega
  · intro j b here isStruck below
    rw [edp] at below
    rcases place j b here with ⟨old, -⟩ | ⟨rfl, rfl⟩
    · exact counted.first j b old isStruck below
    · refine ((struck isStruck).2 below).trans (mul_le_mul_of_nonneg_right ?_ adapts.le)
      have total := counted.total
      exact_mod_cast (by omega : h.s.edv.count + 1 ≤ (h.admissions.length : Int) + 1)
  · intro i j a b behind hereA hereB struckA struckB below
    rw [edp] at below
    rcases place j b hereB with ⟨old, inside⟩ | ⟨rfl, rfl⟩
    · rcases place i a hereA with ⟨oldA, -⟩ | ⟨rfl, -⟩
      · exact counted.apart i j a b behind oldA old struckA struckB below
      · exact absurd behind (by omega)
    · rcases place i a hereA with ⟨oldA, -⟩ | ⟨rfl, -⟩
      · refine ((struck struckB).2 below).trans (mul_le_mul_of_nonneg_right ?_ adapts.le)
        have since := counted.since i a oldA struckA
        have distance : h.s.edv.count + 1 ≤ (h.admissions.length : Int) - i := by omega
        exact_mod_cast distance
      · exact absurd behind (Nat.lt_irrefl _)

theorem Counted.depart {h : History Q} (counted : Counted h) (now : ℚ) :
    Counted (h.depart queue now) := by
  have edv := depart_edv queue now h
  have edp : (h.depart queue now).s.edp = h.s.edp := (deque_kept queue now h.s).edp
  refine ⟨?_, ?_, ?_, ?_, ?_, ?_⟩
  · rw [edv]
    exact counted.positive
  · rw [edv]
    exact counted.nonneg
  · rw [edv]
    exact counted.total
  · rw [edv]
    exact counted.since
  · rw [edp]
    exact counted.first
  · rw [edp]
    exact counted.apart

theorem reset_counted (ready : Ready (reset queue maths resetAt s)) :
    Counted ⟨reset queue maths resetAt s, [], []⟩ := by
  obtain ⟨-, -, curMaxP, -⟩ := resetEdv_start (reset queue maths resetAt s).edp s.edv
  have count : (reset queue maths resetAt s).edv.count = 0 :=
    (resetEdv_flags (reset queue maths resetAt s).edp s.edv).1
  have positive : 0 < (reset queue maths resetAt s).edv.curMaxP :=
    ready.maxP_range.1.trans_eq curMaxP.symm
  refine ⟨positive, count.ge, count.le, ?_, ?_, ?_⟩
  · intro i a here
    cases here
  · intro j b here
    cases here
  · intro i j a b _ here
    cases here

/-- With a drop or mark the next is at least `1 / max_p` packets away, as long as the average stays
below the upper threshold: RED never strikes two packets in a burst, whatever it draws. -/
theorem earlyDrops_apart (decays : maths.Decays) (configured : Configured s)
    (waits : Waits s.edp) (events : List Event)
    (uniform : ∀ event ∈ events, event.Uniform) :
    let h := historyOf queue maths events (reset queue maths resetAt s)
    ∀ (i j : Nat) a b, i < j → h.admissions[i]? = some a → h.admissions[j]? = some b →
      a.Struck → b.Struck → b.vAve < h.s.edp.thMax → 1 ≤ ((j : ℚ) - i) * b.curMaxP := by
  have ready : Ready (reset queue maths resetAt s) := reset_ready decays configured resetAt
  have waits : Waits (reset queue maths resetAt s).edp := waits.reset maths.exp s.link s.qib
  refine (historyOf_invariant queue maths (I := Counted) (reset_counted ready) ?_).apart
  intro h kept before event member
  have uniform := uniform event member
  cases event with
  | arrival pkt now draws =>
    exact before.arrive (kept.edp ▸ waits) (ready.keep kept) pkt now uniform
  | departure now => exact before.depart now

theorem mixedTraffic_uniform : ∀ event ∈ mixedTraffic, event.Uniform := by
  intro event member
  obtain ⟨now, rfl⟩ | ⟨ect, now, uniform, rfl, low, -⟩ := mixedTraffic_cases event member
  · exact trivial
  · exact low

theorem adaptiveQueue_waits : Waits adaptiveQueue.edp := ⟨rfl, rfl, rfl, by decide, by decide⟩

def earlyDrop : Admission where
  now := 1
  offered := ⟨1000, false, false⟩
  taken := ⟨1000, false, false⟩
  dropped := [⟨1000, false, false⟩]
  found := 3
  full := false
  vAve := 89 / 32
  curMaxP := 1 / 2

def laterMark : Admission where
  now := 4
  offered := ⟨1000, true, false⟩
  taken := ⟨1000, true, true⟩
  dropped := []
  found := 3
  full := false
  vAve := 761 / 256
  curMaxP := 13 / 25

/-- The mark comes three packets after the early drop, and two would have done. -/
theorem earlyDrops_apart_mixedTraffic :
    (earlyDrop.Struck ∧ laterMark.Struck) ∧
      1 ≤ (((8 : Nat) : ℚ) - (5 : Nat)) * laterMark.curMaxP := by
  have struck : earlyDrop.Struck ∧ laterMark.Struck := by decide
  refine ⟨struck, ?_⟩
  exact @earlyDrops_apart _ listQueue trivialMaths adaptiveQueue 0 trivialMaths_decays
    adaptiveQueue_configured adaptiveQueue_waits mixedTraffic mixedTraffic_uniform 5 8 earlyDrop
    laterMark (by decide) (by decide +kernel) (by decide +kernel) struck.1 struck.2
    (by decide +kernel)

/-! ### Not too far -/

/-- An arrival that finds a standing queue, an average of `level` or more and `max_p` at `P` or
more. -/
structure Loaded (level P : ℚ) (a : Admission) : Prop where
  vAve : level ≤ a.vAve
  found : 1 < a.found
  curMaxP : P ≤ a.curMaxP
  unmarked : a.offered.ce = false

/-- A range of parameters within which the probability is `leastP` or more. -/
structure Steep (edp : Edp) (level P : ℚ) : Prop where
  ordered : edp.thMin < edp.thMax
  low : edp.thMin ≤ level
  high : level ≤ edp.thMax
  nonneg : 0 ≤ P
  start : P ≤ 1 / edp.maxPInv

/-- While loaded arrivals pass unharmed the count goes up. -/
structure Due (level P : ℚ) (h : History Q) : Prop where
  nonneg : 0 ≤ h.s.edv.count
  stretch : ∀ stretch, stretch <:+ h.admissions → (∀ a ∈ stretch, Loaded level P a ∧ ¬ a.Hit) →
    stretch = [] ∨ h.s.edv.old ≠ 0 ∧ stretch.length ≤ h.s.edv.count ∧
      stretch.length * leastP h.s.edp level P < 2

theorem leastP_nonneg {edp : Edp} {level P : ℚ} (steep : Steep edp level P) :
    0 ≤ leastP edp level P :=
  mul_nonneg (div_nonneg (sub_nonneg.mpr steep.low) (sub_pos.mpr steep.ordered).le) steep.nonneg

/-- A loaded arrival that passes unharmed arms the early drop, or is counted. -/
theorem enque_unharmed (waits : Waits s.edp) (ready : Ready s) {level P : ℚ}
    (steep : Steep s.edp level P) (nonneg : 0 ≤ s.edv.count) {pkt : Packet} {now : ℚ}
    {draws : Draws} (drawn : draws.Valid)
    (loaded : Loaded level P (admission queue maths pkt now draws s))
    (unharmed : ¬ (admission queue maths pkt now draws s).Hit) :
    let edv := (s.enque queue maths pkt now draws).s.edv
    s.edv.old = 0 ∧ edv.old ≠ 0 ∧ edv.count = 1 ∧ leastP s.edp level P ≤ 1 ∨
      s.edv.old ≠ 0 ∧ edv.old ≠ 0 ∧ edv.count = s.edv.count + 1 ∧
        edv.count * leastP s.edp level P < 2 := by
  obtain ⟨droptype, taken, t, judgement, enque⟩ := enque_judged queue maths pkt now draws s
  have kept := (prepared_kept queue pkt now s).1
  have waits : Waits (prepared queue pkt now s).edp := kept.edp ▸ waits
  have steep' : Steep (prepared queue pkt now s).edp level P := kept.edp ▸ steep
  obtain ⟨vAve, curMaxP, -⟩ := @enque_estimates _ queue maths pkt now draws s
  have counted : (prepared queue pkt now s).edv.count = s.edv.count + 1 ∧
      (prepared queue pkt now s).edv.old = s.edv.old ∧
      (prepared queue pkt now s).edv.vAve = newAve queue now s ∧
      (prepared queue pkt now s).edv.curMaxP =
        (adapted s.edp (newAve queue now s) now s.edv).curMaxP ∧
      qlen queue (prepared queue pkt now s) = qlen queue s := by
    obtain ⟨_, _, _, eq⟩ := adapted_eq s.edp (newAve queue now s) now s.edv
    rw [prepared_eq, eq]
    exact ⟨rfl, rfl, rfl, rfl, rfl⟩
  obtain ⟨count, old, newAve, maxP, length⟩ := counted
  have reached : level ≤ (prepared queue pkt now s).edv.vAve := by
    rw [newAve, ← vAve]
    exact loaded.vAve
  have early : leastP s.edp level P ≤ earlyP (prepared queue pkt now s) := by
    rw [← kept.edp]
    refine leastP_le_earlyP (ready.keep kept) steep'.ordered steep'.low steep'.high steep'.nonneg
      steep'.start reached ?_
    rw [maxP, ← curMaxP]
    exact loaded.curMaxP
  -- a full queue drops a packet
  have room : ¬ limit s ≤ qlen queue s := by
    intro full
    obtain ⟨n, victim, -, dropped, -⟩ := @settle_forced _ queue t taken draws drawn
    refine unharmed (.inr ?_)
    simp only [admission, enque, if_pos full, dropped]
    exact List.cons_ne_nil _ _
  rw [if_neg room] at enque
  have unmarked : pkt.ce = false := loaded.unmarked
  cases judgement with
  | forced useMarkP => exact absurd (useMarkP.symm.trans waits.useMarkP) Bool.false_ne_true
  | crossed above long start =>
    simp only [enque]
    have le_one := early.trans (calculatePNew_le_one _ _ _ _ _ _ _ _)
    exact .inl ⟨old.symm.trans start, one_ne_zero, rfl, le_one⟩
  | spared above armed missed =>
    have late := count_of_missed waits drawn.le_one (missed waits.cautious.1 waits.cautious.2)
    rw [count] at late
    simp only [enque]
    refine .inr ⟨fun start => armed (old.trans start), armed, count, ?_⟩
    change ((prepared queue pkt now s).edv.count : ℚ) * _ < 2
    rw [count]
    have some : (0 : ℚ) ≤ ((s.edv.count + 1 : Int) : ℚ) := by exact_mod_cast (by omega)
    exact (mul_le_mul_of_nonneg_left early some).trans_lt late
  | marked above hit setbit ect =>
    refine absurd (.inl ?_) unharmed
    simp only [admission, enque, settle, unmarked]
    exact Bool.false_ne_true.symm
  | dropped above hit refused =>
    refine absurd (.inr ?_) unharmed
    simp only [admission, enque, settle]
    exact List.cons_ne_nil _ _
  | below low =>
    rcases low with low | short
    · exact absurd (steep'.low.trans reached) low.not_ge
    · rw [length] at short
      exact absurd loaded.found short.not_gt

theorem Due.arrive {level P : ℚ} {h : History Q} (due : Due level P h) (waits : Waits h.s.edp)
    (ready : Ready h.s) (steep : Steep h.s.edp level P) (pkt : Packet) (now : ℚ) {draws : Draws}
    (drawn : draws.Valid) (nonneg : 0 ≤ (h.s.enque queue maths pkt now draws).s.edv.count) :
    Due level P (h.arrive queue maths pkt now draws) := by
  have edp : (h.arrive queue maths pkt now draws).s.edp = h.s.edp :=
    (enque_kept queue maths pkt now draws h.s).edp
  refine ⟨nonneg, fun stretch ending unharmed => ?_⟩
  rw [edp]
  rcases List.suffix_concat_iff.mp ending with rfl | ⟨earlier, rfl, suffix⟩
  · exact .inl rfl
  right
  have before := due.stretch earlier suffix fun a member =>
    unharmed a (List.mem_append_left _ member)
  obtain ⟨loaded, passed⟩ := unharmed _ (List.mem_append_right _ (List.mem_singleton_self _))
  have p := leastP_nonneg steep
  rw [List.length_append, List.length_singleton]
  rcases @enque_unharmed _ queue maths _ waits ready _ _ steep due.nonneg _ _ _ drawn loaded passed
    with ⟨start, armed, count, le_one⟩ | ⟨-, armed, count, late⟩
  · -- the early drop was not armed, so the stretch begins here
    have first : earlier = [] := before.resolve_right fun later => later.1 start
    subst first
    refine ⟨armed, count.ge, ?_⟩
    simp only [List.length_nil, zero_add, Nat.cast_one, one_mul]
    linarith
  · have enough : ((earlier.length + 1 : Nat) : Int) ≤
        (h.s.enque queue maths pkt now draws).s.edv.count := by
      rw [count]
      have nonneg := due.nonneg
      rcases before with rfl | ⟨-, counted, -⟩
      · simp only [List.length_nil]
        omega
      · omega
    refine ⟨armed, enough, lt_of_le_of_lt (mul_le_mul_of_nonneg_right ?_ p) late⟩
    exact_mod_cast enough

theorem Due.depart {level P : ℚ} {h : History Q} (due : Due level P h) (now : ℚ) :
    Due level P (h.depart queue now) := by
  have edv := depart_edv queue now h
  have edp : (h.depart queue now).s.edp = h.s.edp := (deque_kept queue now h.s).edp
  constructor
  · rw [edv]
    exact due.nonneg
  · rw [edv, edp]
    exact due.stretch

/-- Under load RED acts: of any `2 / p` consecutive arrivals, one is marked or a packet is dropped,
where `p` is the least probability at this load. -/
theorem earlyDrops_due (decays : maths.Decays) (configured : Configured s) (waits : Waits s.edp)
    (events : List Event) (drawn : ∀ event ∈ events, event.Drawn)
    (uniform : ∀ event ∈ events, event.Uniform) (level P : ℚ) :
    let h := historyOf queue maths events (reset queue maths resetAt s)
    Steep h.s.edp level P → ∀ stretch, stretch <:+ h.admissions →
      (∀ a ∈ stretch, Loaded level P a) → 2 ≤ stretch.length * leastP h.s.edp level P →
      ∃ a ∈ stretch, a.Hit := by
  intro h steep stretch ending loaded long
  have ready : Ready (reset queue maths resetAt s) := reset_ready decays configured resetAt
  have waits : Waits (reset queue maths resetAt s).edp := waits.reset maths.exp s.link s.qib
  have same : h.s.edp = (reset queue maths resetAt s).edp :=
    (historyOf_kept queue maths events _).edp
  have both : Counted h ∧ Due level P h := by
    refine historyOf_invariant queue maths (I := fun h => Counted h ∧ Due level P h)
      ⟨reset_counted ready, ?_, ?_⟩ ?_
    · exact (reset_counted ready).nonneg
    · exact fun stretch ending _ => .inl (List.suffix_nil.mp ending)
    · intro h kept before event member
      have drawn := drawn event member
      have uniform := uniform event member
      cases event with
      | arrival pkt now draws =>
        have counted : Counted (h.arrive queue maths pkt now draws) :=
          before.1.arrive (kept.edp ▸ waits) (ready.keep kept) pkt now uniform
        refine ⟨counted, before.2.arrive (kept.edp ▸ waits) (ready.keep kept) ?_ pkt now drawn
          counted.nonneg⟩
        rw [kept.edp, ← same]
        exact steep
      | departure now => exact ⟨before.1.depart now, before.2.depart now⟩
  by_contra none
  have passed : ∀ a ∈ stretch, Loaded level P a ∧ ¬ a.Hit := fun a member =>
    ⟨loaded a member, fun hit => none ⟨a, member, hit⟩⟩
  rcases both.2.stretch stretch ending passed with rfl | ⟨-, -, short⟩
  · simp at long
    linarith
  · exact absurd long short.not_ge

def steepQueue : REDQueue (List Packet) :=
  { adaptiveQueue with edp := { adaptiveQueue.edp with thMaxPkts := 2 } }

/-- With the average above the upper threshold during the last seven arrivals. -/
theorem earlyDrops_due_mixedTraffic :
    let h := historyOf listQueue trivialMaths mixedTraffic
      (reset listQueue trivialMaths 0 steepQueue)
    (h.admissions.drop 3).length = 7 ∧ ∃ a ∈ h.admissions.drop 3, a.Hit := by
  intro h
  have configured : Configured steepQueue := { adaptiveQueue_configured with
    thMaxPkts := by decide +kernel }
  have steep : Steep h.s.edp 2 (1 / 2) := ⟨by decide +kernel, by decide +kernel, by decide +kernel,
    by norm_num, by decide +kernel⟩
  have loaded : ∀ a ∈ h.admissions.drop 3, 2 ≤ a.vAve ∧ 1 < a.found ∧ 1 / 2 ≤ a.curMaxP ∧
      a.offered.ce = false := by decide +kernel
  refine ⟨by decide +kernel, ?_⟩
  have waits : Waits steepQueue.edp := ⟨rfl, rfl, rfl, by decide, by decide⟩
  exact earlyDrops_due trivialMaths_decays configured waits mixedTraffic
    mixedTraffic_drawn mixedTraffic_uniform 2 (1 / 2) steep (h.admissions.drop 3)
    (List.drop_suffix 3 _) (fun a member => ⟨(loaded a member).1, (loaded a member).2.1,
      (loaded a member).2.2.1, (loaded a member).2.2.2⟩) (by decide +kernel)

end REDQueue

end Saps.Queue
