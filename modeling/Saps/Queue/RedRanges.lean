import Mathlib.Algebra.Order.BigOperators.Group.List
import Saps.Queue.RedHistory

/-!
# The ranges of the average, the probabilities and `max_p`

A RED queue that is configured by hand or automatically, adaptive or not.
-/
namespace Saps.Queue

/-- What the code relies on of `exp()` where it configures the weight. -/
def Maths.Decays (maths : Maths) : Prop := ∀ x ≤ 0, 0 < maths.exp x ∧ maths.exp x ≤ 1

/-- No packet has a negative size. -/
def Event.Sized : Event → Prop
  | .arrival pkt _ _ => 0 ≤ pkt.size
  | .departure _ => True

namespace REDQueue

variable {Q : Type} {queue : PacketQueue Q} {maths : Maths} {s : REDQueue Q}

/-- The last probabilities are probabilities. -/
def Probable (edv : Edv) : Prop :=
  (0 ≤ edv.vProb1 ∧ edv.vProb1 ≤ 1) ∧ 0 ≤ edv.vProb ∧ edv.vProb ≤ 1

/-- A queue that has its link and was given sensible parameters, or 0, -1 or -2 where they are to
be configured automatically. -/
structure Configured (s : REDQueue Q) : Prop where
  link : ∃ link, s.link = some link ∧ 0 < link.bandwidth
  meanPktsize : 0 < s.edp.meanPktsize
  delay : 0 ≤ s.edp.delay
  qW : 0 ≤ s.edp.qW ∧ s.edp.qW ≤ 1 ∨ s.edp.qW = -1 ∨ s.edp.qW = -2
  thMinPkts : 0 ≤ s.edp.thMinPkts
  thMaxPkts : 0 ≤ s.edp.thMaxPkts
  maxPInv : 1 ≤ s.edp.maxPInv
  alpha : 0 < s.edp.alpha
  beta : 0 < s.edp.beta
  probable : Probable s.edv

/-! ### Automatic configuration -/

/-- What `reset()` makes of the parameters and variables, as far as the ranges rest on it. -/
structure Ready (s : REDQueue Q) : Prop where
  meanPktsize : 0 < s.edp.meanPktsize
  qW_nonneg : 0 ≤ s.edp.qW
  qW_le_one : s.edp.qW ≤ 1
  thMax : 0 < s.edp.thMax
  maxPInv : 1 ≤ s.edp.maxPInv
  alpha : 0 < s.edp.alpha
  beta : 0 < s.edp.beta
  slope : s.edp.thMin < s.edp.thMax → s.edv.vA = 1 / (s.edp.thMax - s.edp.thMin) ∧
    s.edv.vB = -s.edp.thMin / (s.edp.thMax - s.edp.thMin)
  steep : s.edp.gentle = true → s.edv.vC = (1 - 1 / s.edp.maxPInv) / s.edp.thMax ∧
    s.edv.vD = 2 * (1 / s.edp.maxPInv) - 1

theorem Ready.keep {t : REDQueue Q} (ready : Ready s) (kept : Kept s t) : Ready t := by
  obtain ⟨edp, -, -, vA, vB, vC, vD⟩ := kept
  constructor
  all_goals rw [edp]
  · exact ready.meanPktsize
  · exact ready.qW_nonneg
  · exact ready.qW_le_one
  · exact ready.thMax
  · exact ready.maxPInv
  · exact ready.alpha
  · exact ready.beta
  · rw [vA, vB]
    exact ready.slope
  · rw [vC, vD]
    exact ready.steep

theorem initialQW_range {exp : ℚ → ℚ} (decays : ∀ x ≤ 0, 0 < exp x ∧ exp x ≤ 1) (edp : Edp)
    (ptc : 0 < edp.ptc) (delay : 0 ≤ edp.delay)
    (qW : 0 ≤ edp.qW ∧ edp.qW ≤ 1 ∨ edp.qW = -1 ∨ edp.qW = -2) :
    0 ≤ initialQW exp edp ∧ initialQW exp edp ≤ 1 := by
  have weight : ∀ n d : ℚ, 0 ≤ n → 0 < d → 0 ≤ 1 - exp (-n / d) ∧ 1 - exp (-n / d) ≤ 1 := by
    intro n d nonneg positive
    obtain ⟨low, high⟩ := decays (-n / d) (by
      rw [neg_div]
      exact neg_nonpos.mpr (div_nonneg nonneg positive.le))
    constructor
    · linarith
    · linarith
  simp only [initialQW]
  split_ifs with zero one short two
  · exact weight 1 edp.ptc zero_le_one ptc
  · exact weight 1 _ zero_le_one (by positivity)
  · refine weight 1 _ zero_le_one ?_
    have slow : 0 ≤ 3 * (edp.delay + 1 / edp.ptc) := by positivity
    have positive : (0 : ℚ) < 3 * (edp.delay + 1 / edp.ptc) := by linarith
    positivity
  · exact weight 10 edp.ptc (by norm_num) ptc
  · rcases qW with range | one' | two'
    · exact range
    · exact absurd one' one
    · exact absurd two' two

theorem initialThMinPkts_pos (edp : Edp) (nonneg : 0 ≤ edp.thMinPkts) :
    0 < initialThMinPkts edp := by
  simp only [initialThMinPkts]
  split_ifs with unset large
  · linarith
  · norm_num
  · exact lt_of_le_of_ne nonneg (Ne.symm unset)

theorem initialThMaxPkts_pos (edp : Edp) (low : 0 ≤ edp.thMinPkts) (high : 0 ≤ edp.thMaxPkts) :
    0 < initialThMaxPkts edp := by
  simp only [initialThMaxPkts]
  split_ifs with unset
  · have positive := initialThMinPkts_pos edp low
    positivity
  · exact lt_of_le_of_ne high (Ne.symm unset)

/-- The parameters after `reset()`. -/
theorem resetEdp_eq_fields (exp : ℚ → ℚ) (link : Link) (qib : Bool) {edp : Edp}
    (low : 0 ≤ edp.thMinPkts) (high : 0 ≤ edp.thMaxPkts) :
    let initial := { edp with ptc := link.bandwidth / (8 * edp.meanPktsize) }
    let unit : ℚ := if qib then edp.meanPktsize else 1
    resetEdp exp (some link) qib edp =
      { initial with
        qW := initialQW exp initial
        thMinPkts := initialThMinPkts initial
        thMaxPkts := initialThMaxPkts initial
        bottom := initialBottom link initial
        thMin := initialThMinPkts initial * unit
        thMax := initialThMaxPkts initial * unit } := by
  intro initial unit
  have set : initialThMaxPkts initial ≠ 0 := (initialThMaxPkts_pos initial low high).ne'
  simp only [resetEdp, initializeParams_fields]
  rw [if_neg set]
  cases qib with
  | true => rfl
  | false => simp [unit, initial]

theorem resetEdv_slope {edp : Edp} (edv : Edv) (ordered : edp.thMin < edp.thMax) :
    (resetEdv edp edv).vA = 1 / (edp.thMax - edp.thMin) ∧
      (resetEdv edp edv).vB = -edp.thMin / (edp.thMax - edp.thMin) := by
  have apart : edp.thMax - edp.thMin ≠ 0 := (sub_pos.mpr ordered).ne'
  simp only [resetEdv, if_neg apart]
  split_ifs <;> exact ⟨rfl, rfl⟩

theorem resetEdv_steep {edp : Edp} (edv : Edv) (gentle : edp.gentle = true) :
    (resetEdv edp edv).vC = (1 - 1 / edp.maxPInv) / edp.thMax ∧
      (resetEdv edp edv).vD = 2 * (1 / edp.maxPInv) - 1 := by
  simp only [resetEdv, if_pos gentle]
  exact ⟨trivial, trivial⟩

/-- What `reset()` sets no matter what the parameters are. -/
theorem resetEdv_start (edp : Edp) (edv : Edv) :
    (resetEdv edp edv).vAve = 0 ∧ (resetEdv edp edv).countBytes = 0 ∧
      (resetEdv edp edv).curMaxP = 1 / edp.maxPInv ∧ (resetEdv edp edv).lastset = 0 ∧
      (resetEdv edp edv).vProb1 = edv.vProb1 ∧ (resetEdv edp edv).vProb = edv.vProb := by
  simp only [resetEdv]
  split_ifs <;> exact ⟨rfl, rfl, rfl, rfl, rfl, rfl⟩

theorem reset_ready (decays : maths.Decays) (configured : Configured s) (now : ℚ) :
    Ready (reset queue maths now s) := by
  obtain ⟨link, isLink, bandwidth⟩ := configured.link
  have mean : (0 : ℚ) < s.edp.meanPktsize := by exact_mod_cast configured.meanPktsize
  let initial := { s.edp with ptc := link.bandwidth / (8 * s.edp.meanPktsize) }
  have eq := resetEdp_eq_fields maths.exp link s.qib configured.thMinPkts configured.thMaxPkts
  rw [← isLink] at eq
  have ptc : 0 < link.bandwidth / (8 * (s.edp.meanPktsize : ℚ)) := by positivity
  have weight := initialQW_range decays initial ptc configured.delay configured.qW
  have high := initialThMaxPkts_pos initial configured.thMinPkts configured.thMaxPkts
  have edp : (reset queue maths now s).edp = _ := eq
  have edv : (reset queue maths now s).edv = resetEdv (reset queue maths now s).edp s.edv := rfl
  constructor
  · rw [edp]
    exact configured.meanPktsize
  · rw [edp]
    exact weight.1
  · rw [edp]
    exact weight.2
  · rw [edp]
    refine mul_pos high ?_
    split_ifs
    · exact mean
    · exact one_pos
  · rw [edp]
    exact configured.maxPInv
  · rw [edp]
    exact configured.alpha
  · rw [edp]
    exact configured.beta
  · rw [edv]
    exact resetEdv_slope s.edv
  · rw [edv]
    exact resetEdv_steep s.edv

/-! ### Ranges that an arrival keeps -/

theorem decay_range {qW : ℚ} (nonneg : 0 ≤ qW) (le_one : qW ≤ 1) (turns : Nat) {ave : ℚ}
    (low : 0 ≤ ave) : 0 ≤ decay qW turns ave ∧ decay qW turns ave ≤ ave := by
  induction turns generalizing ave with
  | zero => exact ⟨low, le_refl _⟩
  | succ turns ih =>
    have smaller : ave * (1 - qW) ≤ ave := mul_le_of_le_one_right low (by linarith)
    obtain ⟨least, most⟩ := ih (mul_nonneg low (sub_nonneg.mpr le_one))
    exact ⟨least, most.trans smaller⟩

/-- The average stays between 0 and any bound on the old average and the queue found. -/
theorem newAve_range (ready : Ready s) (now : ℚ) {B : ℚ} (low : 0 ≤ s.edv.vAve)
    (high : s.edv.vAve ≤ B) (nonneg : 0 ≤ qlen queue s) (bounded : (qlen queue s : ℚ) ≤ B) :
    0 ≤ newAve queue now s ∧ newAve queue now s ≤ B := by
  obtain ⟨least, most⟩ := decay_range ready.qW_nonneg ready.qW_le_one (pretended now s) low
  have found : (0 : ℚ) ≤ qlen queue s := by exact_mod_cast nonneg
  have rest : 0 ≤ 1 - s.edp.qW := sub_nonneg.mpr ready.qW_le_one
  constructor
  · exact add_nonneg (mul_nonneg least rest) (mul_nonneg ready.qW_nonneg found)
  · have first := mul_le_mul_of_nonneg_right (most.trans high) rest
    have second := mul_le_mul_of_nonneg_left bounded ready.qW_nonneg
    simp only [newAve]
    linarith

theorem Ready.maxP_range (ready : Ready s) : 0 < 1 / s.edp.maxPInv ∧ 1 / s.edp.maxPInv ≤ 1 := by
  have positive : 0 < s.edp.maxPInv := lt_of_lt_of_le one_pos ready.maxPInv
  exact ⟨by positivity, (div_le_one positive).mpr ready.maxPInv⟩

/-- The line between the thresholds, which reaches 1 at the upper one. -/
theorem Ready.line_eq (ready : Ready s) (ordered : s.edp.thMin < s.edp.thMax) :
    s.edv.vA * s.edv.vAve + s.edv.vB =
      (s.edv.vAve - s.edp.thMin) / (s.edp.thMax - s.edp.thMin) := by
  obtain ⟨vA, vB⟩ := ready.slope ordered
  rw [vA, vB]
  ring

/-- The gentle line above the upper threshold starts from the first `max_p`. -/
theorem Ready.gentle_line (ready : Ready s) (gentle : s.edp.gentle = true)
    (above : s.edv.vAve ≥ s.edp.thMax) :
    1 / s.edp.maxPInv ≤ s.edv.vC * s.edv.vAve + s.edv.vD := by
  obtain ⟨vC, vD⟩ := ready.steep gentle
  have scaled : 1 ≤ s.edv.vAve / s.edp.thMax := (one_le_div ready.thMax).mpr above
  have line : s.edv.vC * s.edv.vAve = (1 - 1 / s.edp.maxPInv) * (s.edv.vAve / s.edp.thMax) := by
    rw [vC]
    ring
  have more := mul_le_mul_of_nonneg_left scaled (sub_nonneg.mpr ready.maxP_range.2)
  rw [line, vD]
  linarith

/-- A lower bound for the three branches is one for their probability. -/
theorem le_earlyP {p : ℚ} (le_one : p ≤ 1)
    (gentle : s.edp.gentle = true → s.edv.vAve ≥ s.edp.thMax →
      p ≤ s.edv.vC * s.edv.vAve + s.edv.vD)
    (below : s.edv.vAve < s.edp.thMax → p ≤ (s.edv.vA * s.edv.vAve + s.edv.vB) * s.edv.curMaxP) :
    p ≤ earlyP s := by
  suffices line : p ≤ (if s.edp.gentle = true ∧ s.edv.vAve ≥ s.edp.thMax then
      s.edv.vC * s.edv.vAve + s.edv.vD
      else if ¬ s.edp.gentle = true ∧ s.edv.vAve ≥ s.edp.thMax then 1
      else (s.edv.vA * s.edv.vAve + s.edv.vB) * s.edv.curMaxP) by
    simp only [earlyP, calculatePNew]
    split_ifs at line ⊢ <;> first | exact le_one | exact line
  split_ifs with steep plain
  · exact gentle steep.1 steep.2
  · exact le_one
  · refine below (not_le.mp fun high => ?_)
    cases isGentle : s.edp.gentle with
    | true => exact steep ⟨isGentle, high⟩
    | false => exact plain ⟨by simp [isGentle], high⟩

theorem earlyP_range (ready : Ready s) (curMaxP : 0 ≤ s.edv.curMaxP)
    (above : s.edv.vAve ≥ s.edp.thMin) : 0 ≤ earlyP s ∧ earlyP s ≤ 1 := by
  refine ⟨le_earlyP zero_le_one (fun gentle high => ?_) fun below => ?_,
    calculatePNew_le_one _ _ _ _ _ _ _ _⟩
  · exact ready.maxP_range.1.le.trans (ready.gentle_line gentle high)
  · have ordered : s.edp.thMin < s.edp.thMax := above.trans_lt below
    rw [ready.line_eq ordered]
    exact mul_nonneg (div_nonneg (sub_nonneg.mpr above) (sub_pos.mpr ordered).le) curMaxP

theorem modifyP_range {p : ℚ} (count countBytes : Int) (bytes : Bool) {meanPktsize : Int}
    (wait : Bool) {size : Int} (nonneg : 0 ≤ p) (positive : 0 < meanPktsize) (sized : 0 ≤ size) :
    0 ≤ modifyP p count countBytes bytes meanPktsize wait size ∧
      modifyP p count countBytes bytes meanPktsize wait size ≤ 1 := by
  have ends : ∀ r : ℚ, 0 ≤ r →
      0 ≤ (if (if bytes = true ∧ r < 1 then r * size / meanPktsize else r) > 1 then 1
        else if bytes = true ∧ r < 1 then r * size / meanPktsize else r) ∧
      (if (if bytes = true ∧ r < 1 then r * size / meanPktsize else r) > 1 then 1
        else if bytes = true ∧ r < 1 then r * size / meanPktsize else r) ≤ 1 := by
    intro r low
    have scaled : 0 ≤ r * size / meanPktsize := by
      have mean : (0 : ℚ) < meanPktsize := by exact_mod_cast positive
      have size : (0 : ℚ) ≤ size := by exact_mod_cast sized
      positivity
    split_ifs with first large large
    · exact ⟨zero_le_one, le_refl _⟩
    · exact ⟨scaled, not_lt.mp large⟩
    · exact ⟨zero_le_one, le_refl _⟩
    · exact ⟨low, not_lt.mp large⟩
  simp only [modifyP]
  refine ends _ ?_
  generalize (if bytes = true then ((countBytes.tdiv meanPktsize : Int) : ℚ) else count) = count1
  split_ifs with _ early late early
  · exact le_refl _
  · exact div_nonneg nonneg (sub_nonneg.mpr late.le)
  · exact zero_le_one
  · exact div_nonneg nonneg (sub_nonneg.mpr early.le)
  · exact zero_le_one

/-! ### `max_p` -/

/-- The least and the largest `max_p` that additive increase and multiplicative decrease reach. -/
def lowestMaxP (edp : Edp) : ℚ := min (1 / edp.maxPInv) (edp.bottom * edp.beta)

def highestMaxP (edp : Edp) : ℚ :=
  max (1 / edp.maxPInv) (min (edp.top + edp.alpha) (5 / 4 * edp.top))

theorem adapted_pos {edp : Edp} (alpha : 0 < edp.alpha) (beta : 0 < edp.beta) (newAve now : ℚ)
    {edv : Edv} (positive : 0 < edv.curMaxP) : 0 < (adapted edp newAve now edv).curMaxP := by
  have feng : 0 < (updateMaxPFeng edp newAve edv).curMaxP := by
    simp only [updateMaxPFeng]
    split_ifs <;> positivity
  have steered : 0 < (updateMaxP edp newAve now edv).curMaxP := by
    simp only [updateMaxP]
    split_ifs <;> positivity
  simp only [adapted]
  split_ifs
  · exact feng
  · exact steered
  · exact positive
  · exact positive

theorem adapted_range {edp : Edp} (plain : edp.fengAdaptive ≠ 1) (alpha : 0 < edp.alpha)
    (beta : 0 < edp.beta) (le_one : edp.beta ≤ 1) (newAve now : ℚ) {edv : Edv}
    (low : lowestMaxP edp ≤ edv.curMaxP) (high : edv.curMaxP ≤ highestMaxP edp)
    (positive : 0 < edv.curMaxP) :
    lowestMaxP edp ≤ (adapted edp newAve now edv).curMaxP ∧
      (adapted edp newAve now edv).curMaxP ≤ highestMaxP edp := by
  have steered : lowestMaxP edp ≤ (updateMaxP edp newAve now edv).curMaxP ∧
      (updateMaxP edp newAve now edv).curMaxP ≤ highestMaxP edp := by
    simp only [updateMaxP]
    split_ifs with down up large
    · -- a decrease starts above `bottom`
      have least := mul_le_mul_of_nonneg_right down.2.le beta.le
      have less := mul_le_of_le_one_right positive.le le_one
      exact ⟨(min_le_right _ _).trans least, less.trans high⟩
    · -- an increase starts below `top`
      have below : edv.curMaxP < edp.top := up.2
      refine ⟨by linarith, le_max_of_le_right (le_min ?_ ?_)⟩
      · linarith
      · linarith
    · have below : edv.curMaxP < edp.top := up.2
      refine ⟨by linarith, le_max_of_le_right (le_min ?_ ?_)⟩
      · linarith
      · linarith
    · exact ⟨low, high⟩
  simp only [adapted, if_neg plain]
  split_ifs
  · exact steered
  · exact ⟨low, high⟩
  · exact ⟨low, high⟩

/-! ### Runs -/

theorem Judged.estimates {pkt taken : Packet} {u : ℚ} {droptype : Droptype} {t : REDQueue Q}
    (judgement : Judged queue pkt u s (droptype, taken, t)) :
    t.edv.vAve = s.edv.vAve ∧ t.edv.curMaxP = s.edv.curMaxP ∧ t.edv.lastset = s.edv.lastset := by
  cases judgement <;> exact ⟨rfl, rfl, rfl⟩

theorem settle_estimates (droptype : Droptype) (integer : Nat → Nat) (pkt : Packet)
    (s : REDQueue Q) :
    let t := (settle queue droptype integer pkt s).s
    t.edv.vAve = s.edv.vAve ∧ t.edv.curMaxP = s.edv.curMaxP ∧ t.edv.lastset = s.edv.lastset ∧
      t.edv.vProb1 = s.edv.vProb1 ∧ t.edv.vProb = s.edv.vProb := by
  cases droptype with
  | none => exact ⟨rfl, rfl, rfl, rfl, rfl⟩
  | unforced => exact ⟨rfl, rfl, rfl, rfl, rfl⟩
  | forced =>
    simp only [settle]
    split_ifs <;> exact ⟨rfl, rfl, rfl, rfl, rfl⟩

/-- The average and `max_p` that an arrival leaves. -/
theorem enque_estimates (pkt : Packet) (now : ℚ) (draws : Draws) (s : REDQueue Q) :
    let after := (s.enque queue maths pkt now draws).s
    let edv := adapted s.edp (newAve queue now s) now s.edv
    after.edv.vAve = newAve queue now s ∧ after.edv.curMaxP = edv.curMaxP ∧
      after.edv.lastset = edv.lastset := by
  obtain ⟨droptype, taken, t, judgement, enque⟩ := enque_judged queue maths pkt now draws s
  obtain ⟨vAve, curMaxP, lastset⟩ := judgement.estimates
  obtain ⟨vAve', curMaxP', lastset', -, -⟩ := @settle_estimates _ queue
    (if limit s ≤ qlen queue s then .forced else droptype) draws.integer taken t
  rw [prepared_eq] at vAve curMaxP lastset
  rw [enque]
  exact ⟨vAve'.trans vAve, curMaxP'.trans curMaxP, lastset'.trans lastset⟩

theorem Judged.probable {pkt taken : Packet} {u : ℚ} {droptype : Droptype} {t : REDQueue Q}
    (judgement : Judged queue pkt u s (droptype, taken, t)) (ready : Ready s)
    (curMaxP : 0 ≤ s.edv.curMaxP) (sized : 0 ≤ pkt.size) (before : Probable s.edv) :
    Probable t.edv := by
  have computed (above : s.edv.vAve ≥ s.edp.thMin) : (0 ≤ earlyP s ∧ earlyP s ≤ 1) ∧
      0 ≤ modifiedP pkt s ∧ modifiedP pkt s ≤ 1 := by
    have early := earlyP_range ready curMaxP above
    exact ⟨early, modifyP_range _ _ _ _ early.1 ready.meanPktsize sized⟩
  cases judgement with
  | forced => exact before
  | crossed => exact before
  | spared above => exact computed above
  | marked above => exact computed above
  | dropped above => exact computed above
  | below => exact ⟨before.1, le_refl _, zero_le_one⟩

theorem enque_probable {pkt : Packet} (now : ℚ) (draws : Draws) (ready : Ready s)
    (curMaxP : 0 < s.edv.curMaxP) (sized : 0 ≤ pkt.size) (before : Probable s.edv) :
    Probable (s.enque queue maths pkt now draws).s.edv := by
  obtain ⟨droptype, taken, t, judgement, enque⟩ := enque_judged queue maths pkt now draws s
  obtain ⟨-, -, -, vProb1, vProb⟩ := @settle_estimates _ queue
    (if limit s ≤ qlen queue s then .forced else droptype) draws.integer taken t
  have adapts : 0 < (prepared queue pkt now s).edv.curMaxP := by
    rw [prepared_eq]
    exact adapted_pos ready.alpha ready.beta _ _ curMaxP
  have start : Probable (prepared queue pkt now s).edv := by
    obtain ⟨_, _, _, eq⟩ := adapted_eq s.edp (newAve queue now s) now s.edv
    rw [prepared_eq, eq]
    exact before
  have judged := judgement.probable (ready.keep (prepared_kept queue pkt now s).1) adapts.le sized
    start
  rw [enque, Probable, vProb1, vProb]
  exact judged

structure InRange (queue : PacketQueue Q) (h : History Q) : Prop where
  conserved : Conserved queue h
  sized : ∀ a ∈ h.admissions, 0 ≤ a.offered.size
  vAve_nonneg : 0 ≤ h.s.edv.vAve
  vAve_le : ∀ B : ℚ, 0 ≤ B → (∀ a ∈ h.admissions, (a.found : ℚ) ≤ B) → h.s.edv.vAve ≤ B
  probable : Probable h.s.edv
  curMaxP_pos : 0 < h.s.edv.curMaxP
  curMaxP : h.s.edp.fengAdaptive ≠ 1 → h.s.edp.beta ≤ 1 →
    lowestMaxP h.s.edp ≤ h.s.edv.curMaxP ∧ h.s.edv.curMaxP ≤ highestMaxP h.s.edp

theorem InRange.qlen_nonneg {h : History Q} (inside : InRange queue h) : 0 ≤ qlen queue h.s := by
  have sized : ∀ pkt ∈ queue.contents h.s.q, 0 ≤ pkt.size := by
    intro pkt member
    have taken := inside.conserved.order.subset (List.mem_append_right _ member)
    obtain ⟨a, admitted, rfl⟩ := List.mem_map.mp taken
    rw [(inside.conserved.marked a admitted).packet]
    exact inside.sized a admitted
  simp only [qlen]
  split_ifs
  · refine List.sum_nonneg fun size member => ?_
    obtain ⟨pkt, here, rfl⟩ := List.mem_map.mp member
    exact sized pkt here
  · exact Int.natCast_nonneg _

theorem InRange.arrive {h : History Q} (inside : InRange queue h) (ready : Ready h.s) {pkt : Packet}
    (now : ℚ) {draws : Draws} (drawn : draws.Valid) (sized : 0 ≤ pkt.size) :
    InRange queue (h.arrive queue maths pkt now draws) := by
  obtain ⟨vAve, curMaxP, -⟩ := @enque_estimates _ queue maths pkt now draws h.s
  have edp : (h.arrive queue maths pkt now draws).s.edp = h.s.edp :=
    (enque_kept queue maths pkt now draws h.s).edp
  have ave : (h.arrive queue maths pkt now draws).s.edv.vAve = newAve queue now h.s := vAve
  have maxP : (h.arrive queue maths pkt now draws).s.edv.curMaxP =
      (adapted h.s.edp (newAve queue now h.s) now h.s.edv).curMaxP := curMaxP
  constructor
  · exact inside.conserved.arrive pkt now drawn
  · intro a member
    simp only [History.arrive, List.mem_append, List.mem_singleton] at member
    rcases member with old | rfl
    · exact inside.sized a old
    · exact sized
  · rw [ave]
    have bound : (0 : ℚ) ≤ max h.s.edv.vAve (qlen queue h.s) :=
      inside.vAve_nonneg.trans (le_max_left _ _)
    exact (newAve_range ready now inside.vAve_nonneg (le_max_left _ _) inside.qlen_nonneg
      (le_max_right _ _)).1
  · intro B nonneg bounded
    simp only [History.arrive, List.mem_append, List.mem_singleton] at bounded
    rw [ave]
    exact (newAve_range ready now inside.vAve_nonneg
      (inside.vAve_le B nonneg fun a member => bounded a (.inl member)) inside.qlen_nonneg
      (bounded _ (.inr rfl))).2
  · exact enque_probable now draws ready inside.curMaxP_pos sized inside.probable
  · rw [maxP]
    exact adapted_pos ready.alpha ready.beta _ _ inside.curMaxP_pos
  · intro plain le_one
    rw [edp] at plain le_one ⊢
    obtain ⟨low, high⟩ := inside.curMaxP plain le_one
    rw [maxP]
    exact adapted_range plain ready.alpha ready.beta le_one _ _ low high inside.curMaxP_pos

theorem InRange.depart {h : History Q} (fifo : queue.Fifo) (inside : InRange queue h) (now : ℚ) :
    InRange queue (h.depart queue now) := by
  have edp : (h.depart queue now).s.edp = h.s.edp := (deque_kept queue now h.s).edp
  have edv := depart_edv queue now h
  constructor
  · exact inside.conserved.depart fifo now
  · exact inside.sized
  · rw [edv]
    exact inside.vAve_nonneg
  · rw [edv]
    exact inside.vAve_le
  · rw [edv]
    exact inside.probable
  · rw [edv]
    exact inside.curMaxP_pos
  · rw [edv, edp]
    exact inside.curMaxP

theorem reset_inRange (fifo : queue.Fifo) (decays : maths.Decays) (configured : Configured s)
    (resetAt : ℚ) : InRange queue ⟨reset queue maths resetAt s, [], []⟩ := by
  have empty : queue.contents (reset queue maths resetAt s).q = [] := fifo.reset s.q
  have ready : Ready (reset queue maths resetAt s) := reset_ready decays configured resetAt
  obtain ⟨vAve, -, curMaxP, -, vProb1, vProb⟩ :=
    resetEdv_start (reset queue maths resetAt s).edp s.edv
  have curMaxP : (reset queue maths resetAt s).edv.curMaxP =
      1 / (reset queue maths resetAt s).edp.maxPInv := curMaxP
  have positive : 0 < (reset queue maths resetAt s).edp.maxPInv :=
    lt_of_lt_of_le one_pos ready.maxPInv
  constructor
  · exact ⟨List.forall_mem_nil _, by simp [empty], by simp [empty, History.dropped]⟩
  · exact List.forall_mem_nil _
  · exact vAve.ge
  · exact fun B nonneg _ => vAve.le.trans nonneg
  · obtain ⟨first, second⟩ := configured.probable
    exact ⟨⟨vProb1 ▸ first.1, vProb1 ▸ first.2⟩, vProb ▸ second.1, vProb ▸ second.2⟩
  · rw [curMaxP]
    positivity
  · intro _ _
    rw [curMaxP]
    exact ⟨min_le_left _ _, le_max_left _ _⟩

theorem historyOf_inRange (fifo : queue.Fifo) (decays : maths.Decays) (configured : Configured s)
    (resetAt : ℚ) {events : List Event} (drawn : ∀ event ∈ events, event.Drawn)
    (sized : ∀ event ∈ events, event.Sized) :
    InRange queue (historyOf queue maths events (reset queue maths resetAt s)) := by
  have ready : Ready (reset queue maths resetAt s) := reset_ready decays configured resetAt
  refine historyOf_invariant queue maths (reset_inRange fifo decays configured resetAt) ?_
  intro h kept before event member
  have drawn := drawn event member
  have sized := sized event member
  cases event with
  | arrival pkt now draws => exact before.arrive (ready.keep kept) now drawn sized
  | departure now => exact before.depart fifo now

/-- However RED is configured and whatever comes, also after long idle periods: the average lies
between 0 and the longest queue that an arrival found, with a limit in packets below the limit; both
drop probabilities are between 0 and 1; and `max_p` is positive and, if it adapts by additive
increase and multiplicative decrease, between what these can reach from `bottom` and `top`. -/
theorem estimates_inRange (fifo : queue.Fifo) (decays : maths.Decays) (configured : Configured s)
    (resetAt : ℚ) (events : List Event) (drawn : ∀ event ∈ events, event.Drawn)
    (sized : ∀ event ∈ events, event.Sized) :
    let h := historyOf queue maths events (reset queue maths resetAt s)
    (0 ≤ h.s.edv.vAve ∧
      (∀ B : ℚ, 0 ≤ B → (∀ a ∈ h.admissions, (a.found : ℚ) ≤ B) → h.s.edv.vAve ≤ B) ∧
      (s.qib = false → h.s.edv.vAve ≤ (max s.qlim 0 : Int))) ∧
    (0 ≤ h.s.edv.vProb1 ∧ h.s.edv.vProb1 ≤ 1) ∧ (0 ≤ h.s.edv.vProb ∧ h.s.edv.vProb ≤ 1) ∧
    0 < h.s.edv.curMaxP ∧ (h.s.edp.fengAdaptive ≠ 1 → h.s.edp.beta ≤ 1 →
      lowestMaxP h.s.edp ≤ h.s.edv.curMaxP ∧ h.s.edv.curMaxP ≤ highestMaxP h.s.edp) := by
  intro h
  have inside : InRange queue h := historyOf_inRange fifo decays configured resetAt drawn sized
  have kept : Kept (reset queue maths resetAt s) h.s := historyOf_kept queue maths events _
  have limited : Limited queue h := (reset_conserved fifo resetAt s events drawn).2
  have short : s.qib = false → h.s.edv.vAve ≤ (max s.qlim 0 : Int) := by
    intro packets
    refine inside.vAve_le _ (by exact_mod_cast le_max_right s.qlim 0) fun a member => ?_
    have found := (limited (kept.qib.trans packets)).2 a member
    rw [kept.qlim] at found
    exact_mod_cast found
  exact ⟨⟨inside.vAve_nonneg, inside.vAve_le, short⟩, inside.probable.1, inside.probable.2,
    inside.curMaxP_pos, inside.curMaxP⟩

theorem trivialMaths_decays : trivialMaths.Decays := fun _ _ => ⟨one_pos, le_refl 1⟩

theorem adaptiveQueue_configured : Configured adaptiveQueue where
  link := ⟨⟨8000000⟩, rfl, by norm_num⟩
  meanPktsize := by decide
  delay := le_refl _
  qW := .inl ⟨by decide +kernel, by decide +kernel⟩
  thMinPkts := by decide +kernel
  thMaxPkts := by decide +kernel
  maxPInv := by decide +kernel
  alpha := by decide +kernel
  beta := by decide +kernel
  probable := by
    have zero : (0 : ℚ) ≤ 0 ∧ (0 : ℚ) ≤ 1 := ⟨le_refl _, zero_le_one⟩
    exact ⟨zero, zero⟩

theorem mixedTraffic_sized : ∀ event ∈ mixedTraffic, event.Sized := by
  intro event member
  obtain ⟨now, rfl⟩ | ⟨ect, now, uniform, rfl, -⟩ := mixedTraffic_cases event member
  · exact trivial
  · exact Int.natCast_nonneg 1000

/-- After two increases of `max_p`. -/
theorem estimates_inRange_mixedTraffic :
    let h := historyOf listQueue trivialMaths mixedTraffic
      (reset listQueue trivialMaths 0 adaptiveQueue)
    h.s.edv.curMaxP = 13 / 25 ∧
    (0 ≤ h.s.edv.vAve ∧
      (∀ B : ℚ, 0 ≤ B → (∀ a ∈ h.admissions, (a.found : ℚ) ≤ B) → h.s.edv.vAve ≤ B) ∧
      (adaptiveQueue.qib = false → h.s.edv.vAve ≤ (max adaptiveQueue.qlim 0 : Int))) ∧
    (0 ≤ h.s.edv.vProb1 ∧ h.s.edv.vProb1 ≤ 1) ∧ (0 ≤ h.s.edv.vProb ∧ h.s.edv.vProb ≤ 1) ∧
    0 < h.s.edv.curMaxP ∧ (h.s.edp.fengAdaptive ≠ 1 → h.s.edp.beta ≤ 1 →
      lowestMaxP h.s.edp ≤ h.s.edv.curMaxP ∧ h.s.edv.curMaxP ≤ highestMaxP h.s.edp) :=
  ⟨by decide +kernel, estimates_inRange listQueue_fifo trivialMaths_decays
    adaptiveQueue_configured 0 mixedTraffic mixedTraffic_drawn mixedTraffic_sized⟩

/-! ### The pace of adaptation -/

/-- The times at which `max_p` changed, from the given value on. -/
def adaptations : ℚ → List Admission → List ℚ
  | _, [] => []
  | p, a :: rest =>
    if a.curMaxP = p then adaptations p rest else a.now :: adaptations a.curMaxP rest

def lastMaxP (p : ℚ) (admissions : List Admission) : ℚ :=
  admissions.foldl (fun _ a => a.curMaxP) p

theorem adaptations_append_singleton (p : ℚ) (admissions : List Admission) (a : Admission) :
    adaptations p (admissions ++ [a]) = adaptations p admissions ++
      if a.curMaxP = lastMaxP p admissions then [] else [a.now] := by
  induction admissions generalizing p with
  | nil => rfl
  | cons b rest ih =>
    have last : lastMaxP p (b :: rest) = lastMaxP b.curMaxP rest := rfl
    simp only [List.cons_append, adaptations, ih, last]
    split
    next same => rw [same]
    next => rfl

/-- A change of `max_p` is noted in `lastset`, and waits for the interval. -/
theorem adapted_lastset {edp : Edp} (plain : edp.fengAdaptive ≠ 1) (newAve now : ℚ) (edv : Edv) :
    (adapted edp newAve now edv).curMaxP = edv.curMaxP ∧
        (adapted edp newAve now edv).lastset = edv.lastset ∨
      edv.lastset + edp.interval < now ∧ (adapted edp newAve now edv).lastset = now := by
  simp only [adapted, if_neg plain]
  split_ifs with adaptive due
  · simp only [updateMaxP]
    split_ifs
    · exact .inr ⟨due, rfl⟩
    · exact .inr ⟨due, rfl⟩
    · exact .inr ⟨due, rfl⟩
    · exact .inl ⟨rfl, rfl⟩
  · exact .inl ⟨rfl, rfl⟩
  · exact .inl ⟨rfl, rfl⟩

structure Paced (p : ℚ) (h : History Q) : Prop where
  last : lastMaxP p h.admissions = h.s.edv.curMaxP
  noted : ∀ t ∈ adaptations p h.admissions, t ≤ h.s.edv.lastset
  spaced : (adaptations p h.admissions).Pairwise fun t later => t + h.s.edp.interval < later

theorem Paced.arrive {p : ℚ} {h : History Q} (paced : Paced p h) (plain : h.s.edp.fengAdaptive ≠ 1)
    (nonneg : 0 ≤ h.s.edp.interval) (pkt : Packet) (now : ℚ) (draws : Draws) :
    Paced p (h.arrive queue maths pkt now draws) := by
  obtain ⟨-, curMaxP, lastset⟩ := @enque_estimates _ queue maths pkt now draws h.s
  have edp : (h.arrive queue maths pkt now draws).s.edp = h.s.edp :=
    (enque_kept queue maths pkt now draws h.s).edp
  have moved := adapted_lastset plain (newAve queue now h.s) now h.s.edv
  rw [← curMaxP, ← lastset] at moved
  have times : adaptations p (h.admissions ++ [admission queue maths pkt now draws h.s]) =
      adaptations p h.admissions ++
        if (h.s.enque queue maths pkt now draws).s.edv.curMaxP = h.s.edv.curMaxP then []
        else [now] := by
    rw [adaptations_append_singleton, paced.last]
    rfl
  refine ⟨by simp [History.arrive, lastMaxP, admission], ?_, ?_⟩
  all_goals
    simp only [History.arrive, times]
  · intro t member
    rcases moved with ⟨same, kept⟩ | ⟨due, noted⟩
    · rw [if_pos same, List.append_nil] at member
      exact (paced.noted t member).trans kept.ge
    · rw [noted]
      rcases List.mem_append.mp member with old | new
      · have before := paced.noted t old
        linarith
      · split at new
        · cases new
        · exact (List.mem_singleton.mp new).le
  · rw [show (h.s.enque queue maths pkt now draws).s.edp = h.s.edp from edp]
    rcases moved with ⟨same, -⟩ | ⟨due, -⟩
    · rw [if_pos same, List.append_nil]
      exact paced.spaced
    · refine List.pairwise_append.mpr ⟨paced.spaced, ?_, fun t old later new => ?_⟩
      · split
        · exact .nil
        · exact List.pairwise_singleton _ _
      · have before := paced.noted t old
        split at new
        · cases new
        · obtain rfl := List.mem_singleton.mp new
          linarith

/-- Adaptive RED changes `max_p` at most once in `interval`, however fast packets come, and
an arrival that changes it leaves its time in `lastset`. -/
theorem adaptations_spaced (resetAt : ℚ) (events : List Event) (plain : s.edp.fengAdaptive ≠ 1)
    (nonneg : 0 ≤ s.edp.interval) :
    let h := historyOf queue maths events (reset queue maths resetAt s)
    ((adaptations (1 / s.edp.maxPInv) h.admissions).Pairwise fun t later =>
      t + s.edp.interval < later) ∧
      ∀ pkt now draws, let after := (h.arrive queue maths pkt now draws).s.edv
        after.curMaxP ≠ h.s.edv.curMaxP → after.lastset = now := by
  intro h
  obtain ⟨_, _, _, _, _, _, _, eq⟩ := resetEdp_changes maths.exp s.link s.qib s.edp
  have edp : (reset queue maths resetAt s).edp = _ := eq
  have paced : Paced (1 / s.edp.maxPInv) h := by
    refine historyOf_invariant queue maths (I := Paced (1 / s.edp.maxPInv)) ⟨?_, ?_, ?_⟩ ?_
    · obtain ⟨-, -, curMaxP, -⟩ := resetEdv_start (reset queue maths resetAt s).edp s.edv
      have first : (reset queue maths resetAt s).edv.curMaxP =
          1 / (reset queue maths resetAt s).edp.maxPInv := curMaxP
      rw [edp] at first
      exact first.symm
    · exact List.forall_mem_nil _
    · exact .nil
    · intro h kept before event _
      cases event with
      | arrival pkt now draws =>
        refine before.arrive ?_ ?_ pkt now draws
        · rw [kept.edp, edp]
          exact plain
        · rw [kept.edp, edp]
          exact nonneg
      | departure now =>
        have edv := depart_edv queue now h
        have same : (h.depart queue now).s.edp = h.s.edp := (deque_kept queue now h.s).edp
        refine ⟨?_, ?_, ?_⟩
        · exact before.last.trans (congrArg Edv.curMaxP edv).symm
        · exact fun t member => (before.noted t member).trans (congrArg Edv.lastset edv).ge
        · change (adaptations _ h.admissions).Pairwise _
          rw [show (h.step queue maths (.departure now)).s.edp = h.s.edp from same]
          exact before.spaced
  have spaced := paced.spaced
  rw [(historyOf_kept queue maths events _).edp, edp] at spaced
  refine ⟨spaced, ?_⟩
  intro pkt now draws after changed
  have plain : h.s.edp.fengAdaptive ≠ 1 := by
    rw [(historyOf_kept queue maths events _).edp, edp]
    exact plain
  obtain ⟨-, curMaxP, lastset⟩ := @enque_estimates _ queue maths pkt now draws h.s
  rcases adapted_lastset plain (newAve queue now h.s) now h.s.edv with ⟨same, -⟩ | ⟨-, noted⟩
  · exact absurd (curMaxP.trans same) changed
  · exact lastset.trans noted

theorem adaptations_spaced_mixedTraffic :
    let h := historyOf listQueue trivialMaths mixedTraffic
      (reset listQueue trivialMaths 0 adaptiveQueue)
    adaptations (1 / adaptiveQueue.edp.maxPInv) h.admissions = [2, 4] ∧
      ((adaptations (1 / adaptiveQueue.edp.maxPInv) h.admissions).Pairwise fun t later =>
        t + adaptiveQueue.edp.interval < later) ∧
      ∀ pkt now draws, let after := (h.arrive listQueue trivialMaths pkt now draws).s.edv
        after.curMaxP ≠ h.s.edv.curMaxP → after.lastset = now :=
  ⟨by decide +kernel, adaptations_spaced 0 mixedTraffic (by decide) (by decide +kernel)⟩

end REDQueue

end Saps.Queue
