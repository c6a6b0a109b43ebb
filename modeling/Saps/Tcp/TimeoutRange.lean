import Saps.Library.ShiftAverage
import Saps.Tcp.Backoff

/-!
# The timeout follows the round trips

Both averages of the estimator are kept in fixed point and moved by way of a `short`.
As long as every round trip measured lies in a range of shorts, nothing overflows, no
correction to 1 is made, and the timeout lies in a range that follows from theirs. Once
the round trips stop changing, the timeout comes to rest just above them.
-/
namespace Saps.Tcp

open ShiftAverage

variable {σ : Type} (S : Setup σ)

/-- What the sender does with its estimator. -/
inductive RttCall where
  /-- `rtt_update()`. -/
  | update (tao now : ℚ)
  /-- `rtt_backoff()`. -/
  | backoff
  /-- `t_backoff_ = 1`. -/
  | restart

def RttCall.apply (r : RoundTrip) : RttCall → RoundTrip
  | .update tao now => rttUpdate S tao now r
  | .backoff => rttBackoff S r
  | .restart => { r with tBackoff := 1 }

def RttCall.updates : RttCall → Bool
  | .update _ _ => true
  | .backoff | .restart => false

/-- The round-trip estimate after some calls from `rtt_init()`. -/
def estimateAfter (start : RoundTrip) (calls : List RttCall) : RoundTrip :=
  calls.foldl (RttCall.apply S) (rttInit S start)

/-- The round trip in ticks that `rtt_update()` works with. -/
def ticks (tao now : ℚ) : Int := (rttUpdate S tao now (fresh S).toRoundTrip).tRtt

-- the estimate that was there before has no part in it
example (tao now : ℚ) (r : RoundTrip) : (rttUpdate S tao now r).tRtt = ticks S tao now := rfl

/-- The estimator as the library sets it up, and round trips that fit a `short`. -/
structure Setup.Estimating (S : Setup σ) (lo hi : Int) : Prop where
  tick : 0 < S.tcpTick
  srttInit : S.srttInit = 0
  rttvarBits : 0 < S.rttvarBits
  bits : S.rttvarBits ≤ S.srttBits
  exponent : S.rttvarBits ≤ S.rttvarExp
  one_le : 1 ≤ lo
  short : hi < 2 ^ 15

/-- The timeout in ticks for an estimate, before `minrto_` and the backing off. -/
def rtxTicks (r : RoundTrip) : Int :=
  (r.tRttvar <<< (S.rttvarExp + (S.srttBits - S.rttvarBits)) + r.tSrtt) >>> S.srttBits

/-- An estimate from round trips between `lo` and `hi`. -/
structure Estimated (lo hi : Int) (r : RoundTrip) : Prop where
  srtt_ge : lo * 2 ^ S.srttBits ≤ r.tSrtt
  srtt_le : r.tSrtt ≤ hi * 2 ^ S.srttBits
  rttvar_pos : 0 < r.tRttvar
  rttvar_le : r.tRttvar ≤ hi * 2 ^ S.rttvarBits
  current : r.tRtxcur = rtxTicks S r * S.tcpTick

/-- There is no estimate, as at first and after a long backing off, or it is sound. -/
def Trusted (lo hi : Int) (r : RoundTrip) : Prop := r.tSrtt = 0 ∨ Estimated S lo hi r

/-- Timeouts that go with round trips between `lo` and `hi`. -/
def InTime (lo hi : Int) (r : RoundTrip) : Prop :=
  (lo + 1) * S.tcpTick ≤ r.tRtxcur ∧ r.tRtxcur ≤ (2 ^ S.rttvarExp + 1) * hi * S.tcpTick

variable {S} {lo hi : Int} {r : RoundTrip} {tao now : ℚ}

/-- The shift that brings the deviation to the scale of the estimate is not less than that scale. -/
theorem Setup.Estimating.scales (estimating : S.Estimating lo hi) :
    (2 : Int) ^ S.srttBits ≤ 2 ^ (S.rttvarExp + (S.srttBits - S.rttvarBits)) ∧
      (2 : Int) ^ S.rttvarBits * 2 ^ (S.rttvarExp + (S.srttBits - S.rttvarBits)) =
        2 ^ S.rttvarExp * 2 ^ S.srttBits := by
  have bits := estimating.bits
  have exponent := estimating.exponent
  refine ⟨pow_le_pow_right₀ (by decide) (by omega), ?_⟩
  rw [← pow_add, ← pow_add]
  congr 1
  omega

theorem rttUpdate_tRtxcur : (rttUpdate S tao now r).tRtxcur =
    rtxTicks S (rttUpdate S tao now r) * S.tcpTick := rfl

theorem rttUpdate_first (tao now : ℚ) (none : r.tSrtt = 0) :
    (rttUpdate S tao now r).tSrtt = ticks S tao now <<< S.srttBits ∧
      (rttUpdate S tao now r).tRttvar = ticks S tao now <<< (S.rttvarBits - 1) := by
  constructor
  · rw [rttUpdate, if_neg (not_not.mpr none)]
    rfl
  · rw [rttUpdate, if_neg (not_not.mpr none)]
    rfl

theorem toShort_of_abs_lt {n : Int} (fits : |n| < 2 ^ 15) : toShort n = n := by
  rw [abs_lt] at fits
  exact Int.bmod_eq_of_le_mul_two (by omega) (by omega)

/-- The change of the smoothed round trip. -/
def rttDelta (S : Setup σ) (tao now : ℚ) (r : RoundTrip) : Int :=
  toShort (ticks S tao now - r.tSrtt >>> S.srttBits)

/-- The change of the deviation, from what is left of the other change. -/
def rttvarDelta (S : Setup σ) (delta : Int) (r : RoundTrip) : Int :=
  toShort ((if delta < 0 then toShort (-delta) else delta) - r.tRttvar >>> S.rttvarBits)

theorem rttUpdate_later (tao now : ℚ) (some : r.tSrtt ≠ 0) :
    (rttUpdate S tao now r).tSrtt = (if r.tSrtt + rttDelta S tao now r ≤ 0 then 1
      else r.tSrtt + rttDelta S tao now r) ∧
      (rttUpdate S tao now r).tRttvar =
        if r.tRttvar + rttvarDelta S (rttDelta S tao now r) r ≤ 0 then 1
        else r.tRttvar + rttvarDelta S (rttDelta S tao now r) r := by
  constructor
  · rw [rttUpdate, if_pos some]
    rfl
  · rw [rttUpdate, if_pos some]
    rfl

namespace Estimated

theorem srtt_pos (estimating : S.Estimating lo hi) (estimated : Estimated S lo hi r) :
    0 < r.tSrtt := by
  have positive : (0 : Int) < lo * 2 ^ S.srttBits :=
    mul_pos (by have := estimating.one_le; omega) (by positivity)
  exact positive.trans_le estimated.srtt_ge

theorem smoothed_inRange (estimated : Estimated S lo hi r) :
    lo ≤ r.tSrtt >>> S.srttBits ∧ r.tSrtt >>> S.srttBits ≤ hi :=
  ⟨le_shiftRight.mpr estimated.srtt_ge, shiftRight_le estimated.srtt_le⟩

theorem deviation_inRange (estimated : Estimated S lo hi r) :
    0 ≤ r.tRttvar >>> S.rttvarBits ∧ r.tRttvar >>> S.rttvarBits ≤ hi := by
  have nonneg : 0 * 2 ^ S.rttvarBits ≤ r.tRttvar := by
    rw [zero_mul]
    exact estimated.rttvar_pos.le
  exact ⟨le_shiftRight.mpr nonneg, shiftRight_le estimated.rttvar_le⟩

/-- In range the averages move as averages do. -/
theorem next (tao now : ℚ) (estimating : S.Estimating lo hi) (estimated : Estimated S lo hi r)
    (le_ticks : lo ≤ ticks S tao now) (ticks_le : ticks S tao now ≤ hi) :
    (rttUpdate S tao now r).tSrtt = move S.srttBits r.tSrtt (ticks S tao now) ∧
      (rttUpdate S tao now r).tRttvar = move S.rttvarBits r.tRttvar
        |ticks S tao now - r.tSrtt >>> S.srttBits| := by
  obtain ⟨le_smoothed, smoothed_le⟩ := estimated.smoothed_inRange
  obtain ⟨deviation_nonneg, deviation_le⟩ := estimated.deviation_inRange
  have one := estimating.one_le
  have short := estimating.short
  have positive := estimated.srtt_pos estimating
  have delta : rttDelta S tao now r = ticks S tao now - r.tSrtt >>> S.srttBits :=
    toShort_of_abs_lt (abs_lt.mpr ⟨by omega, by omega⟩)
  have absolute : (if rttDelta S tao now r < 0 then toShort (-rttDelta S tao now r)
      else rttDelta S tao now r) = |ticks S tao now - r.tSrtt >>> S.srttBits| := by
    rw [delta]
    split_ifs with falls
    · rw [toShort_of_abs_lt (abs_lt.mpr ⟨by omega, by omega⟩), abs_of_neg falls]
    · rw [abs_of_nonneg (not_lt.mp falls)]
  have absolute_lt : |ticks S tao now - r.tSrtt >>> S.srttBits| < 2 ^ 15 :=
    abs_lt.mpr ⟨by omega, by omega⟩
  have absolute_nonneg := abs_nonneg (ticks S tao now - r.tSrtt >>> S.srttBits)
  have deviates : rttvarDelta S (rttDelta S tao now r) r =
      |ticks S tao now - r.tSrtt >>> S.srttBits| - r.tRttvar >>> S.rttvarBits := by
    rw [rttvarDelta, absolute]
    exact toShort_of_abs_lt (abs_lt.mpr ⟨by omega, by omega⟩)
  obtain ⟨tSrtt, tRttvar⟩ := rttUpdate_later (S := S) tao now positive.ne'
  have srtt_pos : 0 < move S.srttBits r.tSrtt (ticks S tao now) := by
    have least : (0 : Int) < lo * 2 ^ S.srttBits := mul_pos (by omega) (by positivity)
    exact least.trans_le (le_move estimated.srtt_ge le_ticks)
  have rttvar_pos := move_pos estimating.rttvarBits estimated.rttvar_pos absolute_nonneg
  constructor
  · rw [tSrtt, delta]
    exact if_neg (not_le.mpr srtt_pos)
  · rw [tRttvar, deviates]
    exact if_neg (not_le.mpr rttvar_pos)

/-- The deviation counts at least one unit and at most its bound. -/
theorem rttvar_shifted (estimating : S.Estimating lo hi) (estimated : Estimated S lo hi r) :
    2 ^ S.srttBits ≤ r.tRttvar <<< (S.rttvarExp + (S.srttBits - S.rttvarBits)) ∧
      r.tRttvar <<< (S.rttvarExp + (S.srttBits - S.rttvarBits)) ≤
        2 ^ S.rttvarExp * hi * 2 ^ S.srttBits := by
  obtain ⟨unit_le, whole⟩ := estimating.scales
  rw [Int.shiftLeft_eq]
  constructor
  · exact unit_le.trans (le_mul_of_one_le_left (by positivity) estimated.rttvar_pos)
  · calc r.tRttvar * 2 ^ (S.rttvarExp + (S.srttBits - S.rttvarBits))
        ≤ hi * 2 ^ S.rttvarBits * 2 ^ (S.rttvarExp + (S.srttBits - S.rttvarBits)) :=
          mul_le_mul_of_nonneg_right estimated.rttvar_le (by positivity)
      _ = 2 ^ S.rttvarExp * hi * 2 ^ S.srttBits := by
          rw [mul_assoc, whole]
          ring

theorem inTime (estimating : S.Estimating lo hi) (estimated : Estimated S lo hi r) :
    InTime S lo hi r := by
  obtain ⟨unit, most⟩ := estimated.rttvar_shifted estimating
  have tick := estimating.tick.le
  have low : lo + 1 ≤ rtxTicks S r := by
    rw [rtxTicks, le_shiftRight, add_mul, one_mul]
    have := estimated.srtt_ge
    omega
  have high : rtxTicks S r ≤ (2 ^ S.rttvarExp + 1) * hi := by
    refine shiftRight_le ?_
    rw [add_mul, add_mul, one_mul]
    have := estimated.srtt_le
    omega
  rw [InTime, estimated.current]
  exact ⟨mul_le_mul_of_nonneg_right (by exact_mod_cast low) tick,
    mul_le_mul_of_nonneg_right (by exact_mod_cast high) tick⟩

end Estimated

theorem Trusted.update (estimating : S.Estimating lo hi) (trusted : Trusted S lo hi r)
    (le_ticks : lo ≤ ticks S tao now) (ticks_le : ticks S tao now ≤ hi) :
    Estimated S lo hi (rttUpdate S tao now r) := by
  have one := estimating.one_le
  rcases trusted with none | estimated
  · obtain ⟨tSrtt, tRttvar⟩ := rttUpdate_first (S := S) tao now none
    rw [Int.shiftLeft_eq] at tSrtt tRttvar
    have half : (2 : Int) ^ (S.rttvarBits - 1) ≤ 2 ^ S.rttvarBits :=
      pow_le_pow_right₀ (by decide) (Nat.sub_le _ _)
    refine ⟨?_, ?_, ?_, ?_, rttUpdate_tRtxcur⟩
    · rw [tSrtt]
      exact mul_le_mul_of_nonneg_right le_ticks (by positivity)
    · rw [tSrtt]
      exact mul_le_mul_of_nonneg_right ticks_le (by positivity)
    · rw [tRttvar]
      exact mul_pos (by omega) (by positivity)
    · rw [tRttvar]
      exact mul_le_mul ticks_le half (by positivity) (by omega)
  · obtain ⟨tSrtt, tRttvar⟩ := estimated.next tao now estimating le_ticks ticks_le
    obtain ⟨le_smoothed, smoothed_le⟩ := estimated.smoothed_inRange
    refine ⟨?_, ?_, ?_, ?_, rttUpdate_tRtxcur⟩
    · rw [tSrtt]
      exact le_move estimated.srtt_ge le_ticks
    · rw [tSrtt]
      exact move_le estimated.srtt_le ticks_le
    · rw [tRttvar]
      exact move_pos estimating.rttvarBits estimated.rttvar_pos (abs_nonneg _)
    · rw [tRttvar]
      exact move_le estimated.rttvar_le (abs_le.mpr ⟨by omega, by omega⟩)

/-- Backing off leaves the estimate as it is or discards it. -/
theorem Trusted.backoff (trusted : Trusted S lo hi r) : Trusted S lo hi (rttBackoff S r) := by
  unfold rttBackoff
  generalize (if r.tBackoff < 64 ∨ (S.rfc2988 = true ∧ rttTimeout S r < S.maxrto)
    then r.tBackoff <<< (1 : Nat) else r.tBackoff) = factor
  dsimp only
  split
  · exact .inl rfl
  · rcases trusted with none | estimated
    · exact .inl none
    · exact .inr { estimated with }

theorem rttBackoff_tRtxcur : (rttBackoff S r).tRtxcur = r.tRtxcur := by
  simp only [rttBackoff]
  split_ifs <;> rfl

/-! ### Runs -/

/-- Every round trip that a call measures is between `lo` and `hi`. -/
def RttCall.Within (S : Setup σ) (lo hi : Int) : RttCall → Prop
  | .update tao now => lo ≤ ticks S tao now ∧ ticks S tao now ≤ hi
  | .backoff | .restart => True

instance : DecidablePred (RttCall.Within S lo hi)
  | .update tao now =>
    inferInstanceAs (Decidable (lo ≤ ticks S tao now ∧ ticks S tao now ≤ hi))
  | .backoff | .restart => .isTrue trivial

theorem Trusted.apply (estimating : S.Estimating lo hi) (trusted : Trusted S lo hi r)
    {call : RttCall} (within : call.Within S lo hi) : Trusted S lo hi (call.apply S r) := by
  cases call with
  | update tao now => exact .inr (trusted.update estimating within.1 within.2)
  | backoff => exact trusted.backoff
  | restart =>
    rcases trusted with none | estimated
    · exact .inl none
    · exact .inr { estimated with }

theorem RttCall.apply_inTime (estimating : S.Estimating lo hi) (trusted : Trusted S lo hi r)
    {call : RttCall} (within : call.Within S lo hi)
    (before : call.updates = true ∨ InTime S lo hi r) : InTime S lo hi (call.apply S r) := by
  cases call with
  | update tao now => exact (trusted.update estimating within.1 within.2).inTime estimating
  | backoff =>
    have same : (RttCall.apply S r .backoff).tRtxcur = r.tRtxcur := rttBackoff_tRtxcur
    rw [InTime, same]
    exact before.resolve_left Bool.false_ne_true
  | restart => exact before.resolve_left Bool.false_ne_true

theorem RttCall.one_le_apply (one : 1 ≤ r.tBackoff) (call : RttCall) :
    1 ≤ (call.apply S r).tBackoff := by
  cases call with
  | update tao now => exact one
  | backoff =>
    have factor := rttBackoff_tBackoff (S := S) (r := r)
    show 1 ≤ (rttBackoff S r).tBackoff
    rw [factor]
    split_ifs
    · omega
    · exact one
  | restart => exact le_refl _

theorem estimateAfter_concat (start : RoundTrip) (calls : List RttCall) (call : RttCall) :
    estimateAfter S start (calls ++ [call]) = call.apply S (estimateAfter S start calls) := by
  rw [estimateAfter, List.foldl_append]
  rfl

theorem one_le_estimateAfter (start : RoundTrip) (calls : List RttCall) :
    1 ≤ (estimateAfter S start calls).tBackoff := by
  induction calls using List.reverseRecOn with
  | nil => exact le_refl _
  | append_singleton calls call ih =>
    rw [estimateAfter_concat]
    exact call.one_le_apply ih

theorem estimateAfter_trusted (estimating : S.Estimating lo hi) (start : RoundTrip)
    (calls : List RttCall) (within : ∀ call ∈ calls, call.Within S lo hi) :
    Trusted S lo hi (estimateAfter S start calls) := by
  induction calls using List.reverseRecOn with
  | nil =>
    refine .inl ?_
    show toInt (S.srttInit / S.tcpTick) <<< S.srttBits = 0
    rw [estimating.srttInit, zero_div, Int.shiftLeft_eq]
    exact zero_mul _
  | append_singleton calls call ih =>
    rw [estimateAfter_concat]
    have earlier := ih fun c member => within c (List.mem_append_left _ member)
    exact earlier.apply estimating (within call (by simp))

theorem estimateAfter_inTime (estimating : S.Estimating lo hi) (start : RoundTrip)
    (calls : List RttCall) (within : ∀ call ∈ calls, call.Within S lo hi)
    (measured : ∃ call ∈ calls, call.updates = true) :
    InTime S lo hi (estimateAfter S start calls) := by
  induction calls using List.reverseRecOn with
  | nil =>
    obtain ⟨call, member, -⟩ := measured
    cases member
  | append_singleton calls call ih =>
    have before (c : RttCall) (member : c ∈ calls) : c.Within S lo hi :=
      within c (List.mem_append_left _ member)
    rw [estimateAfter_concat]
    refine RttCall.apply_inTime estimating (estimateAfter_trusted estimating start calls before)
      (within call (by simp)) ?_
    obtain ⟨c, member, updates⟩ := measured
    rcases List.mem_append.mp member with earlier | last
    · exact .inr (ih before ⟨c, earlier, updates⟩)
    · rw [List.mem_singleton.mp last] at updates
      exact .inl updates

/-! ### Steady round trips -/

/-- Every round trip measured takes `m` ticks, and nothing times out. -/
def RttCall.Steady (S : Setup σ) (m : Int) : RttCall → Prop
  | .update tao now => ticks S tao now = m
  | .backoff => False
  | .restart => True

instance (m : Int) : DecidablePred (RttCall.Steady S m)
  | .update tao now => inferInstanceAs (Decidable (ticks S tao now = m))
  | .backoff => .isFalse id
  | .restart => .isTrue trivial

/-- The estimate reads as the round trips, and nothing is left to take off the deviation. -/
structure Settled (S : Setup σ) (lo hi m : Int) (r : RoundTrip) : Prop extends
    Estimated S lo hi r where
  smoothed : r.tSrtt >>> S.srttBits = m
  deviation : r.tRttvar >>> S.rttvarBits = 0

theorem Settled.near {m : Int} (estimating : S.Estimating lo hi) (settled : Settled S lo hi m r) :
    ((m : ℚ) + 1) * S.tcpTick ≤ r.tRtxcur ∧
      r.tRtxcur ≤ ((m : ℚ) + 2 ^ S.rttvarExp - 1) * S.tcpTick := by
  obtain ⟨unit, most⟩ := settled.toEstimated.rttvar_shifted estimating
  have tick := estimating.tick.le
  have low : m + 1 ≤ rtxTicks S r := by
    have above : m * 2 ^ S.srttBits ≤ r.tSrtt := le_shiftRight.mp settled.smoothed.ge
    rw [rtxTicks, le_shiftRight, add_mul, one_mul]
    omega
  have high : rtxTicks S r < m + 2 ^ S.rttvarExp := by
    obtain ⟨unit_le, whole⟩ := estimating.scales
    have below : r.tSrtt < (m + 1) * 2 ^ S.srttBits :=
      shiftRight_lt.mp (by have := settled.smoothed; omega)
    have small : r.tRttvar < 1 * 2 ^ S.rttvarBits :=
      shiftRight_lt.mp (by have := settled.deviation; omega)
    -- a unit less than the whole leaves room for the estimate's own rounding
    have deviation : r.tRttvar <<< (S.rttvarExp + (S.srttBits - S.rttvarBits)) ≤
        2 ^ S.rttvarExp * 2 ^ S.srttBits - 2 ^ S.srttBits := by
      rw [Int.shiftLeft_eq]
      calc r.tRttvar * 2 ^ (S.rttvarExp + (S.srttBits - S.rttvarBits))
          ≤ (2 ^ S.rttvarBits - 1) * 2 ^ (S.rttvarExp + (S.srttBits - S.rttvarBits)) :=
            mul_le_mul_of_nonneg_right (by omega) (by positivity)
        _ = 2 ^ S.rttvarExp * 2 ^ S.srttBits -
              2 ^ (S.rttvarExp + (S.srttBits - S.rttvarBits)) := by
            rw [sub_mul, whole, one_mul]
        _ ≤ 2 ^ S.rttvarExp * 2 ^ S.srttBits - 2 ^ S.srttBits := by omega
    rw [rtxTicks, shiftRight_lt, add_mul]
    rw [add_mul] at below
    omega
  rw [settled.current]
  constructor
  · exact mul_le_mul_of_nonneg_right (by exact_mod_cast low) tick
  · refine mul_le_mul_of_nonneg_right ?_ tick
    have : (rtxTicks S r : ℚ) + 1 ≤ m + 2 ^ S.rttvarExp := by exact_mod_cast high
    linarith

/-- How far the smoothed round trip is from `m`. -/
def srttGap (S : Setup σ) (m : Int) (r : RoundTrip) : Int :=
  (r.tSrtt - m * 2 ^ S.srttBits).natAbs

/-- The updates that it takes at most: the estimate comes first, the deviation after it. -/
def settling (S : Setup σ) (hi m : Int) (r : RoundTrip) : Int :=
  if r.tSrtt >>> S.srttBits = m then r.tRttvar
  else srttGap S m r + hi * 2 ^ S.rttvarBits

theorem Estimated.settling_le {m : Int} (estimated : Estimated S lo hi r) :
    settling S hi m r ≤ srttGap S m r + hi * 2 ^ S.rttvarBits := by
  have most := estimated.rttvar_le
  have nonneg : 0 ≤ srttGap S m r := Int.natCast_nonneg _
  rw [settling]
  split_ifs
  · omega
  · exact le_refl _

theorem Trusted.settling_inRange {m : Int} (estimating : S.Estimating lo hi)
    (trusted : Trusted S lo hi r) (le_m : lo ≤ m) (m_le : m ≤ hi) :
    0 < settling S hi m r ∧
      settling S hi m r ≤ hi * (2 ^ S.srttBits + 2 ^ S.rttvarBits) := by
  have one := estimating.one_le
  have scale : (0 : Int) < 2 ^ S.srttBits := by positivity
  have least : 0 ≤ m * 2 ^ S.srttBits := mul_nonneg (by omega) scale.le
  have level : m * 2 ^ S.srttBits ≤ hi * 2 ^ S.srttBits :=
    mul_le_mul_of_nonneg_right m_le scale.le
  have deviation : 0 < hi * 2 ^ S.rttvarBits := mul_pos (by omega) (by positivity)
  rw [mul_add]
  rcases trusted with none | estimated
  · have unsettled : r.tSrtt >>> S.srttBits ≠ m := by
      rw [none, Int.zero_shiftRight]
      omega
    rw [settling, if_neg unsettled, srttGap, none]
    omega
  · have above := estimated.srtt_pos estimating
    have below := estimated.srtt_le
    have gap : srttGap S m r ≤ hi * 2 ^ S.srttBits := by
      rw [srttGap]
      omega
    have positive := estimated.rttvar_pos
    have most := estimated.settling_le (m := m)
    refine ⟨?_, by omega⟩
    have nonneg : 0 ≤ srttGap S m r := Int.natCast_nonneg _
    rw [settling]
    split_ifs <;> omega

/-- An update that measures what the estimate reads brings it no nearer, only the deviation. -/
theorem Trusted.settles {m : Int} (estimating : S.Estimating lo hi) (trusted : Trusted S lo hi r)
    (le_m : lo ≤ m) (m_le : m ≤ hi) (steady : ticks S tao now = m) :
    Settled S lo hi m (rttUpdate S tao now r) ∨
      settling S hi m (rttUpdate S tao now r) < settling S hi m r := by
  have updated : Estimated S lo hi (rttUpdate S tao now r) :=
    trusted.update estimating (by omega) (by omega)
  have one := estimating.one_le
  have most := updated.settling_le (m := m)
  rcases trusted with none | estimated
  · obtain ⟨tSrtt, -⟩ := rttUpdate_first (S := S) tao now none
    have reached : srttGap S m (rttUpdate S tao now r) = 0 := by
      rw [srttGap, tSrtt, steady, Int.shiftLeft_eq, sub_self]
      rfl
    have gap : 0 < srttGap S m r := by
      have positive : 0 < m * 2 ^ S.srttBits := mul_pos (by omega) (by positivity)
      rw [srttGap, none]
      omega
    have unsettled : r.tSrtt >>> S.srttBits ≠ m := by
      rw [none, Int.zero_shiftRight]
      omega
    have before : settling S hi m r = srttGap S m r + hi * 2 ^ S.rttvarBits := if_neg unsettled
    exact .inr (by omega)
  · obtain ⟨tSrtt, tRttvar⟩ := estimated.next tao now estimating (by omega) (by omega)
    rw [steady] at tSrtt tRttvar
    by_cases smoothed : r.tSrtt >>> S.srttBits = m
    · rw [move_of_settled smoothed] at tSrtt
      rw [smoothed, sub_self, abs_zero] at tRttvar
      by_cases deviation : r.tRttvar >>> S.rttvarBits = 0
      · rw [move_of_settled deviation] at tRttvar
        exact .inl { updated with
          smoothed := tSrtt ▸ smoothed
          deviation := tRttvar ▸ deviation }
      · have part := estimated.deviation_inRange.1
        refine .inr ?_
        rw [settling, settling, tSrtt, if_pos smoothed, if_pos smoothed, tRttvar, move]
        omega
    · have nearer := move_nearer smoothed
      refine .inr (most.trans_lt ?_)
      rw [settling, if_neg smoothed, srttGap, srttGap, tSrtt]
      omega

theorem Settled.update {m : Int} (estimating : S.Estimating lo hi)
    (settled : Settled S lo hi m r) (le_m : lo ≤ m) (m_le : m ≤ hi)
    (steady : ticks S tao now = m) : Settled S lo hi m (rttUpdate S tao now r) := by
  obtain ⟨tSrtt, tRttvar⟩ := settled.toEstimated.next tao now estimating (by omega) (by omega)
  rw [steady, move_of_settled settled.smoothed] at tSrtt
  rw [steady, settled.smoothed, sub_self, abs_zero, move_of_settled settled.deviation] at tRttvar
  have updated : Estimated S lo hi (rttUpdate S tao now r) :=
    Trusted.update estimating (.inr settled.toEstimated) (by omega) (by omega)
  exact { updated with
    smoothed := tSrtt ▸ settled.smoothed
    deviation := tRttvar ▸ settled.deviation }

/-- Each update of a steady stretch counts, until there is nothing left to do. -/
theorem settles_steady {m : Int} (estimating : S.Estimating lo hi) (le_m : lo ≤ m) (m_le : m ≤ hi)
    (trusted : Trusted S lo hi r) (calls : List RttCall)
    (steady : ∀ call ∈ calls, call.Steady S m) :
    Settled S lo hi m (calls.foldl (RttCall.apply S) r) ∨
      Trusted S lo hi (calls.foldl (RttCall.apply S) r) ∧
        settling S hi m (calls.foldl (RttCall.apply S) r) + calls.countP RttCall.updates ≤
          settling S hi m r := by
  induction calls using List.reverseRecOn with
  | nil => exact .inr ⟨trusted, by simp⟩
  | append_singleton calls call ih =>
    rw [List.foldl_append, List.countP_append]
    have last : call.Steady S m := steady call (by simp)
    have earlier := ih fun c member => steady c (List.mem_append_left _ member)
    cases call with
    | backoff => exact last.elim
    | restart =>
      rcases earlier with settled | ⟨before, counted⟩
      · exact .inl { settled with }
      · have same : [RttCall.restart].countP RttCall.updates = 0 := rfl
        have measured : RttCall.restart.Within S lo hi := trivial
        rw [same, Nat.add_zero]
        exact .inr ⟨before.apply estimating measured, counted⟩
    | update tao now =>
      rcases earlier with settled | ⟨before, counted⟩
      · exact .inl (settled.update estimating le_m m_le last)
      · rcases before.settles estimating le_m m_le last with settled | nearer
        · exact .inl settled
        · have one : [RttCall.update tao now].countP RttCall.updates = 1 := rfl
          have measured : (RttCall.update tao now).Within S lo hi := by
            have same : ticks S tao now = m := last
            exact ⟨by omega, by omega⟩
          refine .inr ⟨before.apply estimating measured, ?_⟩
          rw [one]
          show settling S hi m (rttUpdate S tao now _) + _ ≤ _
          omega

/-! ### The timeout -/

/-- The timer is never set to less than the estimate, unless the ceiling cuts it. -/
theorem le_rttTimeout (one : 1 ≤ r.tBackoff) (nonneg : 0 ≤ r.tRtxcur) :
    min S.maxrto r.tRtxcur ≤ rttTimeout S r := by
  have factor : (1 : ℚ) ≤ r.tBackoff := by exact_mod_cast one
  have product : r.tRtxcur ≤ r.tRtxcur * r.tBackoff := le_mul_of_one_le_right nonneg factor
  have raised (x : ℚ) : x ≤ if x < 2 * S.tcpTick then 2 * S.tcpTick else x := by
    split_ifs with short
    · exact short.le
    · exact le_refl _
  have capped (x : ℚ) (above : r.tRtxcur ≤ x) :
      min S.maxrto r.tRtxcur ≤ if x > S.maxrto then S.maxrto else x := by
    split_ifs
    · exact min_le_left _ _
    · exact (min_le_right _ _).trans above
  refine (capped _ ?_).trans (raised _)
  dsimp only
  split_ifs with rfc2988 low low
  · have least : S.minrto ≤ S.minrto * r.tBackoff :=
      le_mul_of_one_le_right (nonneg.trans low.le) factor
    exact low.le.trans least
  · exact product
  · exact product.trans low.le
  · exact product

/-- As long as the round trips stay in a range, so does the timeout that is computed from them,
and the timer is not set to less. Once they take the same number of ticks for long enough,
the timeout is that number and at least 1 more, but less than `2 ^ rttvar_exp_` more, whatever was
measured and however often the timer backed off before. -/
theorem timeout_follows (S : Setup σ) (lo hi : Int) (estimating : S.Estimating lo hi)
    (start : RoundTrip) (calls : List RttCall) (within : ∀ call ∈ calls, call.Within S lo hi) :
    ((∃ call ∈ calls, call.updates = true) →
      InTime S lo hi (estimateAfter S start calls) ∧
        min S.maxrto ((lo + 1) * S.tcpTick) ≤ rttTimeout S (estimateAfter S start calls)) ∧
      ∀ (m : Int) (steady : List RttCall), lo ≤ m → m ≤ hi →
        (∀ call ∈ steady, call.Steady S m) →
        hi * (2 ^ S.srttBits + 2 ^ S.rttvarBits) ≤ steady.countP RttCall.updates →
        ((m : ℚ) + 1) * S.tcpTick ≤ (estimateAfter S start (calls ++ steady)).tRtxcur ∧
          (estimateAfter S start (calls ++ steady)).tRtxcur ≤
            ((m : ℚ) + 2 ^ S.rttvarExp - 1) * S.tcpTick := by
  have one := estimating.one_le
  refine ⟨fun measured => ?_, fun m steady le_m m_le same enough => ?_⟩
  · have inTime := estimateAfter_inTime estimating start calls within measured
    have positive : (0 : ℚ) ≤ (lo + 1) * S.tcpTick :=
      mul_nonneg (by exact_mod_cast (show 0 ≤ lo + 1 by omega)) estimating.tick.le
    have timer : min S.maxrto (estimateAfter S start calls).tRtxcur ≤
        rttTimeout S (estimateAfter S start calls) :=
      le_rttTimeout (one_le_estimateAfter start calls) (positive.trans inTime.1)
    exact ⟨inTime, (min_le_min_left _ inTime.1).trans timer⟩
  · have trusted := estimateAfter_trusted estimating start calls within
    have most := (trusted.settling_inRange estimating le_m m_le).2
    have joined : estimateAfter S start (calls ++ steady) =
        steady.foldl (RttCall.apply S) (estimateAfter S start calls) := by
      rw [estimateAfter, List.foldl_append]
      rfl
    rw [joined]
    have stretch := settles_steady estimating le_m m_le trusted steady same
    rcases stretch with settled | ⟨unsettled, counted⟩
    · exact settled.near estimating
    · -- the stretch is longer than what there was to settle
      have left := (unsettled.settling_inRange estimating le_m m_le).1
      omega

theorem dctcpSetup_estimating : dctcpSetup.Estimating 1 5 where
  tick := by decide +kernel
  srttInit := rfl
  rttvarBits := by decide
  bits := by decide
  exponent := by decide
  one_le := le_refl _
  short := by decide

/-- Round trips of one and of five milliseconds, and a long backing off after them. -/
def unsteadyCalls : List RttCall :=
  [.update (1 / 1000) 1, .restart, .update (5 / 1000) 1, .restart] ++ .replicate 5 .backoff

/-- Round trips of three milliseconds, each on a new ACK. -/
def steadyCalls : List RttCall :=
  (List.replicate 60 [.update (3 / 1000) 2, .restart]).flatten

/-- The timeout ends up at six ticks for round trips of three. -/
theorem timeout_follows_unsteady :
    (estimateAfter dctcpSetup (fresh dctcpSetup).toRoundTrip unsteadyCalls).tSrtt = 0 ∧
      (2 : ℚ) / 1000 ≤
        (estimateAfter dctcpSetup (fresh dctcpSetup).toRoundTrip unsteadyCalls).tRtxcur ∧
      (estimateAfter dctcpSetup (fresh dctcpSetup).toRoundTrip
        (unsteadyCalls ++ steadyCalls)).tRtxcur ≤ 6 / 1000 := by
  obtain ⟨inTime, settled⟩ := timeout_follows dctcpSetup 1 5 dctcpSetup_estimating
    (fresh dctcpSetup).toRoundTrip unsteadyCalls (by decide +kernel)
  have low := (inTime (by decide)).1.1
  have high := (settled 3 steadyCalls (by decide) (by decide) (by decide +kernel)
    (by decide +kernel)).2
  have tick : dctcpSetup.tcpTick = 1 / 1000 := rfl
  have exponent : dctcpSetup.rttvarExp = 2 := rfl
  rw [tick] at low high
  rw [exponent] at high
  push_cast at low high
  exact ⟨by decide +kernel, by linarith, by linarith⟩

end Saps.Tcp
