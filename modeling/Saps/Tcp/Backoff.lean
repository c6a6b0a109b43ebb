import Mathlib.Algebra.Order.Field.Basic
import Mathlib.Algebra.Order.Ring.Rat
import Mathlib.Data.List.Induction
import Mathlib.Tactic.Linarith
import Mathlib.Tactic.SplitIfs
import Saps.Tcp.SegmentBoard

/-!
# How far the timer backs off

With RFC 2988 the factor keeps doubling past 64 only while the timeout is below its
ceiling. The timeout is at least `minrto_` times the factor unless the ceiling cuts it,
so the factor stays within a bound too, however the estimate moves in between.
-/
namespace Saps.Tcp

variable {σ : Type} (S : Setup σ)

/-- What happens to the timer between two timeouts. -/
inductive TimerMove where
  /-- `rtt_update()`, after which `t_rtxcur_` may be anything. -/
  | update (tao now rtxcur : ℚ)
  /-- `rtt_backoff()`. -/
  | backoff
  /-- `t_backoff_ = 1`. -/
  | reset

def TimerMove.apply (r : RoundTrip) : TimerMove → RoundTrip
  | .update tao now rtxcur => { rttUpdate S tao now r with tRtxcur := rtxcur }
  | .backoff => rttBackoff S r
  | .reset => { r with tBackoff := 1 }

/-- The timer after some moves from `rtt_init()`. -/
def timerAfter (start : RoundTrip) (moves : List TimerMove) : RoundTrip :=
  moves.foldl (TimerMove.apply S) (rttInit S start)

/-- The bound that the ceiling puts on the factor. -/
def backoffBound : ℚ := max 64 (2 * S.maxrto / S.minrto)

/-- A power of two within the bound. -/
structure BackedOff (r : RoundTrip) : Prop where
  power : ∃ e : Nat, r.tBackoff = 2 ^ e
  bound : (r.tBackoff : ℚ) ≤ backoffBound S

variable {S} {r : RoundTrip}

/-- With RFC 2988 the product is cut to the ceiling first and then raised to the floor. -/
theorem rttTimeout_eq (rfc2988 : S.rfc2988 = true) : rttTimeout S r =
    max (2 * S.tcpTick) (min S.maxrto (max S.minrto r.tRtxcur * r.tBackoff)) := by
  have product : (if r.tRtxcur < S.minrto then S.minrto * r.tBackoff else r.tRtxcur * r.tBackoff) =
      max S.minrto r.tRtxcur * r.tBackoff := by
    split_ifs with low
    · rw [max_eq_left low.le]
    · rw [max_eq_right (not_lt.mp low)]
  have capped (x : ℚ) : (if x > S.maxrto then S.maxrto else x) = min S.maxrto x := by
    split_ifs with above
    · exact (min_eq_left above.le).symm
    · exact (min_eq_right (not_lt.mp above)).symm
  simp only [rttTimeout, if_pos rfc2988, product, capped]
  split_ifs with short
  · exact (max_eq_left short.le).symm
  · exact (max_eq_right (not_lt.mp short)).symm

theorem rttTimeout_range (rfc2988 : S.rfc2988 = true) (room : 2 * S.tcpTick ≤ S.maxrto) :
    2 * S.tcpTick ≤ rttTimeout S r ∧ rttTimeout S r ≤ S.maxrto := by
  rw [rttTimeout_eq rfc2988]
  exact ⟨le_max_left _ _, max_le room (min_le_left _ _)⟩

/-- Below the ceiling the factor is too small for `minrto_` to get there. -/
theorem minrto_mul_lt (rfc2988 : S.rfc2988 = true) (factor : 0 ≤ r.tBackoff)
    (below : rttTimeout S r < S.maxrto) : S.minrto * r.tBackoff < S.maxrto := by
  have nonneg : (0 : ℚ) ≤ r.tBackoff := by exact_mod_cast factor
  rw [rttTimeout_eq rfc2988, max_lt_iff, min_lt_iff] at below
  calc S.minrto * r.tBackoff
      ≤ max S.minrto r.tRtxcur * r.tBackoff :=
        mul_le_mul_of_nonneg_right (le_max_left _ _) nonneg
    _ < S.maxrto := below.2.resolve_left (lt_irrefl _)

theorem rttBackoff_tBackoff : (rttBackoff S r).tBackoff =
    if r.tBackoff < 64 ∨ (S.rfc2988 = true ∧ rttTimeout S r < S.maxrto) then 2 * r.tBackoff
    else r.tBackoff := by
  have shifted : r.tBackoff <<< (1 : Nat) = 2 * r.tBackoff := by
    rw [Int.shiftLeft_eq, Int.mul_comm]
    rfl
  simp only [rttBackoff, shifted]
  -- moving the estimate into the deviation does not touch the factor
  split_ifs <;> rfl

/-! ### The factor -/

namespace BackedOff

theorem one_le (backedOff : BackedOff S r) : 1 ≤ r.tBackoff := by
  obtain ⟨e, power⟩ := backedOff.power
  rw [power]
  exact one_le_pow₀ (by decide)

theorem first (one : r.tBackoff = 1) : BackedOff S r where
  power := ⟨0, one⟩
  bound := by
    refine le_trans ?_ (le_max_left _ _)
    rw [one]
    norm_num

theorem backoff (backedOff : BackedOff S r) (rfc2988 : S.rfc2988 = true)
    (positive : 0 < S.minrto) : BackedOff S (rttBackoff S r) := by
  have one := backedOff.one_le
  obtain ⟨e, power⟩ := backedOff.power
  by_cases doubles : r.tBackoff < 64 ∨ (S.rfc2988 = true ∧ rttTimeout S r < S.maxrto)
  · have double : (rttBackoff S r).tBackoff = 2 * r.tBackoff := by
      rw [rttBackoff_tBackoff, if_pos doubles]
    refine ⟨⟨e + 1, by rw [double, power, pow_succ, mul_comm]⟩, ?_⟩
    rw [double]
    rcases doubles with small | ⟨-, below⟩
    · -- a power of two below 64 is at most 32
      refine le_trans ?_ (le_max_left _ _)
      have exponent : e < 6 := by
        by_contra large
        have most : (2 : Int) ^ 6 ≤ 2 ^ e := pow_le_pow_right₀ (by decide) (by omega)
        omega
      have least : (2 : Int) ^ e ≤ 2 ^ 5 := pow_le_pow_right₀ (by decide) (by omega)
      exact_mod_cast (show 2 * r.tBackoff ≤ 64 by omega)
    · refine le_trans ?_ (le_max_right _ _)
      have product := minrto_mul_lt rfc2988 (by omega) below
      rw [le_div_iff₀ positive]
      push_cast
      linarith
  · have same : (rttBackoff S r).tBackoff = r.tBackoff := by
      rw [rttBackoff_tBackoff, if_neg doubles]
    exact ⟨⟨e, same.trans power⟩, by rw [same]; exact backedOff.bound⟩

theorem apply (backedOff : BackedOff S r) (rfc2988 : S.rfc2988 = true) (positive : 0 < S.minrto)
    (move : TimerMove) : BackedOff S (move.apply S r) := by
  cases move with
  | update tao now rtxcur => exact ⟨backedOff.power, backedOff.bound⟩
  | backoff => exact backedOff.backoff rfc2988 positive
  | reset => exact first rfl

theorem timerAfter (rfc2988 : S.rfc2988 = true) (positive : 0 < S.minrto) (start : RoundTrip)
    (moves : List TimerMove) : BackedOff S (timerAfter S start moves) := by
  induction moves using List.reverseRecOn with
  | nil => exact first rfl
  | append_singleton moves move ih =>
    rw [Tcp.timerAfter, List.foldl_append]
    exact ih.apply rfc2988 positive move

end BackedOff

/-- Whatever happens to the timer, its factor is a power of two that never overflows, and the
timeout keeps within its floor and its ceiling. -/
theorem backoff_bounded (S : Setup σ) (rfc2988 : S.rfc2988 = true) (positive : 0 < S.minrto)
    (room : 2 * S.tcpTick ≤ S.maxrto) (fits : 2 * S.maxrto / S.minrto < 2 ^ 31) (start : RoundTrip)
    (moves : List TimerMove) :
    (∃ e : Nat, (timerAfter S start moves).tBackoff = 2 ^ e) ∧
      1 ≤ (timerAfter S start moves).tBackoff ∧
      ((timerAfter S start moves).tBackoff : ℚ) ≤ max 64 (2 * S.maxrto / S.minrto) ∧
      (timerAfter S start moves).tBackoff < 2 ^ 31 ∧
      2 * S.tcpTick ≤ rttTimeout S (timerAfter S start moves) ∧
      rttTimeout S (timerAfter S start moves) ≤ S.maxrto := by
  have backedOff := BackedOff.timerAfter rfc2988 positive start moves
  refine ⟨backedOff.power, backedOff.one_le, backedOff.bound, ?_, rttTimeout_range rfc2988 room⟩
  have below : ((timerAfter S start moves).tBackoff : ℚ) < 2 ^ 31 :=
    backedOff.bound.trans_lt (max_lt (by norm_num) fits)
  exact_mod_cast below

/-- With the library's defaults the ceiling of 60 seconds stops the factor at 8192. -/
theorem backoff_bounded_defaults :
    (timerAfter dctcpSetup (fresh dctcpSetup).toRoundTrip (.replicate 14 .backoff)).tBackoff = 8192 ∧
      rttTimeout dctcpSetup (timerAfter dctcpSetup (fresh dctcpSetup).toRoundTrip
        (.replicate 14 .backoff)) ≤ 60 := by
  obtain ⟨-, -, -, -, -, ceiling⟩ := backoff_bounded dctcpSetup rfl (by decide +kernel)
    (by decide +kernel) (by decide +kernel) (fresh dctcpSetup).toRoundTrip (.replicate 14 .backoff)
  exact ⟨by decide +kernel, ceiling⟩

end Saps.Tcp
