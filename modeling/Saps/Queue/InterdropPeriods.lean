import Saps.Library.UniformGaps
import Saps.Queue.EarlyDrops

/-!
# Interdrop periods

At a steady average the early drops of RED are uniformly distributed, instead of
geometrically as they would be with a constant probability.
-/
namespace Saps.Queue.REDQueue

open UniformGaps

/-- The probability of `modify_p` for the packet that comes as number `n` after the last one that
was dropped or marked. -/
def chance (p : ℚ) (wait : Bool) (meanPktsize size : Int) (n : Nat) : ℚ :=
  modifyP p n 0 false meanPktsize wait size

/-- It is what `drop_early()` acts with, `n` being the count. -/
theorem modifiedP_eq_chance {Q : Type} {s : REDQueue Q} (bytes : s.edp.bytes = false)
    (nonneg : 0 ≤ s.edv.count) (pkt : Packet) :
    modifiedP pkt s =
      chance (earlyP s) s.edp.wait s.edp.meanPktsize pkt.size s.edv.count.toNat := by
  obtain ⟨n, count⟩ := Int.eq_ofNat_of_zero_le nonneg
  simp [modifiedP, chance, modifyP, bytes, count]

variable {p : ℚ} {n : Nat} (meanPktsize size : Int)

/-- What the cap at 1 makes of `p / (c - n p)`. -/
theorem capped {c : ℚ} (early : n * p < c) :
    (((n : ℚ) + 1) * p ≤ c → p / (c - n * p) ≤ 1) ∧
      (c < ((n : ℚ) + 1) * p → 1 < p / (c - n * p)) := by
  have left : 0 < c - n * p := sub_pos.mpr early
  constructor
  · intro room
    exact (div_le_one left).mpr (by linarith)
  · intro past
    exact (one_lt_div left).mpr (by linarith)

theorem chance_wait_harmonic (positive : 0 < p) (le_one : p ≤ 1) :
    Harmonic (chance p true meanPktsize size) p 2 ⌈1 / p⌉₊ := by
  have due : 1 ≤ (⌈1 / p⌉₊ : ℚ) * p := (div_le_iff₀ positive).mp (Nat.le_ceil (1 / p))
  have before : ∀ n : Nat, n < ⌈1 / p⌉₊ → (n : ℚ) * p < 1 := fun n less =>
    (lt_div_iff₀ positive).mp (Nat.lt_ceil.mp less)
  have behind : ∀ n : Nat, ⌈1 / p⌉₊ ≤ n → 1 ≤ (n : ℚ) * p := fun n le =>
    due.trans (mul_le_mul_of_nonneg_right (by exact_mod_cast le) positive.le)
  have one_le : 1 ≤ ⌈1 / p⌉₊ := Nat.one_le_ceil_iff.mpr (by positivity)
  refine ⟨positive, one_le, ?_, ?_, ?_, ?_⟩
  · have last := before (⌈1 / p⌉₊ - 1) (by omega)
    rw [Nat.cast_sub one_le, Nat.cast_one] at last
    linarith
  · intro n _ less
    have early := before n less
    simp [chance, modifyP, early]
  · intro n le room
    have early : (n : ℚ) * p < 2 := by linarith
    have small := (capped early).1 room
    simp [chance, modifyP, (behind n le).not_gt, early, small.not_gt]
  · intro n le past
    rcases lt_or_ge ((n : ℚ) * p) 2 with early | late
    · have large := (capped early).2 past
      simp [chance, modifyP, (behind n le).not_gt, early, large]
    · simp [chance, modifyP, (behind n le).not_gt, late.not_gt]

theorem chance_harmonic (positive : 0 < p) (lt_one : p < 1) :
    Harmonic (chance p false meanPktsize size) p 1 1 := by
  refine ⟨positive, le_refl 1, by simpa using lt_one, ?_, ?_, ?_⟩
  · intro n one_le less
    omega
  · intro n _ room
    have early : (n : ℚ) * p < 1 := by linarith
    have small := (capped early).1 room
    simp [chance, modifyP, early, small.not_gt]
  · intro n _ past
    rcases lt_or_ge ((n : ℚ) * p) 1 with early | late
    · have large := (capped early).2 past
      simp [chance, modifyP, early, large]
    · simp [chance, modifyP, late.not_gt]

/-- At a steady probability the next drop or mark is equally likely to hit every packet from number
`1 / p` to number `2 / p`, or from the first to number `1 / p` without the wait, and it comes by
then. -/
theorem interdrop_uniform (positive : 0 < p) (le_one : p ≤ 1) :
    Uniform (chance p true meanPktsize size) p 2 ⌈1 / p⌉₊ ∧
      (p < 1 → Uniform (chance p false meanPktsize size) p 1 1) :=
  ⟨(chance_wait_harmonic meanPktsize size positive le_one).uniform,
    fun lt_one => (chance_harmonic meanPktsize size positive lt_one).uniform⟩

/-- With a probability of one in four, each of the packets 4 to 7 is hit with one in four. -/
theorem interdrop_uniform_quarter :
    ((List.range 9).map (gap (chance (1 / 4) true 1000 1500)) =
        [0, 0, 0, 0, 1 / 4, 1 / 4, 1 / 4, 1 / 4, 0]) ∧
      Uniform (chance (1 / 4) true 1000 1500) (1 / 4) 2 ⌈(1 : ℚ) / (1 / 4)⌉₊ ∧
      ((1 / 4 : ℚ) < 1 → Uniform (chance (1 / 4) false 1000 1500) (1 / 4) 1 1) :=
  ⟨by decide +kernel, interdrop_uniform 1000 1500 (by norm_num) (by norm_num)⟩

end Saps.Queue.REDQueue
