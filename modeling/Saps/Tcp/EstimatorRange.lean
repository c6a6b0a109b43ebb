import Mathlib.Data.Rat.Floor
import Mathlib.Tactic.Linarith
import Saps.Tcp.Refinement
import Saps.Tcp.SegmentBoard

/-!
# The DCTCP estimate stays a fraction

Over any run of the sender the marked packets are among the counted ones, the
estimate stays between 0 and 1, and a DCTCP cut leaves between half the window
and the whole of it.
-/
namespace Saps.Tcp

/-! ### Casting a window to `int` -/

theorem toInt_eq_floor {q : ℚ} (nonneg : 0 ≤ q) : toInt q = ⌊q⌋ := by
  have num_nonneg : 0 ≤ q.num := Rat.num_nonneg.mpr nonneg
  rw [Rat.floor_def', toInt, Int.tdiv_eq_ediv_of_nonneg num_nonneg]

theorem toInt_le {q : ℚ} (nonneg : 0 ≤ q) : (toInt q : ℚ) ≤ q := by
  rw [toInt_eq_floor nonneg]
  exact Int.floor_le q

/-! ### One update, one cut -/

/-- Moving a weight `g` of the way from one fraction to another stays a fraction. -/
theorem ewma_fraction {g alpha f : ℚ} (g_nonneg : 0 ≤ g) (g_le : g ≤ 1)
    (alpha_nonneg : 0 ≤ alpha) (alpha_le : alpha ≤ 1) (f_nonneg : 0 ≤ f) (f_le : f ≤ 1) :
    0 ≤ (1 - g) * alpha + g * f ∧ (1 - g) * alpha + g * f ≤ 1 := by
  have rest_nonneg : 0 ≤ 1 - g := by linarith
  constructor
  · exact add_nonneg (mul_nonneg rest_nonneg alpha_nonneg) (mul_nonneg g_nonneg f_nonneg)
  · have old : (1 - g) * alpha ≤ (1 - g) * 1 := mul_le_mul_of_nonneg_left alpha_le rest_nonneg
    have new : g * f ≤ g * 1 := mul_le_mul_of_nonneg_left f_le g_nonneg
    linarith

/-- The bounds of a DCTCP cut that found the window at `win`. -/
structure CutInRange (win cwnd : ℚ) (ssthresh : Int) : Prop where
  cwnd_ge : max 1 (win / 2) ≤ cwnd
  cwnd_le : cwnd ≤ max 1 win
  ssthresh_ge : 2 ≤ ssthresh
  ssthresh_le : (ssthresh : ℚ) ≤ max 2 win

theorem DctcpCut.inRange {alpha win cwnd : ℚ} {ssthresh : Int}
    (cut : DctcpCut alpha win cwnd ssthresh) (alpha_nonneg : 0 ≤ alpha) (alpha_le : alpha ≤ 1)
    (win_nonneg : 0 ≤ win) : CutInRange win cwnd ssthresh := by
  have half_le : win / 2 ≤ (1 - alpha / 2) * win := by
    have := mul_nonneg (sub_nonneg.mpr alpha_le) win_nonneg
    linarith
  have le_whole : (1 - alpha / 2) * win ≤ win := by
    have := mul_nonneg alpha_nonneg win_nonneg
    linarith
  have kept_nonneg : 0 ≤ (1 - alpha / 2) * win := by linarith
  have cast_le := toInt_le kept_nonneg
  rw [cut.cwnd_eq, cut.ssthresh_eq]
  refine ⟨?_, ?_, ?_, ?_⟩
  · split
    next small => exact max_le le_rfl (by linarith)
    next large => exact max_le (by linarith) half_le
  · split
    · exact le_max_left 1 win
    · exact le_whole.trans (le_max_right 1 win)
  · split <;> omega
  · split
    · exact le_max_left 2 win
    · exact (cast_le.trans le_whole).trans (le_max_right 2 win)

/-! ### The invariant -/

/-- What an entry of the history has to show. -/
def Entry.InRange : Entry → Prop
  | .alphaUpdate _ marked total alpha =>
    1 ≤ total ∧ 0 ≤ marked ∧ marked ≤ total ∧ 0 ≤ alpha ∧ alpha ≤ 1
  | .slowedDown how win cwnd ssthresh =>
    how = .dctcp → 0 ≤ win → CutInRange win cwnd ssthresh
  | _ => True

structure Ledger.InRange (l : Ledger) : Prop where
  marked_nonneg : 0 ≤ l.dctcpMarked
  marked_le : l.dctcpMarked ≤ l.dctcpTotal
  alpha_nonneg : 0 ≤ l.dctcpAlpha
  alpha_le : l.dctcpAlpha ≤ 1
  entries : ∀ e ∈ l.entries, e.InRange

namespace Ledger.InRange

variable {l : Ledger} {g : ℚ}

theorem record (sound : l.InRange) {e : Entry} (inRange : e.InRange) : (l.record e).InRange where
  marked_nonneg := sound.marked_nonneg
  marked_le := sound.marked_le
  alpha_nonneg := sound.alpha_nonneg
  alpha_le := sound.alpha_le
  entries := by
    intro x member
    rcases List.mem_append.mp member with old | new
    · exact sound.entries x old
    · rw [List.mem_singleton.mp new]
      exact inRange

theorem counted (sound : l.InRange) {seqno acked : Int} {ecnbit : Bool} (pos : 1 ≤ acked) :
    (l.counted seqno acked ecnbit).InRange where
  marked_nonneg := by
    have := sound.marked_nonneg
    simp only [Ledger.counted]
    split <;> omega
  marked_le := by
    have := sound.marked_le
    simp only [Ledger.counted]
    split <;> omega
  alpha_nonneg := sound.alpha_nonneg
  alpha_le := sound.alpha_le
  entries := (sound.record (e := .counted seqno acked ecnbit) trivial).entries

theorem markedFraction (sound : l.InRange) (counted : 0 < l.dctcpTotal) :
    0 ≤ l.markedFraction ∧ l.markedFraction ≤ 1 := by
  have total_pos : (0 : ℚ) < l.dctcpTotal := by exact_mod_cast counted
  have marked_nonneg : (0 : ℚ) ≤ l.dctcpMarked := by exact_mod_cast sound.marked_nonneg
  have marked_le : (l.dctcpMarked : ℚ) ≤ l.dctcpTotal := by exact_mod_cast sound.marked_le
  rw [Ledger.markedFraction, if_pos counted]
  exact ⟨div_nonneg marked_nonneg total_pos.le, (div_le_one total_pos).mpr marked_le⟩

theorem alphaUpdate (sound : l.InRange) (g_nonneg : 0 ≤ g) (g_le : g ≤ 1)
    (counted : 0 < l.dctcpTotal) (seqno : Int) : (l.alphaUpdate g seqno).InRange := by
  have fraction := sound.markedFraction counted
  have moved := ewma_fraction g_nonneg g_le sound.alpha_nonneg sound.alpha_le fraction.1 fraction.2
  exact {
    marked_nonneg := le_rfl
    marked_le := le_rfl
    alpha_nonneg := moved.1
    alpha_le := moved.2
    entries := (sound.record
      (e := .alphaUpdate seqno l.dctcpMarked l.dctcpTotal (l.newAlpha g))
      ⟨counted, sound.marked_nonneg, sound.marked_le, moved.1, moved.2⟩).entries }

end Ledger.InRange

theorem QuietAct.inRange {dctcp : Bool} {l m : Ledger} (sound : l.InRange)
    (act : QuietAct dctcp l m) : m.InRange := by
  have unchanged {e : Entry} (inRange : e.InRange) := (sound.record inRange).entries
  have marked_nonneg := sound.marked_nonneg
  have marked_le := sound.marked_le
  have alpha_nonneg := sound.alpha_nonneg
  have alpha_le := sound.alpha_le
  cases act with
  | slowedDown how win cwnd ssthresh cut =>
    apply sound.record
    intro isDctcp win_nonneg
    exact (cut isDctcp).inRange alpha_nonneg alpha_le win_nonneg
  | dupack | enterRecovery =>
    exact ⟨marked_nonneg, marked_le, alpha_nonneg, alpha_le, sound.entries⟩
  | sent | ecnReaction | recoveryExit | spuriousTimeout | rto =>
    exact ⟨marked_nonneg, marked_le, alpha_nonneg, alpha_le, unchanged trivial⟩

theorem Act.inRange {dctcp : Bool} {g : ℚ} (g_nonneg : 0 ≤ g) (g_le : g ≤ 1) {l m : Ledger}
    (sound : l.InRange) (act : Act dctcp g l m) : m.InRange := by
  cases act with
  | quiet act => exact act.inRange sound
  | counted seqno acked ecnbit pos => exact sound.counted pos
  | alphaUpdate seqno acked ecnbit pos =>
    -- the ACK itself was just counted, so the division has something to divide by
    have total_pos : 0 < (l.counted seqno acked ecnbit).dctcpTotal := by
      have := sound.marked_nonneg
      have := sound.marked_le
      show 0 < l.dctcpTotal + acked
      omega
    exact (sound.counted pos).alphaUpdate g_nonneg g_le total_pos seqno

/-! ### Runs -/

variable {σ : Type}

/-- Over any run of ACKs, sends and timeouts the counters and the estimate stay in range. A new
estimate is computed from one packet at least, and a cut by it leaves between half of the window
and all of it, but never less than a packet. -/
theorem estimator_staysInRange (S : Setup σ) (start : Agent σ) (inputs : Nat → Input) (k : Nat)
    (a : Agent σ) (g_nonneg : 0 ≤ S.dctcpG) (g_le : S.dctcpG ≤ 1)
    (alpha_nonneg : 0 ≤ start.dctcpAlpha) (alpha_le : start.dctcpAlpha ≤ 1)
    (unmarked : start.dctcpMarked = 0) (uncounted : start.dctcpTotal = 0)
    (new : start.entries = []) (reached : agentAt S start inputs k = .ok a) :
    (0 ≤ a.dctcpMarked ∧ a.dctcpMarked ≤ a.dctcpTotal) ∧
      (0 ≤ a.dctcpAlpha ∧ a.dctcpAlpha ≤ 1) ∧
      (∀ (seqno marked total : Int) (alpha : ℚ), .alphaUpdate seqno marked total alpha ∈ a.entries →
        1 ≤ total) ∧
      (∀ (win cwnd : ℚ) (ssthresh : Int), .slowedDown .dctcp win cwnd ssthresh ∈ a.entries → 0 ≤ win →
        (max 1 (win / 2) ≤ cwnd ∧ cwnd ≤ max 1 win) ∧
          2 ≤ ssthresh ∧ (ssthresh : ℚ) ≤ max 2 win) := by
  have initial : start.toLedger.InRange := {
    marked_nonneg := by omega
    marked_le := by omega
    alpha_nonneg
    alpha_le
    entries := by simp [new] }
  have sound : a.toLedger.InRange :=
    agentAt_invariant initial (fun _ _ before act => act.inRange g_nonneg g_le before) reached
  refine ⟨⟨sound.marked_nonneg, sound.marked_le⟩, ⟨sound.alpha_nonneg, sound.alpha_le⟩, ?_, ?_⟩
  · intro seqno marked total alpha member
    exact (sound.entries _ member).1
  · intro win cwnd ssthresh member win_nonneg
    have cut : CutInRange win cwnd ssthresh := sound.entries _ member rfl win_nonneg
    exact ⟨⟨cut.cwnd_ge, cut.cwnd_le⟩, cut.ssthresh_ge, cut.ssthresh_le⟩

/-- The ACK of packet 3 carries ECN-Echo and finds a window of four packets. -/
def oneMarkedAck : List Stimulus :=
  [.advanceby 100, ackFor 0, ackFor 1, ackFor 2, ackWithEcho 3]

theorem estimator_staysInRange_oneMarkedAck : ∃ a, afterScript oneMarkedAck = .ok a ∧
    (a.dctcpAlpha = 1 / 32 ∧ .slowedDown .dctcp 4 (63 / 16) 3 ∈ a.entries) ∧
    (0 ≤ a.dctcpAlpha ∧ a.dctcpAlpha ≤ 1) ∧
    (max 1 (4 / 2) ≤ (63 / 16 : ℚ) ∧ (63 / 16 : ℚ) ≤ max 1 4) := by
  obtain ⟨a, reached, found⟩ := DrivenRun.exists_of_any (x := afterScript oneMarkedAck)
    (p := fun a => decide (a.dctcpAlpha = 1 / 32) &&
      decide (.slowedDown .dctcp 4 (63 / 16) 3 ∈ a.entries))
    (by decide +kernel)
  have ends : a.dctcpAlpha = 1 / 32 ∧ .slowedDown .dctcp 4 (63 / 16) 3 ∈ a.entries := by
    simpa only [Bool.and_eq_true, decide_eq_true_eq] using found
  have sound := estimator_staysInRange dctcpSetup (fresh dctcpSetup) (scripted oneMarkedAck) 5 a
    (by decide +kernel) (by decide +kernel) (by decide +kernel) (by decide +kernel) rfl rfl rfl
    reached
  exact ⟨a, reached, ends, sound.2.1, (sound.2.2.2 4 (63 / 16) 3 ends.2 (by decide +kernel)).1⟩

end Saps.Tcp
