import Saps.Script.FlowAverages
import Saps.Script.FlowTotals

/-!
# Where the statistics divide

`END` divides by four counts of the poor path behind the test of a fifth. It ends exactly
when the log has no flow on the poor path or has all of the kinds that these four count.
-/
namespace Saps.Script.FlowStatistics

open Tally FlowRecord

/-- A program that goes on with a quotient ends if the divisor counts and the rest ends. -/
theorem bind_divide_ok_iff {α : Type} {x : ℚ} {n : Nat} {rest : ℚ → Except Fault α} :
    (∃ result, divide x n >>= rest = .ok result) ↔
      0 < n ∧ ∃ result, rest (x / n) = .ok result := by
  constructor
  · rintro ⟨result, computed⟩
    rcases Nat.eq_zero_or_pos n with rfl | counted
    · rw [Nat.cast_zero, divide_zero] at computed
      cases computed
    · rw [divide_count_ok counted] at computed
      exact ⟨counted, result, computed⟩
  · rintro ⟨counted, result, computed⟩
    rw [divide_count_ok counted]
    exact ⟨result, computed⟩

/-- The four divisors of the poor path are positive where its flows are. -/
theorem Totals.poorPathAverages_ok_iff (t : Totals) :
    (∃ averages, t.poorPathAverages = .ok averages) ↔
      (0 < t.poorPath.flowsOnPoorPath → 0 < t.poorPath.sumLongOnPoorPath ∧
        0 < t.poorPath.sumMiceOnPoorPath ∧ 0 < t.sprayed.flowsMiceSprayed ∧
        0 < t.poorPath.flowsMiceHashed) := by
  unfold poorPathAverages
  split
  next counted =>
    simp only [bind_divide_ok_iff, counted, true_and, forall_const]
    have ends (averages : PoorPathAverages) :
        ∃ result, (pure averages : Except Fault PoorPathAverages) = .ok result := ⟨averages, rfl⟩
    simp only [ends, and_true]
  next none =>
    exact ⟨fun _ counted => absurd counted none, fun _ => ⟨_, rfl⟩⟩

/-! ### Which logs -/

/-- If the log has a flow on the poor path, it has a long one and a mouse there, and a mouse
that was sprayed instead. -/
def PoorPathCovered (log : List FlowRecord) : Prop :=
  (∃ r ∈ log, r.onPoorPath) →
    (∃ r ∈ log, r.onPoorPath ∧ r.tinyMice ≠ 1 ∧ r.isElephant = 1) ∧
    (∃ r ∈ log, r.onPoorPath ∧ r.tinyMice = 1) ∧
    ∃ r ∈ log, r.sprayed ∧ r.tinyMice = 1

theorem poorPathAverages_of_ok_iff (log : List FlowRecord) :
    (∃ averages, (Totals.of log).poorPathAverages = .ok averages) ↔ PoorPathCovered log := by
  rw [Totals.poorPathAverages_ok_iff]
  simp only [Totals.of, PoorPath.of, Sprayed.of, count_pos_iff, PoorPathCovered, tiny,
    Bool.and_eq_true, Bool.not_eq_true', decide_eq_true_eq, decide_eq_false_iff_not, ne_eq]
  constructor
  · intro covered onPoorPath
    obtain ⟨long, mice, sprayed, _⟩ := covered onPoorPath
    exact ⟨long, mice, sprayed⟩
  · intro covered onPoorPath
    obtain ⟨long, mice, sprayed⟩ := covered onPoorPath
    exact ⟨long, mice, sprayed, mice⟩

/-- The program prints its line for a log of flows that took some time exactly when the flows
of the log cover the divisors of the poor path. -/
theorem awkResponse_ok_iff (log : List FlowRecord) (durations : ∀ r ∈ log, 0 < r.duration) :
    (∃ summary, awkResponse log = .ok summary) ↔ PoorPathCovered log := by
  have divisible : ∀ r ∈ log, r.Divisible := fun r member _ => (durations r member).ne'
  have processed : process log = .ok (.of log) := process_ok_iff.mpr ⟨divisible, rfl⟩
  have ended : awkResponse log = endBlock (.of log) := by
    rw [awkResponse, processed]
    rfl
  rw [ended, endBlock_ok_iff, poorPathAverages_of_ok_iff]

/-- A flow from the failed leaf, selectively sprayed. -/
def failedLeafFlow (isElephant tinyMice poorPathFlow : Int) : FlowRecord where
  duration := 2
  dataBytes := 3000
  rexmitBytes := 0
  throughput := 1500
  cwndCuts1 := 0
  rexmit := 0
  isElephant
  rexmitPkts := 0
  fromFailedLeaf := 1
  necnResponses := 0
  selectiveSpraying := 1
  poorPathFlow
  flowEndState := 2
  tinyMice
  toFailedLeaf := 0
  northSouthFlow := 0
  originallyHashed := 0
  intraRackFlow := 0
  size := 3000

theorem awkResponse_ok_iff_covered :
    ∃ summary, awkResponse
      [failedLeafFlow 1 0 1, failedLeafFlow 0 1 1, failedLeafFlow 0 1 0] = .ok summary := by
  refine (awkResponse_ok_iff _ (by decide +kernel)).mpr fun _ => ⟨?_, ?_, ?_⟩
  · exact ⟨failedLeafFlow 1 0 1, by decide +kernel⟩
  · exact ⟨failedLeafFlow 0 1 1, by decide +kernel⟩
  · exact ⟨failedLeafFlow 0 1 0, by decide +kernel⟩

/-- The values that `done` writes: flags, and one of the five states. -/
def Written (r : FlowRecord) : Prop :=
  0 < r.duration ∧ (0 ≤ r.flowEndState ∧ r.flowEndState ≤ 4) ∧
    ∀ flag ∈ [r.isElephant, r.tinyMice, r.fromFailedLeaf, r.toFailedLeaf, r.selectiveSpraying,
      r.poorPathFlow, r.northSouthFlow, r.intraRackFlow], flag = 0 ∨ flag = 1

instance (r : FlowRecord) : Decidable (Written r) := inferInstanceAs (Decidable (_ ∧ _))

/-- One mouse on the poor path: the log has no long flow there to divide by. -/
theorem poorPathMouse_fault :
    (∀ r ∈ [failedLeafFlow 0 1 1], Written r) ∧
      awkResponse [failedLeafFlow 0 1 1] = .error .divisionByZero := by
  decide +kernel

end Saps.Script.FlowStatistics
