import Saps.Script.FlowStatistics

/-!
# The guarded averages

Every part of `END` but the one of the poor path takes its divisors behind a test of the
divisor itself. These parts end for any accumulators.
-/
namespace Saps.Script.FlowStatistics

theorem ByState.means_ok (sum : ByState ℚ) (count : ByState Nat) :
    ∃ means, ByState.means sum count = .ok means := by
  simp only [ByState.means, mean_ok]
  exact ⟨_, rfl⟩

theorem Overall.averages_ok (t : Overall) :
    ∃ averages, t.averages = .ok averages ∧ averages.av = t.sum / t.nl := by
  unfold averages
  split
  next none =>
    exact ⟨_, rfl, by simp [none]⟩
  next some =>
    have counted : 0 < t.nl := Nat.pos_of_ne_zero some
    simp only [divide_count_ok counted]
    exact ⟨_, rfl, rfl⟩

theorem NorthSouth.averages_ok (t : NorthSouth) : ∃ averages, t.averages = .ok averages := by
  unfold averages
  split
  next counted =>
    simp only [divide_count_ok counted]
    exact ⟨_, rfl⟩
  next => exact ⟨_, rfl⟩

theorem Mice.averages_ok (t : Mice) : ∃ averages, t.averages = .ok averages ∧
    averages.afctMice = t.sumFctMice.total / t.countMice.total := by
  unfold averages
  split
  next counted =>
    obtain ⟨means, computed⟩ := ByState.means_ok t.sumFctMice t.countMice
    simp only [divide_count_ok counted, computed]
    exact ⟨_, rfl, rfl⟩
  next none =>
    exact ⟨_, rfl, by simp [Nat.eq_zero_of_not_pos none]⟩

theorem Medium.averages_ok (t : Medium) : ∃ averages, t.averages = .ok averages ∧
    averages.avMedium = t.sumMedium / t.mediumCount := by
  unfold averages
  split
  next counted =>
    obtain ⟨means, computed⟩ := ByState.means_ok t.sumFctMedium t.countMedium
    simp only [divide_count_ok counted, computed]
    exact ⟨_, rfl, rfl⟩
  next none =>
    exact ⟨_, rfl, by simp [Nat.eq_zero_of_not_pos none]⟩

theorem Long.averages_ok (t : Long) : ∃ averages, t.averages = .ok averages ∧
    averages.avLong = t.sumLong / t.longCount := by
  unfold averages
  split
  next counted =>
    obtain ⟨thru, thruComputed⟩ := ByState.means_ok t.sumThruLong t.countLong
    obtain ⟨fct, fctComputed⟩ := ByState.means_ok t.sumFctLong t.countLong
    simp only [divide_count_ok counted, thruComputed, fctComputed]
    exact ⟨_, rfl, rfl⟩
  next none =>
    exact ⟨_, rfl, by simp [Nat.eq_zero_of_not_pos none]⟩

theorem GoodLeaf.averages_ok (t : GoodLeaf) : ∃ averages, t.averages = .ok averages := by
  unfold averages
  split
  next counted =>
    simp only [divide_count_ok counted, mean_ok]
    exact ⟨_, rfl⟩
  next => exact ⟨_, rfl⟩

theorem Totals.failedLeafAverages_ok (t : Totals) :
    ∃ averages, t.failedLeafAverages = .ok averages := by
  simp only [failedLeafAverages, mean_ok]
  exact ⟨_, rfl⟩

theorem Racks.averages_ok (t : Racks) : ∃ averages, t.averages = .ok averages := by
  simp only [averages, mean_ok]
  exact ⟨_, rfl⟩

/-- `END` succeeds exactly when its part of the poor path does. -/
theorem endBlock_ok_iff (t : Totals) :
    (∃ summary, endBlock t = .ok summary) ↔ ∃ averages, t.poorPathAverages = .ok averages := by
  obtain ⟨overall, h₁, _⟩ := t.overall.averages_ok
  obtain ⟨northSouth, h₂⟩ := t.northSouth.averages_ok
  obtain ⟨mice, h₃, _⟩ := t.mice.averages_ok
  obtain ⟨medium, h₄, _⟩ := t.medium.averages_ok
  obtain ⟨long, h₅, _⟩ := t.long.averages_ok
  obtain ⟨goodLeaf, h₆⟩ := t.goodLeaf.averages_ok
  obtain ⟨failedLeaf, h₇⟩ := t.failedLeafAverages_ok
  obtain ⟨racks, h₈⟩ := t.racks.averages_ok
  simp only [endBlock, h₁, h₂, h₃, h₄, h₅, h₆, h₇, h₈, bind, Except.bind]
  cases poor : t.poorPathAverages with
  | error fault => simp
  | ok averages => exact ⟨fun _ => ⟨averages, rfl⟩, fun _ => ⟨_, rfl⟩⟩

end Saps.Script.FlowStatistics
