import Mathlib.Tactic.FieldSimp
import Saps.Script.FlowAverages
import Saps.Script.FlowTotals

/-!
# Conservation of flows and completion times

Each record enters one size class, one side of the rack split and one state of its class,
or is north-south. So the counts and the durations of the parts add up to those of the whole,
and the overall mean is the mean of the class means.
-/
namespace Saps.Script.FlowStatistics

open Tally FlowRecord

/-- The overall mean is the weighted mean of the class means that `END` prints. -/
def WeightedMean (t : Totals) : Prop :=
  ∃ overall mice medium long, t.overall.averages = .ok overall ∧ t.mice.averages = .ok mice ∧
    t.medium.averages = .ok medium ∧ t.long.averages = .ok long ∧
    overall.av = (t.mice.countMice.total * mice.afctMice + t.medium.mediumCount * medium.avMedium +
      t.long.longCount * long.avLong) / t.overall.nl

/-- The parts of the statistics of a log add up. -/
structure Conserved (log : List FlowRecord) (t : Totals) : Prop where
  nl_records : t.overall.nl = log.countP fun r => r.northSouthFlow = 0
  nl_classes :
    t.overall.nl = t.mice.countMice.total + t.medium.mediumCount + t.long.longCount
  nl_racks : t.overall.nl = t.racks.countIntraRackFlows + t.racks.countInterRackFlows
  sum_classes : t.overall.sum = t.mice.sumFctMice.total + t.medium.sumMedium + t.long.sumLong
  sum_racks : t.overall.sum = t.racks.sumFctIntraRackFlows + t.racks.sumFctInterRackFlows
  medium_count : t.medium.mediumCount = t.medium.countMedium.total
  long_count : t.long.longCount = t.long.countLong.total
  sum_medium : t.medium.sumMedium = t.medium.sumFctMedium.total
  sum_long : t.long.sumLong = t.long.sumFctLong.total
  northSouth : t.northSouth.countNorthSouth = log.countP fun r => r.northSouthFlow ≠ 0
  remaining : t.overall.nl + t.northSouth.countNorthSouth = log.length
  av : 0 < t.overall.nl → WeightedMean t

variable {M : Type} [AddCommMonoid M] {f : FlowRecord → M} {log : List FlowRecord}

/-! ### The partitions -/

/-- The flows that are not long. -/
def short (r : FlowRecord) : Bool := r.eastWest && decide (r.isElephant = 0)

theorem tally_classes : tally eastWest f log =
    tally mice f log + tally medium f log + tally long f log := by
  have notLong : tally mice f log + tally medium f log = tally short f log := by
    apply tally_add
    · intro r
      by_cases tiny : r.tinyMice = 1 <;> simp [short, mice, medium, tiny]
    · intro r inside
      simp_all [mice, medium]
  -- the short flows and the long ones are all of them
  rw [notLong, tally_add]
  · intro r
    by_cases elephant : r.isElephant = 0 <;> simp [short, long, elephant]
  · intro r inside
    simp_all [short, long]

theorem tally_racks : tally eastWest f log = tally intraRack f log + tally interRack f log := by
  rw [tally_add]
  · intro r
    by_cases inter : r.intraRackFlow = 0 <;> simp [intraRack, interRack, inter]
  · intro r inside
    simp_all [intraRack, interRack]

theorem tally_directions :
    tally eastWest f log + tally northSouth f log = tally (fun _ => true) f log := by
  apply tally_add
  · intro r
    by_cases ew : r.northSouthFlow = 0 <;> simp [eastWest, northSouth, ew]
  · intro r inside
    simp_all [eastWest, northSouth]

/-! ### The mean of the class means -/

/-- A count times its mean is the sum, also for a class without members. -/
theorem count_mul_mean {p : FlowRecord → Bool} :
    (count p log : ℚ) * (tally p duration log / count p log) = tally p duration log := by
  by_cases none : count p log = 0
  · rw [none, tally_eq_zero none]
    simp
  · have nonzero : (count p log : ℚ) ≠ 0 := by exact_mod_cast none
    field_simp

theorem weightedMean_of (states : ∀ r ∈ log, 0 ≤ r.flowEndState ∧ r.flowEndState ≤ 4) :
    WeightedMean (.of log) := by
  obtain ⟨overall, h₁, av⟩ := (Overall.of log).averages_ok
  obtain ⟨mice, h₂, afctMice⟩ := (Mice.of log).averages_ok
  obtain ⟨medium, h₃, avMedium⟩ := (Medium.of log).averages_ok
  obtain ⟨long, h₄, avLong⟩ := (Long.of log).averages_ok
  refine ⟨overall, mice, medium, long, h₁, h₂, h₃, h₄, ?_⟩
  simp only [Mice.of, ByState.total_tally states] at afctMice
  -- every weight cancels against the count that its mean was divided by
  simp only [Totals.of, Mice.of, ByState.total_tally states, av, afctMice, avMedium, avLong,
    Overall.of, Medium.of, Long.of, count_mul_mean]
  rw [tally_classes]

/-- The tallies of a log are conserved. -/
theorem conserved_of (states : ∀ r ∈ log, 0 ≤ r.flowEndState ∧ r.flowEndState ≤ 4) :
    Conserved log (.of log) where
  nl_records := count_eq_countP
  nl_classes := by
    simp only [Totals.of, Mice.of, ByState.total_tally states]
    exact tally_classes
  nl_racks := tally_racks
  sum_classes := by
    simp only [Totals.of, Mice.of, ByState.total_tally states]
    exact tally_classes
  sum_racks := tally_racks
  medium_count := (ByState.total_tally states).symm
  long_count := (ByState.total_tally states).symm
  sum_medium := (ByState.total_tally states).symm
  sum_long := (ByState.total_tally states).symm
  northSouth := count_eq_countP
  remaining := by
    have whole : count (fun _ => true) log = log.length := by
      rw [count_eq_countP]
      simp
    exact tally_directions.trans whole
  av := fun _ => weightedMean_of states

/-- The main rule gets through a log whose flows, the north-south ones apart, took some time,
and its statistics conserve the flows and their completion times. -/
theorem statistics_conserved (log : List FlowRecord)
    (states : ∀ r ∈ log, 0 ≤ r.flowEndState ∧ r.flowEndState ≤ 4) :
    ((∃ t, process log = .ok t) ↔ ∀ r ∈ log, r.northSouthFlow = 0 → r.duration ≠ 0) ∧
      ∀ t, process log = .ok t → Conserved log t := by
  constructor
  · constructor
    · rintro ⟨t, done⟩
      exact (process_ok_iff.mp done).1
    · intro divisible
      exact ⟨.of log, process_ok_iff.mpr ⟨divisible, rfl⟩⟩
  · intro t done
    rw [(process_ok_iff.mp done).2]
    exact conserved_of states

/-- A flow within a rack or across, of the given size class. -/
def plainFlow (duration : ℚ) (isElephant tinyMice intraRackFlow northSouthFlow : Int) :
    FlowRecord where
  duration
  dataBytes := 3000
  rexmitBytes := 0
  throughput := 3000 / duration
  cwndCuts1 := 0
  rexmit := 0
  isElephant
  rexmitPkts := 0
  fromFailedLeaf := 0
  necnResponses := 0
  selectiveSpraying := 0
  poorPathFlow := 0
  flowEndState := 0
  tinyMice
  toFailedLeaf := 0
  northSouthFlow
  originallyHashed := 0
  intraRackFlow
  size := 3000

/-- A mouse, a medium flow in a rack, a long flow, and a north-south flow. -/
def fourFlows : List FlowRecord :=
  [plainFlow 2 0 1 0 0, plainFlow 3 0 0 1 0, plainFlow 7 1 0 0 0, plainFlow 5 0 1 0 1]

theorem statistics_conserved_fourFlows :
    ∃ t, process fourFlows = .ok t ∧ Conserved fourFlows t ∧ t.overall.nl = 3 := by
  have conserved := statistics_conserved fourFlows (by decide)
  obtain ⟨t, done⟩ := conserved.1.mpr (by decide +kernel)
  have parts := conserved.2 t done
  exact ⟨t, done, parts, parts.nl_records⟩

end Saps.Script.FlowStatistics
