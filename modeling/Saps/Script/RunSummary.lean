import Mathlib.Algebra.Order.Ring.Rat
import Mathlib.Data.List.Induction
import Mathlib.Logic.Function.Basic
import Mathlib.Tactic.SplitIfs
import Saps.Library.OnePassVariance
import Saps.Library.UntilFault
import Saps.Script.Awk

/-!
# The summary over runs

`avg_thru_all.awk` collects field 96 of the lines of many runs by load-balancing scheme and
load, and prints the mean and the standard deviation of each of the 36 cells.
-/
namespace Saps.Script.RunSummary

open OnePass UntilFault

/-- The fields that the program reads. -/
structure RunRecord where
  /-- `$1` -/
  load : ℚ
  /-- `$4` -/
  scheme : String
  /-- `$96` -/
  thruput : ℚ
deriving DecidableEq

/-- The entries of `lb_scheme`. -/
inductive Scheme where
  | rps | ecmp | wps | wfcs | spps | sppsDau
deriving DecidableEq, Repr

inductive Load where
  | l20 | l40 | l60 | l70 | l80 | l90
deriving DecidableEq, Repr

def Scheme.name : Scheme → String
  | .rps => "RPS"
  | .ecmp => "ECMP"
  | .wps => "WPS"
  | .wfcs => "WFCS"
  | .spps => "SPPS"
  | .sppsDau => "SPPS-DAU"

/-- The schemes in the order of their indices. -/
def lbScheme : List Scheme := [.rps, .ecmp, .wps, .wfcs, .spps, .sppsDau]

/-- The loads in the order in which they are printed. -/
def loads : List Load := [.l20, .l40, .l60, .l70, .l80, .l90]

structure Cell where
  sum : ℚ := 0
  sumsq : ℚ := 0
  count : Nat := 0
deriving DecidableEq

abbrev Cells := Scheme → Load → Cell

/-! ### The main rule -/

/-- The loop that looks `$4` up. -/
def schemeOf (name : String) : Option Scheme := lbScheme.find? fun s => name = s.name

/-- The comparisons of `$1`. -/
def loadOf (load : ℚ) : Option Load :=
  if load = 2 / 10 then some .l20
  else if load = 4 / 10 then some .l40
  else if load = 6 / 10 then some .l60
  else if load = 7 / 10 then some .l70
  else if load = 8 / 10 then some .l80
  else if load = 9 / 10 then some .l90
  else none

def Cell.add (c : Cell) (x : ℚ) : Cell where
  sum := c.sum + x
  sumsq := c.sumsq + x ^ 2
  count := c.count + 1

def mainRule (cells : Cells) (r : RunRecord) : Cells :=
  match schemeOf r.scheme, loadOf r.load with
  | some scheme, some load =>
    Function.update cells scheme
      (Function.update (cells scheme) load ((cells scheme load).add r.thruput))
  | _, _ => cells

def process (log : List RunRecord) : Cells := log.foldl mainRule fun _ _ => {}

/-! ### `END` -/

inductive Line where
  | scheme (name : String)
  /-- The standard deviation is printed as the square root of the radicand. -/
  | cell (load : Load) (mean radicand : ℚ)
deriving DecidableEq

def Cell.line (c : Cell) (load : Load) : Except Fault Line := do
  let mean ← divide c.sum c.count
  let square ← divide (c.sum ^ 2) c.count
  let radicand ← divide (c.sumsq - square) c.count
  return .cell load mean radicand

/-- The statements of the loop of `END`, in the order in which they run. -/
def statements (cells : Cells) : List (Except Fault Line) :=
  lbScheme.flatMap fun scheme =>
    .ok (.scheme scheme.name) :: loads.map fun load => (cells scheme load).line load

/-- What the program prints for a log. -/
def summary (log : List RunRecord) : List Line := printed (statements (process log))

/-! ### What the cells hold -/

/-- The value by which a load is recognised. -/
def Load.value : Load → ℚ
  | .l20 => 2 / 10
  | .l40 => 4 / 10
  | .l60 => 6 / 10
  | .l70 => 7 / 10
  | .l80 => 8 / 10
  | .l90 => 9 / 10

/-- Field 96 of the records of a cell. -/
def values (log : List RunRecord) (scheme : Scheme) (load : Load) : List ℚ :=
  (log.filter fun r => r.scheme = scheme.name ∧ r.load = load.value).map RunRecord.thruput

def Cell.of (xs : List ℚ) : Cell where
  sum := xs.sum
  sumsq := OnePass.sumsq xs
  count := xs.length

variable {log : List RunRecord} {r : RunRecord} {scheme : Scheme} {load : Load}

theorem schemeOf_eq_some_iff {name : String} : schemeOf name = some scheme ↔ name = scheme.name := by
  constructor
  · intro found
    simpa using List.find?_some found
  · rintro rfl
    cases scheme <;> rfl

theorem loadOf_eq_some_iff {q : ℚ} : loadOf q = some load ↔ q = load.value := by
  constructor
  · intro found
    unfold loadOf at found
    split_ifs at found with h
    all_goals
      cases found
      assumption
  · rintro rfl
    cases load <;> decide +kernel

@[simp] theorem Cell.of_append_singleton (xs : List ℚ) (x : ℚ) :
    Cell.of (xs ++ [x]) = (Cell.of xs).add x := by
  simp [Cell.of, Cell.add, OnePass.sumsq]

theorem values_append_singleton : values (log ++ [r]) scheme load = values log scheme load ++
    if r.scheme = scheme.name ∧ r.load = load.value then [r.thruput] else [] := by
  by_cases own : r.scheme = scheme.name ∧ r.load = load.value <;> simp [values, own]

theorem mainRule_apply (cells : Cells) (r : RunRecord) (scheme : Scheme) (load : Load) :
    mainRule cells r scheme load =
      if r.scheme = scheme.name ∧ r.load = load.value then (cells scheme load).add r.thruput
      else cells scheme load := by
  have own : (r.scheme = scheme.name ∧ r.load = load.value) ↔
      schemeOf r.scheme = some scheme ∧ loadOf r.load = some load := by
    rw [schemeOf_eq_some_iff, loadOf_eq_some_iff]
  simp only [own, mainRule]
  cases schemeOf r.scheme with
  | none => simp
  | some scheme' =>
    cases loadOf r.load with
    | none => simp
    | some load' =>
      -- the record is for this cell, for another load of its scheme, or for another scheme
      by_cases same : scheme' = scheme
      · subst same
        by_cases here : load' = load
        · subst here
          simp
        · simp [here, Ne.symm here]
      · simp [same, Ne.symm same]

/-- A cell holds the three sums over exactly its records. -/
theorem process_apply (log : List RunRecord) (scheme : Scheme) (load : Load) :
    process log scheme load = .of (values log scheme load) := by
  induction log using List.reverseRecOn with
  | nil => rfl
  | append_singleton log r ih =>
    have last : process (log ++ [r]) = mainRule (process log) r := by
      rw [process, List.foldl_concat, ← process]
    rw [last, mainRule_apply, values_append_singleton, ih]
    split
    · rw [Cell.of_append_singleton]
    · rw [List.append_nil]

/-! ### What is printed where -/

def Scheme.position (scheme : Scheme) : Nat := lbScheme.idxOf scheme

def Load.position (load : Load) : Nat := loads.idxOf load

/-- The number of statements of `END` that run before the line of a cell. -/
def place (scheme : Scheme) (load : Load) : Nat := 7 * scheme.position + load.position + 1

theorem statements_name (cells : Cells) (scheme : Scheme) :
    (statements cells)[7 * scheme.position]? = some (.ok (.scheme scheme.name)) := by
  cases scheme <;> rfl

theorem statements_cell (cells : Cells) (scheme : Scheme) (load : Load) :
    (statements cells)[place scheme load]? = some ((cells scheme load).line load) := by
  cases scheme <;> cases load <;> rfl

theorem place_lt (scheme : Scheme) (load : Load) : place scheme load < 42 := by
  cases scheme <;> cases load <;> decide

theorem exists_scheme {n : Nat} (index : n < 6) : ∃ scheme : Scheme, scheme.position = n := by
  have distinct : lbScheme.Nodup := by decide
  exact ⟨lbScheme[n], distinct.idxOf_getElem n index⟩

theorem exists_load {n : Nat} (index : n < 6) : ∃ load : Load, load.position = n := by
  have distinct : loads.Nodup := by decide
  exact ⟨loads[n], distinct.idxOf_getElem n index⟩

/-- A statement prints the name of a scheme, or the line of a cell. -/
theorem name_or_cell (cells : Cells) {j : Nat} (inside : j < 42) :
    (∃ line, (statements cells)[j]? = some (.ok line)) ∨
      ∃ scheme load, j = place scheme load := by
  obtain ⟨scheme, row⟩ := exists_scheme (n := j / 7) (by omega)
  by_cases first : j % 7 = 0
  · left
    have here : j = 7 * scheme.position := by omega
    rw [here]
    exact ⟨_, statements_name cells scheme⟩
  · right
    obtain ⟨load, column⟩ := exists_load (n := j % 7 - 1) (by omega)
    exact ⟨scheme, load, by rw [place, row, column]; omega⟩

/-! ### The line of a cell -/

variable {xs : List ℚ}

theorem line_of (entries : xs ≠ []) :
    (Cell.of xs).line load = .ok (.cell load (average xs) (variance xs)) := by
  have length : (xs.length : ℚ) ≠ 0 := by
    have positive := List.length_pos_iff.mpr entries
    positivity
  rw [variance_eq_onePass entries]
  simp only [Cell.line, Cell.of, divide_ok length]
  rfl

/-- A cell without a record is divided by zero. -/
theorem line_of_ok_iff :
    (∃ line, (Cell.of xs).line load = .ok line) ↔ xs ≠ [] := by
  constructor
  · rintro ⟨line, computed⟩ rfl
    have zero : (Cell.of []).line load = .error .divisionByZero := rfl
    rw [zero] at computed
    cases computed
  · intro entries
    exact ⟨_, line_of entries⟩

/-! ### Which cells are reported -/

/-- The line of the cell is where it belongs, with the mean and the radicand of the standard
deviation over exactly its records. -/
def Reported (log : List RunRecord) (scheme : Scheme) (load : Load) : Prop :=
  (summary log)[place scheme load]? =
      some (.cell load (average (values log scheme load)) (variance (values log scheme load))) ∧
    0 ≤ variance (values log scheme load)

/-- A cell with records is reported exactly when no cell before it is empty. -/
theorem reported_iff (entries : values log scheme load ≠ []) :
    Reported log scheme load ↔ ∀ scheme' load',
      place scheme' load' < place scheme load → values log scheme' load' ≠ [] := by
  have own : (statements (process log))[place scheme load]? = some (.ok (.cell load
      (average (values log scheme load)) (variance (values log scheme load)))) := by
    rw [statements_cell, process_apply, line_of entries]
  unfold Reported summary
  rw [printed_getElem?_iff]
  constructor
  · rintro ⟨⟨-, earlier⟩, -⟩ scheme' load' before
    obtain ⟨line, computed⟩ := earlier _ before
    rw [statements_cell, process_apply] at computed
    exact line_of_ok_iff.mp ⟨line, Option.some.inj computed⟩
  · intro filled
    refine ⟨⟨own, fun j before => ?_⟩, variance_nonneg _⟩
    -- what is printed earlier is a name or the line of a cell that is not empty
    rcases name_or_cell (process log) (before.trans (place_lt scheme load)) with
      name | ⟨scheme', load', rfl⟩
    · exact name
    · obtain ⟨line, computed⟩ := line_of_ok_iff.mpr (filled scheme' load' before)
      rw [statements_cell, process_apply]
      exact ⟨line, congrArg some computed⟩

/-- Every cell with a record is reported exactly when no empty cell comes before one with a
record in the order of printing. -/
theorem reported_all_iff (log : List RunRecord) :
    (∀ scheme load, values log scheme load ≠ [] → Reported log scheme load) ↔
      ∀ scheme load scheme' load', place scheme load < place scheme' load' →
        values log scheme' load' ≠ [] → values log scheme load ≠ [] := by
  constructor
  · intro reported scheme load scheme' load' before entries
    exact (reported_iff entries).mp (reported scheme' load' entries) scheme load before
  · intro filled scheme load entries
    exact (reported_iff entries).mpr fun scheme' load' before =>
      filled scheme' load' scheme load before entries

/-- A log with ECMP at load 0.4 only: the program stops after the name of the first scheme. -/
theorem ecmpOnly_unreported :
    values [⟨4 / 10, "ECMP", 5⟩] .ecmp .l40 = [5] ∧
      summary [⟨4 / 10, "ECMP", 5⟩] = [.scheme "RPS"] ∧
      ¬ Reported [⟨4 / 10, "ECMP", 5⟩] .ecmp .l40 := by
  have output : summary [⟨4 / 10, "ECMP", 5⟩] = [.scheme "RPS"] := by decide +kernel
  refine ⟨by decide +kernel, output, ?_⟩
  rintro ⟨printed, -⟩
  rw [output] at printed
  cases printed

end Saps.Script.RunSummary
