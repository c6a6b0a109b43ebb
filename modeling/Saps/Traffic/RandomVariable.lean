import Mathlib.Algebra.Order.Field.Rat
import Mathlib.Data.Rat.Floor
import Saps.Library.Bisection

/-!
# Flow sizes

`EmpiricalRandomVariable`: a distribution given by the lines of a file, from which
the flow sizes of an experiment are drawn. Exact rational numbers stand for the
`double`s, whose rounding is left out, and a draw of the generator is one from 0 to 1.
-/
namespace Saps.Traffic

/-- `interpolation_` 0, 1 and 2. -/
inductive Interpolation
  | discrete
  | continuous
  | integral
deriving DecidableEq, Repr

/-- A cell of the table; what was never assigned has no value. -/
structure CDFentry where
  val : Option ℚ
  cdf : Option ℚ
deriving DecidableEq, Repr

structure EmpiricalRandomVariable where
  minCDF : ℚ := 0
  maxCDF : ℚ := 1
  interpolation : Interpolation := .discrete
  maxEntry : Nat := 32
  table : Option (List CDFentry) := none
  /-- The constructor leaves it unset. -/
  numEntry : Option Nat := none

namespace EmpiricalRandomVariable

/-- What `sscanf` finds on a line: the third number is only reached after the first. -/
inductive Line
  | blank
  | value (val : ℚ)
  | entry (val cdf : ℚ)
deriving DecidableEq, Repr

/-- `sscanf` assigns what it finds, and the rest of the cell stays. -/
def Line.scan : Line → CDFentry → CDFentry
  | .blank, e => e
  | .value val, e => { e with val := some val }
  | .entry val cdf, _ => ⟨some val, some cdf⟩

def newTable (maxEntry : Nat) : List CDFentry := List.replicate maxEntry ⟨none, none⟩

/-- The first `n` cells of `table` move into `e`, the last one first. -/
def copy (table : List CDFentry) (n : Nat) (e : List CDFentry) : Option (List CDFentry) :=
  (List.range n).foldrM (fun i e => (table[i]?).map (e.set i ·)) e

/-- A full table moves into one twice as large. -/
def makeRoom (maxEntry numEntry : Nat) (table : List CDFentry) : Option (Nat × List CDFentry) :=
  if numEntry ≥ maxEntry then
    (copy table numEntry (newTable (maxEntry * 2))).map (maxEntry * 2, ·)
  else some (maxEntry, table)

/-- One turn of the loop of `loadCDF`; no result if it writes outside the table. -/
def loadLine (v : EmpiricalRandomVariable) (line : Line) : Option EmpiricalRandomVariable := do
  let numEntry ← v.numEntry
  let table ← v.table
  let (maxEntry, table) ← makeRoom v.maxEntry numEntry table
  let e ← table[numEntry]?
  some { v with
    maxEntry
    table := some (table.set numEntry (line.scan e))
    numEntry := some (numEntry + 1) }

/-- `loadCDF(const char* filename)` for the lines of the file. -/
def loadCDF (lines : List Line) (v : EmpiricalRandomVariable) : Option EmpiricalRandomVariable :=
  lines.foldlM loadLine
    { v with
      table := some (v.table.getD (newTable v.maxEntry))
      numEntry := some 0 }

def interpolate (kind : Interpolation) (x x1 y1 x2 y2 : ℚ) : ℚ :=
  let value := y1 + (x - x1) * (y2 - y1) / (x2 - x1)
  if kind = .integral then ⌈value⌉ else value

variable (v : EmpiricalRandomVariable)

def entryAt (i : Nat) : Option CDFentry := v.table.bind fun table => table[i]?

def cdfAt (i : Nat) : Option ℚ := (v.entryAt i).bind CDFentry.cdf

def valAt (i : Nat) : Option ℚ := (v.entryAt i).bind CDFentry.val

/-- `lookup(double u)`. -/
def lookup (u : ℚ) : Option Nat := do
  let numEntry ← v.numEntry
  let first ← v.cdfAt 0
  if u ≤ first then some 0
  else
    Bisection.search (fun mid => (v.cdfAt mid).map fun cdf => decide (u > cdf))
      numEntry 1 (numEntry - 1)

/-- `rng_->uniform(minCDF_, maxCDF_)` for what the generator draws. -/
def uniform (draw : ℚ) : ℚ := v.minCDF + (v.maxCDF - v.minCDF) * draw

def value (draw : ℚ) : Option ℚ := do
  let numEntry ← v.numEntry
  if numEntry = 0 then some 0
  else
    let u := v.uniform draw
    let mid ← v.lookup u
    if mid ≠ 0 ∧ v.interpolation ≠ .discrete then
      let cdf ← v.cdfAt mid
      if u < cdf then
        return interpolate v.interpolation u (← v.cdfAt (mid - 1)) (← v.valAt (mid - 1)) cdf
          (← v.valAt mid)
      else v.valAt mid
    else v.valAt mid

example : (do
    let v ← loadCDF [.entry 1 0, .entry 3 (1 / 2), .entry 10 1]
      { interpolation := .integral, maxEntry := 2 }
    v.value (3 / 4)) = some 7 := by decide +kernel

end EmpiricalRandomVariable

end Saps.Traffic
