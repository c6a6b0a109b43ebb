import Mathlib.Tactic.Linarith
import Mathlib.Tactic.FieldSimp
import Saps.Traffic.RandomVariable

/-!
# Drawing from a loaded distribution

Whatever the file holds, loading keeps its lines in their order. On values in order,
which may repeat, a draw inverts the distribution function that the file describes,
with interpolation and without.
-/
namespace Saps.Traffic

/-- A value of the distribution with the probability of not exceeding it. -/
structure Entry where
  val : ℚ
  cdf : ℚ
deriving DecidableEq, Repr

def Entry.line (e : Entry) : EmpiricalRandomVariable.Line := .entry e.val e.cdf

def Entry.cell (e : Entry) : CDFentry := ⟨some e.val, some e.cdf⟩

namespace EmpiricalRandomVariable

variable {v w : EmpiricalRandomVariable} {entries : List Entry} {u draw : ℚ}

/-! ### Loading -/

/-- A table, if there is one, has `maxEntry_` cells. -/
structure Sized (v : EmpiricalRandomVariable) : Prop where
  positive : 0 < v.maxEntry
  length : ∀ table, v.table = some table → table.length = v.maxEntry

/-- The table begins with these entries. -/
structure Holds (entries : List Entry) (v : EmpiricalRandomVariable) : Prop where
  positive : 0 < v.maxEntry
  numEntry : v.numEntry = some entries.length
  table : ∃ table, v.table = some table ∧ table.length = v.maxEntry ∧
    entries.length ≤ v.maxEntry ∧
    ∀ (i : Nat) e, entries[i]? = some e → table[i]? = some e.cell

/-- What is bound from outside, but for the size of the table. -/
structure SameBounds (v w : EmpiricalRandomVariable) : Prop where
  minCDF : w.minCDF = v.minCDF
  maxCDF : w.maxCDF = v.maxCDF
  interpolation : w.interpolation = v.interpolation

theorem copy_eq {table e : List CDFentry} {n : Nat} (inside : n ≤ table.length)
    (room : n ≤ e.length) :
    ∃ new, copy table n e = some new ∧ new.length = e.length ∧
      (∀ i < n, new[i]? = table[i]?) ∧ ∀ i, n ≤ i → new[i]? = e[i]? := by
  induction n generalizing e with
  | zero => exact ⟨e, rfl, rfl, fun i none => absurd none (Nat.not_lt_zero i), fun i _ => rfl⟩
  | succ n ih =>
    obtain ⟨cell, here⟩ : ∃ cell, table[n]? = some cell := ⟨_, List.getElem?_eq_getElem (by omega)⟩
    obtain ⟨new, copied, length, moved, kept⟩ := ih (e := e.set n cell) (by omega)
      (by rw [List.length_set]; omega)
    refine ⟨new, ?_, by rw [length, List.length_set], fun i before => ?_, fun i after => ?_⟩
    · rw [copy, List.range_succ, List.foldrM_append]
      simp only [List.foldrM_cons, List.foldrM_nil, here, Option.map_some, Option.pure_def,
        Option.bind_eq_bind, Option.bind_some]
      exact copied
    · rcases Nat.lt_succ_iff_lt_or_eq.mp before with earlier | rfl
      · exact moved i earlier
      · rw [kept i (Nat.le_refl i), here, List.getElem?_set_self (by omega)]
    · rw [kept i (by omega), List.getElem?_set_ne (by omega)]

/-- With or without a larger table, there is a free cell behind the entries. -/
theorem makeRoom_eq {maxEntry n : Nat} {table : List CDFentry} (positive : 0 < maxEntry)
    (length : table.length = maxEntry) (room : n ≤ maxEntry) :
    ∃ larger moved, makeRoom maxEntry n table = some (larger, moved) ∧ moved.length = larger ∧
      n < larger ∧ ∀ i < n, moved[i]? = table[i]? := by
  simp only [makeRoom]
  split
  next full =>
    obtain ⟨new, copied, size, same, -⟩ := @copy_eq table (newTable (maxEntry * 2)) n (by omega)
      (by simp [newTable]; omega)
    refine ⟨maxEntry * 2, new, by rw [copied]; rfl, ?_, by omega, same⟩
    rw [size, newTable, List.length_replicate]
  next => exact ⟨maxEntry, table, rfl, length, by omega, fun i _ => rfl⟩

theorem loadLine_holds (holds : Holds entries v) (e : Entry) :
    ∃ w, v.loadLine e.line = some w ∧ Holds (entries ++ [e]) w ∧ SameBounds v w := by
  obtain ⟨table, here, length, room, kept⟩ := holds.table
  obtain ⟨maxEntry, moved, made, size, free, still⟩ := makeRoom_eq holds.positive length room
  have cell : moved[entries.length]? = some moved[entries.length] :=
    List.getElem?_eq_getElem (by omega)
  refine ⟨{ v with
    maxEntry
    table := some (moved.set entries.length e.cell)
    numEntry := some (entries.length + 1) }, ?_, ?_, ⟨rfl, rfl, rfl⟩⟩
  · simp only [loadLine, holds.numEntry, here, made, cell, Option.bind_eq_bind, Option.bind_some]
    rfl
  · refine ⟨?_, by simp, _, rfl, by rw [List.length_set, size], by simp; omega, ?_⟩
    · show 0 < maxEntry
      omega
    · intro i x found
      rcases lt_or_ge i entries.length with old | new
      · rw [List.getElem?_append_left old] at found
        rw [List.getElem?_set_ne (by omega), still i old]
        exact kept i x found
      · rw [List.getElem?_append_right new] at found
        obtain ⟨last, same⟩ := List.getElem?_eq_some_iff.mp found
        obtain rfl : i = entries.length := by
          rw [List.length_singleton] at last
          omega
        rw [← same, List.getElem_singleton]
        exact List.getElem?_set_self (by omega)

theorem loadCDF_holds (sized : Sized v) (entries : List Entry) :
    ∃ w, v.loadCDF (entries.map Entry.line) = some w ∧ Holds entries w ∧ SameBounds v w := by
  let start : EmpiricalRandomVariable := { v with
    table := some (v.table.getD (newTable v.maxEntry))
    numEntry := some 0 }
  have begun : Holds [] start := by
    refine ⟨sized.positive, rfl, _, rfl, ?_, Nat.zero_le _, fun i e none => by simp at none⟩
    cases table : v.table with
    | none => simp [newTable, start]
    | some table' => exact sized.length table' table
  -- line by line, behind what was loaded before
  suffices loaded : ∀ (rest before : List Entry) (b : EmpiricalRandomVariable),
      Holds before b → SameBounds v b →
      ∃ w, (rest.map Entry.line).foldlM loadLine b = some w ∧ Holds (before ++ rest) w ∧
        SameBounds v w from loaded entries [] start begun ⟨rfl, rfl, rfl⟩
  intro rest
  induction rest with
  | nil => exact fun before b holds same => ⟨b, rfl, by simpa using holds, same⟩
  | cons e rest ih =>
    intro before b holds same
    obtain ⟨c, loaded, more, kept⟩ := loadLine_holds holds e
    obtain ⟨w, finished, all, bounds⟩ := ih (before ++ [e]) c more ⟨kept.minCDF.trans same.minCDF,
      kept.maxCDF.trans same.maxCDF, kept.interpolation.trans same.interpolation⟩
    refine ⟨w, ?_, by simpa using all, bounds⟩
    rw [List.map_cons, List.foldlM_cons, loaded]
    exact finished

theorem Holds.entryAt (holds : Holds entries v) {i : Nat} {e : Entry} (here : entries[i]? = some e) :
    v.cdfAt i = some e.cdf ∧ v.valAt i = some e.val := by
  obtain ⟨table, loaded, -, -, kept⟩ := holds.table
  have cell := kept i e here
  simp only [cdfAt, valAt, EmpiricalRandomVariable.entryAt, loaded, Option.bind_some, cell]
  exact ⟨rfl, rfl⟩

/-! ### Looking up -/

/-- The place that `lookup()` answers with: the entry before it, if any, lies below the number. -/
structure Covers (entries : List Entry) (u : ℚ) (place : Nat) : Prop where
  inside : place < entries.length
  before : 0 < place → ∃ p, entries[place - 1]? = some p ∧ p.cdf < u
  here : ∃ e, entries[place]? = some e ∧ (u ≤ e.cdf ∨ place + 1 = entries.length)

theorem Holds.lookup_covers (holds : Holds entries v) {first : Entry}
    (head : entries[0]? = some first) (some_ : entries.length ≠ 1 ∨ u ≤ first.cdf) :
    ∃ place, v.lookup u = some place ∧ Covers entries u place := by
  have nonempty : 0 < entries.length := (List.getElem?_eq_some_iff.mp head).1
  simp only [lookup, holds.numEntry, (holds.entryAt head).1, Option.bind_eq_bind, Option.bind_some]
  by_cases below : u ≤ first.cdf
  · rw [if_pos below]
    exact ⟨0, rfl, nonempty, fun none => absurd none (lt_irrefl 0), first, head, .inl below⟩
  · rw [if_neg below]
    have many : 1 ≤ entries.length - 1 := by
      have := some_.resolve_right below
      omega
    have tested {i : Nat} (inside : i < entries.length) :
        (v.cdfAt i).map (fun cdf => decide (u > cdf)) = some (decide (u > entries[i].cdf)) := by
      rw [(holds.entryAt (List.getElem?_eq_getElem inside)).1, Option.map_some]
    obtain ⟨place, found, spec⟩ := @Bisection.search_found
      (fun mid => (v.cdfAt mid).map fun cdf => decide (u > cdf)) entries.length 1
      (entries.length - 1) many (by omega) fun i _ high => by
        rw [tested (by omega), Option.isSome_some]
    have last := spec.le_hi
    have start := spec.lo_le
    refine ⟨place, found, by omega, fun positive => ?_, ?_⟩
    · rcases Nat.eq_or_lt_of_le start with rfl | later
      · exact ⟨first, head, not_le.mp below⟩
      · have behind := spec.before later
        rw [tested (by omega), Option.some_inj, decide_eq_true_eq] at behind
        exact ⟨_, List.getElem?_eq_getElem (by omega), behind⟩
    · refine ⟨_, List.getElem?_eq_getElem (by omega), ?_⟩
      rcases Nat.eq_or_lt_of_le last with rfl | earlier
      · exact .inr (by omega)
      · have here := spec.here earlier
        rw [tested (by omega), Option.some_inj, decide_eq_false_iff_not] at here
        exact .inl (not_lt.mp here)

/-! ### Drawing -/

/-- The values are in order, and so are their probabilities. -/
def Ordered (entries : List Entry) : Prop :=
  entries.Pairwise fun a b => a.val ≤ b.val ∧ a.cdf ≤ b.cdf

theorem Ordered.le (ordered : Ordered entries) {i j : Nat} {a b : Entry} (before : i ≤ j)
    (first : entries[i]? = some a) (second : entries[j]? = some b) :
    a.val ≤ b.val ∧ a.cdf ≤ b.cdf := by
  rcases Nat.eq_or_lt_of_le before with rfl | earlier
  · cases first.symm.trans second
    exact ⟨le_refl _, le_refl _⟩
  · obtain ⟨low, rfl⟩ := List.getElem?_eq_some_iff.mp first
    obtain ⟨high, rfl⟩ := List.getElem?_eq_some_iff.mp second
    exact List.pairwise_iff_getElem.mp ordered i j low high earlier

/-- The probability of not exceeding the value of the entry is its own: of the entries of one
value it is the last. -/
def LastOfValue (entries : List Entry) (e : Entry) : Prop :=
  ∀ f ∈ entries, f.val ≤ e.val → f.cdf ≤ e.cdf

/-- Between two entries the value lies between theirs, and above the first one's if they differ. -/
theorem interpolate_between {kind : Interpolation} {x x1 y1 x2 y2 : ℚ} (left : x1 < x)
    (right : x < x2) (rising : y1 ≤ y2) (whole : kind = .integral → ∃ n : Int, y2 = n) :
    y1 ≤ interpolate kind x x1 y1 x2 y2 ∧ interpolate kind x x1 y1 x2 y2 ≤ y2 ∧
      (y1 < y2 → y1 < interpolate kind x x1 y1 x2 y2) := by
  have width : 0 < x2 - x1 := by linarith
  have above : y1 ≤ y1 + (x - x1) * (y2 - y1) / (x2 - x1) := by
    have : 0 ≤ (x - x1) * (y2 - y1) / (x2 - x1) :=
      div_nonneg (mul_nonneg (by linarith) (by linarith)) width.le
    linarith
  have strict (apart : y1 < y2) : y1 < y1 + (x - x1) * (y2 - y1) / (x2 - x1) := by
    have : 0 < (x - x1) * (y2 - y1) / (x2 - x1) :=
      div_pos (mul_pos (by linarith) (by linarith)) width
    linarith
  have below : y1 + (x - x1) * (y2 - y1) / (x2 - x1) ≤ y2 := by
    have : (x - x1) * (y2 - y1) / (x2 - x1) ≤ y2 - y1 := by
      rw [div_le_iff₀ width, mul_comm]
      exact mul_le_mul_of_nonneg_left (by linarith) (by linarith)
    linarith
  simp only [interpolate]
  split
  next integral =>
    obtain ⟨n, rfl⟩ := whole integral
    exact ⟨above.trans (Int.le_ceil _), by exact_mod_cast Int.ceil_le.mpr below,
      fun apart => (strict apart).trans_le (Int.le_ceil _)⟩
  next => exact ⟨above, below, strict⟩

/-- What a draw at the place that covers it answers. -/
structure Drawn (kind : Interpolation) (entries : List Entry) (u : ℚ) (place : Nat) (x : ℚ) :
    Prop where
  least : place = 0 → ∃ e, entries[place]? = some e ∧ x = e.val
  between : 0 < place → ∃ p e, entries[place - 1]? = some p ∧ entries[place]? = some e ∧
    x = if kind ≠ .discrete ∧ u < e.cdf then interpolate kind u p.cdf p.val e.cdf e.val else e.val

theorem Holds.value_drawn (holds : Holds entries v) {place : Nat}
    (found : v.lookup (v.uniform draw) = some place)
    (covers : Covers entries (v.uniform draw) place) :
    ∃ x, v.value draw = some x ∧ Drawn v.interpolation entries (v.uniform draw) place x := by
  obtain ⟨e, here, -⟩ := covers.here
  obtain ⟨cdf, val⟩ := holds.entryAt here
  have nonempty : entries.length ≠ 0 := by
    have := covers.inside
    omega
  simp only [value, holds.numEntry, found, cdf, val, Option.bind_eq_bind, Option.bind_some,
    if_neg nonempty]
  rcases Nat.eq_zero_or_pos place with rfl | positive
  · refine ⟨e.val, by simp, fun _ => ⟨e, here, rfl⟩, fun later => absurd later (lt_irrefl 0)⟩
  · obtain ⟨p, previous, -⟩ := covers.before positive
    obtain ⟨cdf', val'⟩ := holds.entryAt previous
    simp only [cdf', val', Option.bind_some, positive.ne', ne_eq, not_false_eq_true, true_and]
    refine ⟨_, ?_, fun none => absurd none positive.ne', fun _ => ⟨p, e, previous, here, rfl⟩⟩
    by_cases discrete : v.interpolation = .discrete
    · simp [discrete]
    · by_cases inside : v.uniform draw < e.cdf
      · simp [discrete, inside]
      · simp [discrete, inside]

/-- In integral mode the values are integers. -/
def Whole (kind : Interpolation) (entries : List Entry) : Prop :=
  kind = .integral → ∀ e ∈ entries, ∃ n : Int, e.val = n

/-- The value drawn lies between that of the entry before and that of the entry found, and is
not the first of them if they differ. -/
theorem Drawn.bounds {kind : Interpolation} {place : Nat} {x : ℚ}
    (drawn : Drawn kind entries u place x) (covers : Covers entries u place)
    (ordered : Ordered entries) (whole : Whole kind entries) :
    ∃ e, entries[place]? = some e ∧ x ≤ e.val ∧
      ∀ p, 0 < place → entries[place - 1]? = some p →
        p.val ≤ x ∧ (p.val < e.val → p.val < x) := by
  rcases Nat.eq_zero_or_pos place with none | positive
  · obtain ⟨e, here, rfl⟩ := drawn.least none
    exact ⟨e, here, le_refl _, fun p later => absurd none later.ne'⟩
  · obtain ⟨p, e, previous, here, rfl⟩ := drawn.between positive
    obtain ⟨q, previous', left⟩ := covers.before positive
    cases previous.symm.trans previous'
    have rising := (ordered.le (Nat.sub_le place 1) previous here).1
    have between (inside : u < e.cdf) := interpolate_between left inside rising fun integral =>
      whole integral e (List.mem_of_getElem? here)
    refine ⟨e, here, ?_, fun p' _ previous'' => ?_⟩
    · split
      next smooth => exact (between smooth.2).2.1
      next => exact le_refl _
    · cases previous.symm.trans previous''
      split
      next smooth => exact ⟨(between smooth.2).1, (between smooth.2).2.2⟩
      next => exact ⟨rising, id⟩

/-- A draw that is not beyond the last entry inverts the distribution function. -/
theorem Drawn.le_iff {kind : Interpolation} {place : Nat} {x : ℚ}
    (drawn : Drawn kind entries u place x) (covers : Covers entries u place)
    (ordered : Ordered entries) (whole : Whole kind entries) {last : Entry}
    (final : entries.getLast? = some last) (inside : u ≤ last.cdf) {e : Entry} (member : e ∈ entries)
    (lastOfValue : LastOfValue entries e) : x ≤ e.val ↔ u ≤ e.cdf := by
  obtain ⟨here, found, below, above⟩ := drawn.bounds covers ordered whole
  obtain ⟨i, place_e⟩ := List.mem_iff_getElem?.mp member
  have covered : u ≤ here.cdf := by
    obtain ⟨here', found', covered⟩ := covers.here
    cases found.symm.trans found'
    rcases covered with covered | end_
    · exact covered
    · rw [List.getLast?_eq_getElem?, show entries.length - 1 = place by omega, found] at final
      cases final
      exact inside
  rcases lt_or_ge i place with earlier | later
  -- entries before the place lie below the number, and below the value unless it repeats
  · obtain ⟨p, previous, left⟩ := covers.before (by omega)
    have le := ordered.le (show i ≤ place - 1 by omega) place_e previous
    have rising := (ordered.le (Nat.sub_le place 1) previous found).1
    obtain ⟨low, strict⟩ := above p (by omega) previous
    refine iff_of_false (fun reached => ?_) (by linarith)
    rcases lt_or_ge e.val here.val with apart | repeats
    · rcases lt_or_ge p.val here.val with jump | flat
      · have high := strict jump
        linarith
      · linarith
    · have together := lastOfValue here (List.mem_of_getElem? found) repeats
      linarith
  · have le := ordered.le later found place_e
    exact ⟨fun _ => covered.trans le.2, fun _ => below.trans le.1⟩

theorem interpolate_mono {kind : Interpolation} {x x' x1 y1 x2 y2 : ℚ} (le : x ≤ x')
    (proper : x1 < x2) (rising : y1 ≤ y2) :
    interpolate kind x x1 y1 x2 y2 ≤ interpolate kind x' x1 y1 x2 y2 := by
  have straight : y1 + (x - x1) * (y2 - y1) / (x2 - x1) ≤
      y1 + (x' - x1) * (y2 - y1) / (x2 - x1) := by
    have width : 0 < x2 - x1 := by linarith
    have height : 0 ≤ y2 - y1 := by linarith
    gcongr
  simp only [interpolate]
  split
  · exact_mod_cast Int.ceil_mono straight
  · exact straight

/-- A larger number draws no smaller value. -/
theorem Drawn.mono {kind : Interpolation} {place place' : Nat} {x x' u' : ℚ}
    (drawn : Drawn kind entries u place x) (covers : Covers entries u place)
    (drawn' : Drawn kind entries u' place' x') (covers' : Covers entries u' place')
    (ordered : Ordered entries) (whole : Whole kind entries) (le : u ≤ u') : x ≤ x' := by
  obtain ⟨e, found, below, -⟩ := drawn.bounds covers ordered whole
  obtain ⟨e', found', below', above'⟩ := drawn'.bounds covers' ordered whole
  rcases lt_trichotomy place place' with earlier | rfl | later
  · obtain ⟨p, previous, -⟩ := covers'.before (by omega)
    have low := (above' p (by omega) previous).1
    have rising := (ordered.le (show place ≤ place' - 1 by omega) found previous).1
    linarith
  · cases found.symm.trans found'
    rcases Nat.eq_zero_or_pos place with none | positive
    · obtain ⟨f, here, rfl⟩ := drawn.least none
      obtain ⟨f', here', rfl⟩ := drawn'.least none
      cases here.symm.trans here'
      exact le_refl _
    · -- both numbers are in one stretch of the distribution function
      obtain ⟨p, f, previous, here, same⟩ := drawn.between positive
      obtain ⟨p', f', previous', here', same'⟩ := drawn'.between positive
      cases previous.symm.trans previous'
      cases here.symm.trans here'
      cases found.symm.trans here
      obtain ⟨q, previous'', left⟩ := covers.before positive
      cases previous.symm.trans previous''
      rw [same'] at below' ⊢
      split
      next smooth =>
        rw [same, if_pos ⟨smooth.1, le.trans_lt smooth.2⟩]
        have rising := (ordered.le (Nat.sub_le place 1) previous here).1
        exact interpolate_mono le (left.trans (le.trans_lt smooth.2)) rising
      next => exact below
  · -- a number beyond an earlier entry is beyond the last one
    have inside := covers.inside
    obtain ⟨p, previous, left⟩ := covers.before (by omega)
    obtain ⟨f, here, covered⟩ := covers'.here
    have le' := (ordered.le (show place' ≤ place - 1 by omega) here previous).2
    rcases covered with covered | end_
    · linarith
    · omega

/-- The first entry has the least value, and the last the largest. -/
theorem Drawn.range {kind : Interpolation} {place : Nat} {x : ℚ}
    (drawn : Drawn kind entries u place x) (covers : Covers entries u place)
    (ordered : Ordered entries) (whole : Whole kind entries) {first last : Entry}
    (head : entries[0]? = some first) (final : entries.getLast? = some last) :
    first.val ≤ x ∧ x ≤ last.val := by
  obtain ⟨e, found, below, above⟩ := drawn.bounds covers ordered whole
  have inside := covers.inside
  rw [List.getLast?_eq_getElem?] at final
  have least := (ordered.le (show place ≤ entries.length - 1 by omega) found final).1
  refine ⟨?_, below.trans least⟩
  rcases Nat.eq_zero_or_pos place with rfl | positive
  · obtain ⟨f, here, rfl⟩ := drawn.least rfl
    cases head.symm.trans here
    exact le_refl _
  · obtain ⟨p, previous, -⟩ := covers.before positive
    exact (ordered.le (Nat.zero_le _) head previous).1.trans (above p positive previous).1

theorem Ordered.least {first e : Entry} (ordered : Ordered entries)
    (head : entries[0]? = some first) (member : e ∈ entries) : first.val ≤ e.val := by
  obtain ⟨i, here⟩ := List.mem_iff_getElem?.mp member
  exact (ordered.le (Nat.zero_le i) head here).1

theorem Ordered.largest {last e : Entry} (ordered : Ordered entries)
    (final : entries.getLast? = some last) (member : e ∈ entries) : e.val ≤ last.val := by
  obtain ⟨i, here⟩ := List.mem_iff_getElem?.mp member
  have inside : i < entries.length := (List.getElem?_eq_some_iff.mp here).1
  rw [List.getLast?_eq_getElem?] at final
  exact (ordered.le (show i ≤ entries.length - 1 by omega) here final).1

end EmpiricalRandomVariable

/-! ### Results -/

open EmpiricalRandomVariable

variable (v : EmpiricalRandomVariable) (entries : List Entry)

/-- Of whatever size the file is, loading it succeeds, and from then on a draw is an inverse of
the file's distribution function: the value drawn does not exceed an entry's value exactly when the
number drawn does not exceed its probability, which of repeated values is that of the last. So
every value has the probability that the file gives it. -/
theorem loadCDF_inverts (sized : v.Sized) (ordered : Ordered entries)
    (whole : Whole v.interpolation entries) (last : Entry)
    (final : entries.getLast? = some last) :
    ∃ w, v.loadCDF (entries.map Entry.line) = some w ∧ w.numEntry = some entries.length ∧
      ∀ draw, w.uniform draw ≤ last.cdf → ∃ x, w.value draw = some x ∧
        ∀ e ∈ entries, LastOfValue entries e → (x ≤ e.val ↔ w.uniform draw ≤ e.cdf) := by
  obtain ⟨w, loaded, holds, same⟩ := loadCDF_holds sized entries
  refine ⟨w, loaded, holds.numEntry, fun draw inside => ?_⟩
  rw [← same.interpolation] at whole
  obtain ⟨first, rest, rfl⟩ : ∃ first rest, entries = first :: rest := by
    cases entries with
    | nil => cases final
    | cons first rest => exact ⟨first, rest, rfl⟩
  have head : (first :: rest)[0]? = some first := rfl
  have covered : (first :: rest).length ≠ 1 ∨ w.uniform draw ≤ first.cdf := by
    -- a single entry is the last one
    by_cases single : (first :: rest).length = 1
    · obtain rfl := List.eq_nil_of_length_eq_zero (Nat.succ.inj single)
      cases final
      exact .inr inside
    · exact .inl single
  obtain ⟨place, found, covers⟩ := holds.lookup_covers head covered
  obtain ⟨x, value, drawn⟩ := holds.value_drawn found covers
  exact ⟨x, value, fun e member => drawn.le_iff covers ordered whole final inside member⟩

/-- Flow sizes with interpolation, in a table that has to grow; the least one has half of the
probability. -/
def fewSizes : List Entry := [⟨1, 0⟩, ⟨1, 1 / 2⟩, ⟨7, 1 / 2⟩, ⟨10, 1⟩]

def smallTable : EmpiricalRandomVariable := { interpolation := .integral, maxEntry := 1 }

theorem fewSizes_ordered : Ordered fewSizes := by
  simp only [Ordered, fewSizes, List.pairwise_cons, List.mem_cons, List.not_mem_nil, or_false,
    forall_eq_or_imp, forall_eq, false_imp_iff, implies_true, List.Pairwise.nil, and_true]
  norm_num

theorem fewSizes_whole : Whole .integral fewSizes := by
  intro _ e member
  simp only [fewSizes, List.mem_cons, List.not_mem_nil, or_false] at member
  rcases member with rfl | rfl | rfl | rfl
  · exact ⟨1, rfl⟩
  · exact ⟨1, rfl⟩
  · exact ⟨7, rfl⟩
  · exact ⟨10, rfl⟩

theorem smallTable_sized : smallTable.Sized :=
  ⟨Nat.one_pos, fun _ none => nomatch none⟩

theorem loadCDF_inverts_fewSizes : ∃ w,
    smallTable.loadCDF (fewSizes.map Entry.line) = some w ∧ w.numEntry = some 4 ∧
      ∀ draw, w.uniform draw ≤ 1 → ∃ x, w.value draw = some x ∧
        ∀ e ∈ fewSizes, LastOfValue fewSizes e → (x ≤ e.val ↔ w.uniform draw ≤ e.cdf) :=
  loadCDF_inverts smallTable fewSizes smallTable_sized fewSizes_ordered fewSizes_whole ⟨10, 1⟩ rfl

/-- Every draw is between the least and the largest value of the file, also where the file's
probabilities end below the largest number that can be drawn, and a larger draw gives no smaller
value. -/
theorem loadCDF_draws_mono (sized : v.Sized) (bounds : v.minCDF ≤ v.maxCDF)
    (ordered : Ordered entries) (whole : Whole v.interpolation entries)
    (several : 1 < entries.length) :
    ∃ w, v.loadCDF (entries.map Entry.line) = some w ∧ ∀ draw more, draw ≤ more →
      ∃ x y, w.value draw = some x ∧ w.value more = some y ∧ x ≤ y ∧
        ∃ smallest ∈ entries, ∃ largest ∈ entries, smallest.val ≤ x ∧ y ≤ largest.val ∧
          ∀ e ∈ entries, smallest.val ≤ e.val ∧ e.val ≤ largest.val := by
  obtain ⟨w, loaded, holds, same⟩ := loadCDF_holds sized entries
  refine ⟨w, loaded, fun draw more le => ?_⟩
  rw [← same.interpolation] at whole
  have le : w.uniform draw ≤ w.uniform more := by
    have wide : 0 ≤ w.maxCDF - w.minCDF := by
      rw [same.minCDF, same.maxCDF]
      linarith
    have := mul_le_mul_of_nonneg_left le wide
    simp only [uniform]
    linarith
  obtain ⟨first, head⟩ : ∃ first, entries[0]? = some first :=
    ⟨_, List.getElem?_eq_getElem (by omega)⟩
  obtain ⟨last, final⟩ : ∃ last, entries.getLast? = some last :=
    ⟨_, List.getLast?_eq_some_getLast (List.ne_nil_of_length_pos (by omega))⟩
  obtain ⟨place, found, covers⟩ :=
    holds.lookup_covers (u := w.uniform draw) head (.inl several.ne')
  obtain ⟨place', found', covers'⟩ :=
    holds.lookup_covers (u := w.uniform more) head (.inl several.ne')
  obtain ⟨x, value, drawn⟩ := holds.value_drawn found covers
  obtain ⟨y, value', drawn'⟩ := holds.value_drawn found' covers'
  exact ⟨x, y, value, value', drawn.mono covers drawn' covers' ordered whole le,
    first, List.mem_of_getElem? head, last, List.mem_of_getLast? final,
    (drawn.range covers ordered whole head final).1,
    (drawn'.range covers' ordered whole head final).2,
    fun e member => ⟨ordered.least head member, ordered.largest final member⟩⟩

theorem loadCDF_draws_mono_fewSizes : ∃ w,
    smallTable.loadCDF (fewSizes.map Entry.line) = some w ∧ ∀ draw more, draw ≤ more →
      ∃ x y, w.value draw = some x ∧ w.value more = some y ∧ x ≤ y ∧
        ∃ smallest ∈ fewSizes, ∃ largest ∈ fewSizes, smallest.val ≤ x ∧ y ≤ largest.val ∧
          ∀ e ∈ fewSizes, smallest.val ≤ e.val ∧ e.val ≤ largest.val :=
  loadCDF_draws_mono smallTable fewSizes smallTable_sized zero_le_one fewSizes_ordered
    fewSizes_whole (by decide)

end Saps.Traffic
