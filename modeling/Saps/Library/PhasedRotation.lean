import Mathlib.Tactic.ByContra
import Mathlib.Tactic.Ring
import Saps.Library.CyclicRotation

/-!
# A rotation in two phases

The rotation behind weighted spraying with several degraded members, free of packets.
The members of a circle of `n` are strong, weak or out of use. The strong ones are served
in cyclic order until the round meets the current mark; then each of the `w` weak ones has
one turn, and the mark moves on by `w + r` rounds. The rotation goes on from wherever it
stands in both phases.
-/
namespace Saps.PhasedRotation

open CyclicRotation CyclicSearch

/-- Who was served last, the round in which the weak members are due, and how many of
them have been served since. -/
structure Phase where
  last : Nat
  mark : Nat
  taken : Nat
deriving DecidableEq, Repr

/-- It is the turn of the weak members in round `j`. -/
def weakTurn (j : Nat) (s : Phase) : Bool :=
  decide (j % s.mark = 0) && decide (0 < j) || decide (s.taken ≠ 0)

/-- One more weak member was served; the last one sets the next mark. -/
def takeTurn (r w : Nat) (s : Phase) : Phase :=
  if s.taken + 1 ≥ w then { s with mark := s.mark + (w + r), taken := 0 }
  else { s with taken := s.taken + 1 }

variable (n : Nat) (strong weak : Nat → Bool) (r w : Nat)

/-- Round `j`. A search without success walks round the circle and serves who it started from. -/
def step (j : Nat) (s : Phase) : Phase :=
  let next := (s.last + 1) % n
  if weakTurn j s then
    match search n weak n next with
    | some last => takeTurn r w { s with last }
    | none => { s with last := next }
  else { s with last := (search n strong n next).getD next }

/-- The rotation before round `j`. -/
def rotation : Nat → Phase
  | 0 => { last := n - 1, mark := r, taken := 0 }
  | j + 1 => step n strong weak r w j (rotation j)

/-- Who is served in round `j`. -/
def served (j : Nat) : Nat := (rotation n strong weak r w (j + 1)).last

/-- What a stretch of `r + w` rounds serves that starts with round `c`: each strong member
`R` times in the first `r` rounds, and each weak one once in the last `w`. -/
structure Shares (R : Nat) (link : Nat → Nat) (c : Nat) : Prop where
  strong : ∀ s < n, strong s = true → (r + w).count (fun i => link (c + i) = s) = R ∧
    ∀ i < r + w, link (c + i) = s → i < r
  weak : ∀ s < n, weak s = true → (r + w).count (fun i => link (c + i) = s) = 1 ∧
    ∀ i < r + w, link (c + i) = s → r ≤ i

variable {n strong weak r w} {j t q : Nat} {s : Phase}

/-- Both kinds of rounds make one search, over the members whose turn it is. -/
theorem step_eq {turn : Bool} (decided : weakTurn j s = turn) :
    step n strong weak r w j s =
      (search n (cond turn weak strong) n ((s.last + 1) % n)).elim
        { s with last := (s.last + 1) % n }
        fun last => cond turn (takeTurn r w { s with last }) { s with last } := by
  cases turn with
  | true =>
    simp only [step, decided, if_true, cond_true]
    cases search n weak n ((s.last + 1) % n) <;> rfl
  | false =>
    simp only [step, decided, Bool.false_eq_true, if_false, cond_false]
    cases search n strong n ((s.last + 1) % n) <;> rfl

/-- A round serves the first member on its way whose turn it is. -/
theorem step_first {turn : Bool} (positive : 0 < n)
    (some : ∃ s < n, cond turn weak strong s = true) (decided : weakTurn j s = turn) :
    ∃ last, step n strong weak r w j s =
        cond turn (takeTurn r w { s with last }) { s with last } ∧
      First n (cond turn weak strong) ((s.last + 1) % n) last := by
  have inside : (s.last + 1) % n < n := Nat.mod_lt _ positive
  obtain ⟨last, first⟩ := exists_first inside some
  refine ⟨last, ?_, first⟩
  rw [step_eq decided, first.search_eq inside]
  rfl

theorem step_strong (positive : 0 < n) (some : ∃ s < n, strong s = true)
    (turn : weakTurn j s = false) :
    ∃ last, step n strong weak r w j s = { s with last } ∧
      First n strong ((s.last + 1) % n) last :=
  @step_first n strong weak r w j s false positive some turn

theorem step_weak (positive : 0 < n) (some : ∃ s < n, weak s = true)
    (turn : weakTurn j s = true) :
    ∃ last, step n strong weak r w j s = takeTurn r w { s with last } ∧
      First n weak ((s.last + 1) % n) last :=
  @step_first n strong weak r w j s true positive some turn

theorem step_none (positive : 0 < n) (none : ∀ s < n, weak s = false)
    (turn : weakTurn j s = true) :
    step n strong weak r w j s = { s with last := (s.last + 1) % n } := by
  have missed := (search_eq_none_iff (Nat.mod_lt (s.last + 1) positive)).mpr none
  rw [step_eq turn, cond_true, missed]
  rfl

@[simp] theorem takeTurn_last (s : Phase) : (takeTurn r w s).last = s.last := by
  simp only [takeTurn]
  split <;> rfl

theorem mark_pos (turns : 0 < r) (j : Nat) : 0 < (rotation n strong weak r w j).mark := by
  induction j with
  | zero => exact turns
  | succ j ih =>
    rw [rotation, step]
    split
    · split
      · simp only [takeTurn]
        split
        · exact Nat.add_pos_left ih _
        · exact ih
      · exact ih
    · exact ih

/-! ### Every weak member has its turn -/

/-- The mark and the number of turns taken, by the place of the round in its period. -/
structure InPeriod (r w j : Nat) (s : Phase) : Prop where
  mark : s.mark = j / (r + w) * (r + w) + r
  taken : s.taken = j % (r + w) - r

/-- The weak members have the last `w` rounds of a period. -/
theorem InPeriod.weakTurn_eq (positive : 0 < r) (some : 0 < w) (period : InPeriod r w j s) :
    weakTurn j s = decide (r ≤ j % (r + w)) := by
  have place := Nat.div_add_mod' j (r + w)
  have below := Nat.mod_lt j (show 0 < r + w by omega)
  rw [weakTurn, period.mark, period.taken]
  generalize j / (r + w) * (r + w) = start at *
  generalize j % (r + w) = q at *
  rw [Bool.eq_iff_iff]
  simp only [Bool.or_eq_true, Bool.and_eq_true, decide_eq_true_eq]
  rcases Nat.lt_trichotomy q r with early | now | late
  · have before : j % (start + r) = j := Nat.mod_eq_of_lt (by omega)
    omega
  -- the mark is the round itself: the weak members start
  · have due : j % (start + r) = 0 := by rw [← place, now, Nat.mod_self]
    omega
  · omega

/-- In rounds up to the last of a period the place in it goes up by one. -/
theorem next_place (some : 0 < w) :
    ((j + 1) / (r + w) = j / (r + w) ∧ (j + 1) % (r + w) = j % (r + w) + 1 ∧
        j % (r + w) + 1 < r + w) ∨
      ((j + 1) / (r + w) = j / (r + w) + 1 ∧ (j + 1) % (r + w) = 0 ∧
        j % (r + w) + 1 = r + w) := by
  have place := Nat.div_add_mod' j (r + w)
  have below := Nat.mod_lt j (show 0 < r + w by omega)
  rcases Nat.lt_or_eq_of_le (Nat.succ_le_of_lt below) with inside | last
  · have quotient : (j + 1) / (r + w) = j / (r + w) :=
      Nat.div_eq_of_lt_le (by omega) (by rw [Nat.succ_mul]; omega)
    have place' := Nat.div_add_mod' (j + 1) (r + w)
    rw [quotient] at place'
    exact .inl ⟨quotient, by omega, inside⟩
  · have quotient : (j + 1) / (r + w) = j / (r + w) + 1 :=
      Nat.div_eq_of_lt_le (by rw [Nat.succ_mul]; omega) (by rw [Nat.succ_mul, Nat.succ_mul]; omega)
    have place' := Nat.div_add_mod' (j + 1) (r + w)
    rw [quotient, Nat.succ_mul] at place'
    exact .inr ⟨quotient, by omega, last⟩

theorem InPeriod.takeTurn (some : 0 < w) (late : r ≤ j % (r + w)) (period : InPeriod r w j s) :
    InPeriod r w (j + 1) (takeTurn r w s) := by
  have mark := period.mark
  have taken := period.taken
  simp only [PhasedRotation.takeTurn]
  rcases @next_place r w j some with ⟨quotient, place, inside⟩ | ⟨quotient, place, last⟩
  · rw [if_neg (by omega)]
    exact ⟨by rw [quotient]; exact mark, by rw [place]; dsimp only; omega⟩
  · rw [if_pos (by omega)]
    refine ⟨?_, by rw [place]; simp⟩
    rw [quotient, Nat.succ_mul]
    dsimp only
    omega

theorem InPeriod.strongTurn (some : 0 < w) (early : j % (r + w) < r) (period : InPeriod r w j s)
    (last : Nat) : InPeriod r w (j + 1) { s with last } := by
  have mark := period.mark
  have taken := period.taken
  rcases @next_place r w j some with ⟨quotient, place, -⟩ | ⟨-, -, whole⟩
  · exact ⟨by rw [quotient]; exact mark, by rw [place]; dsimp only; omega⟩
  · omega

/-- There are strong and weak members, each weak one has a turn, and `r` is not 0. -/
structure Mixed (n : Nat) (strong weak : Nat → Bool) (r w : Nat) : Prop where
  someStrong : ∃ s < n, strong s = true
  someWeak : ∃ s < n, weak s = true
  turns : 0 < r
  room : 0 < w

theorem Mixed.positive (mixed : Mixed n strong weak r w) : 0 < n := by
  obtain ⟨s, below, -⟩ := mixed.someStrong
  omega

theorem Mixed.inPeriod (mixed : Mixed n strong weak r w) (j : Nat) :
    InPeriod r w j (rotation n strong weak r w j) := by
  induction j with
  | zero => exact ⟨by simp [rotation], by simp [rotation]⟩
  | succ j ih =>
    have turn := ih.weakTurn_eq mixed.turns mixed.room
    rw [rotation]
    rcases Nat.lt_or_ge (j % (r + w)) r with early | late
    · obtain ⟨last, next, -⟩ := @step_strong n strong weak r w j (rotation n strong weak r w j)
        mixed.positive mixed.someStrong (turn.trans (decide_eq_false (by omega)))
      rw [next]
      exact ih.strongTurn mixed.room early last
    · obtain ⟨last, next, -⟩ := @step_weak n strong weak r w j (rotation n strong weak r w j)
        mixed.positive mixed.someWeak (turn.trans (decide_eq_true late))
      rw [next]
      exact InPeriod.takeTurn (s := { rotation n strong weak r w j with last }) mixed.room late
        ⟨ih.mark, ih.taken⟩

/-- In the first `r` rounds of a period the next strong member is served. -/
theorem Mixed.served_strong (mixed : Mixed n strong weak r w) (early : j % (r + w) < r) :
    First n strong (((rotation n strong weak r w j).last + 1) % n)
      (served n strong weak r w j) := by
  have turn := (mixed.inPeriod j).weakTurn_eq mixed.turns mixed.room
  obtain ⟨last, next, first⟩ := @step_strong n strong weak r w j (rotation n strong weak r w j)
    mixed.positive mixed.someStrong (turn.trans (decide_eq_false (by omega)))
  rw [served, rotation, next]
  exact first

/-- In its other rounds the next weak member is served. -/
theorem Mixed.served_weak (mixed : Mixed n strong weak r w) (late : r ≤ j % (r + w)) :
    First n weak (((rotation n strong weak r w j).last + 1) % n)
      (served n strong weak r w j) := by
  have turn := (mixed.inPeriod j).weakTurn_eq mixed.turns mixed.room
  obtain ⟨last, next, first⟩ := @step_weak n strong weak r w j (rotation n strong weak r w j)
    mixed.positive mixed.someWeak (turn.trans (decide_eq_true late))
  rw [served, rotation, next, takeTurn_last]
  exact first

private theorem place_mod (t : Nat) {i : Nat} (inside : i < r + w) :
    (t * (r + w) + i) % (r + w) = i := by
  rw [Nat.mul_add_mod', Nat.mod_eq_of_lt inside]

/-- With `r` a whole number of rounds over the strong members and `w` one over the weak
ones, every period serves them as intended. -/
theorem Mixed.shares {R : Nat} (mixed : Mixed n strong weak r w) (whole : r = R * rank strong n)
    (each : w = rank weak n) (apart : ∀ s, strong s = true → weak s = false) (t : Nat) :
    Shares n strong weak r w R (served n strong weak r w) (t * (r + w)) := by
  have strongPhase : Rotates n strong (fun k => (rotation n strong weak r w (t * (r + w) + k)).last)
      r := fun i early => mixed.served_strong (by rw [place_mod t (by omega)]; exact early)
  have weakPhase : Rotates n weak
      (fun k => (rotation n strong weak r w (t * (r + w) + (r + k))).last) w := fun i inside =>
    mixed.served_weak (by rw [place_mod t (by omega)]; exact Nat.le_add_right r i)
  have early {i : Nat} (inside : i < r) :
      strong (served n strong weak r w (t * (r + w) + i)) = true := (strongPhase i inside).marked
  have late {i : Nat} (inside : i < w) :
      weak (served n strong weak r w (t * (r + w) + (r + i))) = true := (weakPhase i inside).marked
  refine ⟨fun s below marked => ⟨?_, fun i inside same => ?_⟩,
    fun s below marked => ⟨?_, fun i inside same => ?_⟩⟩
  -- a strong member gets all its turns in the first phase
  · have never : w.count (fun i => served n strong weak r w (t * (r + w) + (r + i)) = s) = 0 := by
      refine Nat.count_iff_forall_not.mpr fun i inside same => ?_
      have isWeak := late inside
      rw [same, apart s marked] at isWeak
      cases isWeak
    rw [Nat.count_add, never, Nat.add_zero]
    subst whole
    exact strongPhase.whole_rounds below marked
  · by_contra after
    obtain ⟨i, rfl⟩ := Nat.exists_eq_add_of_le (Nat.le_of_not_lt after)
    have isWeak := late (i := i) (by omega)
    rw [same, apart s marked] at isWeak
    cases isWeak
  -- a weak one is never served there, and the second phase is one round
  · have never : r.count (fun i => served n strong weak r w (t * (r + w) + i) = s) = 0 := by
      refine Nat.count_iff_forall_not.mpr fun i inside same => ?_
      have isStrong := apart _ (early inside)
      rw [same, marked] at isStrong
      cases isStrong
    rw [Nat.count_add, never, Nat.zero_add]
    have once := Rotates.whole_rounds (R := 1) (by rwa [Nat.one_mul, ← each]) below marked
    rw [Nat.one_mul, ← each] at once
    exact once
  · by_contra before
    have isStrong := apart _ (early (Nat.lt_of_not_le before))
    rw [same, marked] at isStrong
    cases isStrong

/-! ### No member out of use is served -/

/-- There are strong members and no weak ones, and `r` is `R` rounds over the strong ones. -/
structure Lone (n : Nat) (strong weak : Nat → Bool) (r R : Nat) : Prop where
  someStrong : ∃ s < n, strong s = true
  noneWeak : ∀ s < n, weak s = false
  weight : 0 < R
  whole : r = R * rank strong n

namespace Lone

variable {R : Nat}

theorem positive (lone : Lone n strong weak r R) : 0 < n := by
  obtain ⟨s, below, -⟩ := lone.someStrong
  omega

/-- The mark stays, and no turn is taken. -/
theorem idle (lone : Lone n strong weak r R) (j : Nat) :
    (rotation n strong weak r w j).mark = r ∧ (rotation n strong weak r w j).taken = 0 := by
  induction j with
  | zero => exact ⟨rfl, rfl⟩
  | succ j ih =>
    rw [rotation]
    cases turn : weakTurn j (rotation n strong weak r w j) with
    | true =>
      rw [step_none lone.positive lone.noneWeak turn]
      exact ih
    | false =>
      obtain ⟨last, next, -⟩ := @step_strong n strong weak r w j _ lone.positive lone.someStrong turn
      rw [next]
      exact ih

theorem turn_eq (lone : Lone n strong weak r R) (j : Nat) :
    weakTurn j (rotation n strong weak r w j) = (decide (j % r = 0) && decide (0 < j)) := by
  obtain ⟨mark, taken⟩ := @idle n strong weak r w R lone j
  rw [weakTurn, mark, taken]
  simp

/-- Out of turn the next strong member is served. -/
theorem served_strong (lone : Lone n strong weak r R)
    (turn : weakTurn j (rotation n strong weak r w j) = false) :
    First n strong (((rotation n strong weak r w j).last + 1) % n)
      (rotation n strong weak r w (j + 1)).last := by
  obtain ⟨last, next, first⟩ := @step_strong n strong weak r w j _ lone.positive lone.someStrong turn
  rw [rotation, next]
  exact first

/-- In a turn that nobody can take the rotation steps on by one. -/
theorem served_behind (lone : Lone n strong weak r R)
    (turn : weakTurn j (rotation n strong weak r w j) = true) :
    (rotation n strong weak r w (j + 1)).last = ((rotation n strong weak r w j).last + 1) % n := by
  rw [rotation, step_none lone.positive lone.noneWeak turn]

/-- After whole rounds over the strong members the one with the last number was served. -/
theorem rank_last (lone : Lone n strong weak r R) {rounds : Nat} (some : 0 < rounds)
    (place : j = rounds * rank strong n)
    (rotates : Rotates n strong (fun i => (rotation n strong weak r w i).last) j) :
    strong (rotation n strong weak r w j).last = true ∧
      (rotation n strong weak r w j).last < n ∧
      rank strong (rotation n strong weak r w j).last + 1 = rank strong n := by
  obtain ⟨s, below, marked⟩ := lone.someStrong
  have members : 0 < rank strong n := (Nat.zero_le _).trans_lt (rank_lt below marked)
  obtain ⟨K, rfl⟩ : ∃ K, j = K + 1 :=
    Nat.exists_eq_succ_of_ne_zero (place ▸ (Nat.mul_pos some members).ne')
  have first := rotates K (Nat.lt_succ_self K)
  have number := rotates.rank_pick (Nat.lt_succ_self K)
  have start : rank strong (((rotation n strong weak r w 0).last + 1) % n) = 0 := by
    rw [rotation, Nat.sub_add_cancel lone.positive, Nat.mod_self]
    exact Nat.count_zero _
  have whole : (0 + K) % rank strong n + 1 = rank strong n := by
    have wraps : (K + 1) % rank strong n = 0 := by rw [place, Nat.mul_mod_left]
    rw [← Nat.mod_add_mod, next_eq (Nat.mod_lt K members)] at wraps
    rw [Nat.zero_add]
    split_ifs at wraps
    assumption
  rw [start] at number
  exact ⟨first.marked, first.lt, by rw [number, whole]⟩

/-- Between strong ends the steps out of turn go from the last strong member to the first. -/
theorem rotates (lone : Lone n strong weak r R) (firstStrong : strong 0 = true)
    (lastStrong : strong (n - 1) = true) (turns : Nat) :
    Rotates n strong (fun j => (rotation n strong weak r w j).last) turns := by
  have positive := lone.positive
  induction turns with
  | zero => exact fun _ before => absurd before (Nat.not_lt_zero _)
  | succ turns ih =>
    intro j before
    rcases Nat.lt_succ_iff_lt_or_eq.mp before with earlier | rfl
    · exact ih j earlier
    cases turn : weakTurn j (rotation n strong weak r w j) with
    | false => exact lone.served_strong turn
    | true =>
      have due := turn
      rw [lone.turn_eq] at due
      simp only [Bool.and_eq_true, decide_eq_true_eq] at due
      obtain ⟨t, place⟩ := Nat.dvd_of_mod_eq_zero due.1
      -- a turn of the weak members comes after whole rounds over the strong ones
      have rounds : j = t * R * rank strong n := by rw [place, lone.whole]; ring
      have some : 0 < t * R := by
        refine Nat.mul_pos (Nat.pos_of_ne_zero ?_) lone.weight
        rintro rfl
        omega
      obtain ⟨marked, below, last⟩ := lone.rank_last some rounds ih
      have number : rank strong (n - 1) + 1 = rank strong n := by
        conv_rhs => rw [show n = n - 1 + 1 by omega, rank, Nat.count_succ, if_pos lastStrong]
        rfl
      have stands : (rotation n strong weak r w j).last = n - 1 :=
        rank_injective marked lastStrong (by omega)
      have next := lone.served_behind turn
      rw [stands, Nat.sub_add_cancel positive, Nat.mod_self] at next
      simp only [next, stands, Nat.sub_add_cancel positive, Nat.mod_self]
      exact First.here positive firstStrong

end Lone

end Saps.PhasedRotation
