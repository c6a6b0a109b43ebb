import Mathlib.Data.Nat.Notation

/-!
# Runs of a partial machine driven by a sequence of inputs

A machine is a step function that reads an input in a state and either fails or
answers with the next state and an output. A run is driven by an infinite input
sequence and is defined up to the first input on which the step fails; finite
runs are its prefixes.
-/
namespace Saps.DrivenRun

variable {ι σ ω ε : Type}

theorem bind_eq_ok {α β : Type} {x : Except ε α} {f : α → Except ε β} {b : β} :
    x >>= f = .ok b ↔ ∃ a, x = .ok a ∧ f a = .ok b := by
  cases x <;> simp [bind, Except.bind]

theorem bind_eq_error {α β : Type} {x : Except ε α} {f : α → Except ε β} {fault : ε} :
    x >>= f = .error fault ↔ x = .error fault ∨ ∃ a, x = .ok a ∧ f a = .error fault := by
  cases x <;> simp [bind, Except.bind]

/-- A step that answers nothing but its next state. -/
theorem map_unit_eq_ok {x : Except ε σ} {s : σ} {o : Unit} :
    x.map (·, ()) = .ok (s, o) ↔ x = .ok s := by
  cases x <;> simp [Except.map]

theorem exists_of_isOk {α : Type} {x : Except ε α} (isOk : x.isOk = true) : ∃ a, x = .ok a := by
  cases x with
  | error fault => cases isOk
  | ok a => exact ⟨a, rfl⟩

/-- What a computation finds of the answer holds of an answer there is. -/
theorem exists_of_any {α : Type} {x : Except ε α} {p : α → Bool}
    (holds : x.toOption.any p = true) : ∃ a, x = .ok a ∧ p a = true := by
  cases x with
  | error fault => cases holds
  | ok a => exact ⟨a, rfl, holds⟩

/-- The state in which input `k` is read. -/
def stateAt (step : ι → σ → Except ε (σ × ω)) (start : σ) (inputs : Nat → ι) :
    Nat → Except ε σ
  | 0 => .ok start
  | k + 1 => do
    let s ← stateAt step start inputs k
    let answer ← step (inputs k) s
    pure answer.1

/-- The output that input `k` produces. -/
def outputAt (step : ι → σ → Except ε (σ × ω)) (start : σ) (inputs : Nat → ι)
    (k : Nat) : Except ε ω := do
  let s ← stateAt step start inputs k
  let answer ← step (inputs k) s
  pure answer.2

section

variable {step : ι → σ → Except ε (σ × ω)} {start : σ} {inputs : Nat → ι}

theorem stateAt_succ_iff {k : Nat} {t : σ} :
    stateAt step start inputs (k + 1) = .ok t ↔
      ∃ s o, stateAt step start inputs k = .ok s ∧ step (inputs k) s = .ok (t, o) := by
  simp only [stateAt, bind_eq_ok, pure, Except.pure, Except.ok.injEq]
  constructor
  · rintro ⟨s, hs, ⟨t', o⟩, answer, rfl⟩
    exact ⟨s, o, hs, answer⟩
  · rintro ⟨s, o, hs, answer⟩
    exact ⟨s, hs, (t, o), answer, rfl⟩

theorem outputAt_eq_ok_iff {k : Nat} {o : ω} :
    outputAt step start inputs k = .ok o ↔
      ∃ s t, stateAt step start inputs k = .ok s ∧ step (inputs k) s = .ok (t, o) := by
  simp only [outputAt, bind_eq_ok, pure, Except.pure, Except.ok.injEq]
  constructor
  · rintro ⟨s, hs, ⟨t, o'⟩, answer, rfl⟩
    exact ⟨s, t, hs, answer⟩
  · rintro ⟨s, t, hs, answer⟩
    exact ⟨s, hs, (t, o), answer, rfl⟩

theorem stateAt_eq_error_iff {k : Nat} {fault : ε} :
    stateAt step start inputs k = .error fault ↔
      ∃ j < k, ∃ s, stateAt step start inputs j = .ok s ∧ step (inputs j) s = .error fault := by
  induction k with
  | zero => simp [stateAt]
  | succ k ih =>
    simp only [stateAt, bind_eq_error, ih, pure, Except.pure, reduceCtorEq, and_false, exists_false,
      or_false, Nat.lt_succ_iff_lt_or_eq, or_and_right, exists_or, exists_eq_left]

/-- A run fails at the first step that fails, and at every later one. -/
theorem outputAt_eq_error_iff {k : Nat} {fault : ε} :
    outputAt step start inputs k = .error fault ↔
      ∃ j ≤ k, ∃ s, stateAt step start inputs j = .ok s ∧ step (inputs j) s = .error fault := by
  simp only [outputAt, bind_eq_error, stateAt_eq_error_iff, pure, Except.pure, reduceCtorEq,
    and_false, exists_false, or_false, Nat.le_iff_lt_or_eq, or_and_right, exists_or, exists_eq_left]

/-- What holds before input `m` and is kept by every later step holds ever after. -/
theorem invariant_from {I : Nat → σ → Prop} {m : Nat}
    (initial : ∀ s, stateAt step start inputs m = .ok s → I m s)
    (preserved : ∀ k s t o, m ≤ k → I k s → step (inputs k) s = .ok (t, o) → I (k + 1) t)
    {k : Nat} (after : m ≤ k) {s : σ} (reached : stateAt step start inputs k = .ok s) :
    I k s := by
  induction after generalizing s with
  | refl => exact initial s reached
  | @step k after ih =>
    obtain ⟨r, o, hr, answer⟩ := stateAt_succ_iff.mp reached
    exact preserved k r s o after (ih hr) answer

/-- The invariant rule of a driven run; the invariant may mention the input's number. -/
theorem invariant {I : Nat → σ → Prop} (initial : I 0 start)
    (preserved : ∀ k s t o, I k s → step (inputs k) s = .ok (t, o) → I (k + 1) t)
    {k : Nat} {s : σ} (reached : stateAt step start inputs k = .ok s) : I k s := by
  refine invariant_from (m := 0) ?_ (fun k s t o _ => preserved k s t o) (Nat.zero_le k) reached
  intro s hs
  cases hs
  exact initial

/-- An invariant under which no step fails before input `m` makes the run reach it. -/
theorem progress {I : Nat → σ → Prop} {m : Nat} (initial : I 0 start)
    (advances : ∀ k s, k < m → I k s → ∃ t o, step (inputs k) s = .ok (t, o) ∧ I (k + 1) t)
    {k : Nat} (before : k ≤ m) : ∃ s, stateAt step start inputs k = .ok s ∧ I k s := by
  induction k with
  | zero => exact ⟨start, rfl, initial⟩
  | succ k ih =>
    obtain ⟨s, hs, now⟩ := ih (by omega)
    obtain ⟨t, o, answer, next⟩ := advances k s before now
    exact ⟨t, stateAt_succ_iff.mpr ⟨s, o, hs, answer⟩, next⟩

end

end Saps.DrivenRun
