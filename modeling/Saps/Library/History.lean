import Mathlib.Data.List.Basic

/-!
# What the entries of a history keep demanding

A history is a list of entries, oldest first, that a machine only ever extends.
An entry may bind the machine's state until a later entry cancels it; two
entries may have to stand apart unless something between them cancels the first.
-/
namespace Saps.History

variable {ε σ : Type}

/-- Every entry that nothing after it cancelled binds the state. -/
def Standing (cancels : ε → Prop) (binds : List ε → ε → List ε → σ → Prop)
    (history : List ε) (s : σ) : Prop :=
  ∀ earlier e later, history = earlier ++ e :: later → (∀ x ∈ later, ¬ cancels x) →
    binds earlier e later s

/-- Two entries with nothing cancelling between them are `apart`. -/
def Spaced (cancels : ε → Prop) (apart : List ε → ε → List ε → ε → Prop)
    (history : List ε) : Prop :=
  ∀ earlier e between x later, history = earlier ++ e :: (between ++ x :: later) →
    (∀ y ∈ between, ¬ cancels y) → apart earlier e between x

/-- Every entry is right by what the history was when it was recorded. -/
def Justified (right : List ε → ε → Prop) (history : List ε) : Prop :=
  ∀ earlier e later, history = earlier ++ e :: later → right earlier e

theorem append_singleton_eq {history earlier later : List ε} {x e : ε}
    (split : history ++ [x] = earlier ++ e :: later) :
    (later = [] ∧ history = earlier ∧ x = e) ∨
      ∃ rest, later = rest ++ [x] ∧ history = earlier ++ e :: rest := by
  rcases List.eq_nil_or_concat later with rfl | ⟨rest, y, rfl⟩
  · obtain ⟨same, last⟩ := List.append_inj' split rfl
    exact .inl ⟨rfl, same, by simpa using last⟩
  · rw [List.concat_eq_append, ← List.cons_append, ← List.append_assoc] at split
    obtain ⟨same, last⟩ := List.append_inj' split rfl
    obtain rfl : x = y := by simpa using last
    exact .inr ⟨rest, by simp, same⟩

section

variable {cancels : ε → Prop} {binds : List ε → ε → List ε → σ → Prop}
  {apart : List ε → ε → List ε → ε → Prop} {history : List ε} {s t : σ} {x : ε}

theorem standing_nil : Standing cancels binds [] s := by
  intro earlier e later split
  simp at split

theorem spaced_nil : Spaced cancels apart [] := by
  intro earlier e between x later split
  simp at split

theorem justified_nil {right : List ε → ε → Prop} : Justified right [] := by
  intro earlier e later split
  simp at split

theorem Justified.extend {right : List ε → ε → Prop} (old : Justified right history)
    (now : right history x) : Justified right (history ++ [x]) := by
  intro earlier e later split
  rcases append_singleton_eq split with ⟨rfl, rfl, rfl⟩ | ⟨rest, rfl, older⟩
  · exact now
  · exact old earlier e rest older

/-- A step that records nothing keeps what stands if it keeps every single bond. -/
theorem Standing.move (old : Standing cancels binds history s)
    (kept : ∀ earlier e later, binds earlier e later s → binds earlier e later t) :
    Standing cancels binds history t :=
  fun earlier e later split free => kept earlier e later (old earlier e later split free)

/-- A step that records `x` keeps the older bonds `x` does not cancel and takes on its own. -/
theorem Standing.extend (old : Standing cancels binds history s)
    (kept : ∀ earlier e later, history = earlier ++ e :: later → ¬ cancels x →
      binds earlier e later s → binds earlier e (later ++ [x]) t)
    (taken : binds history x [] t) : Standing cancels binds (history ++ [x]) t := by
  intro earlier e later split free
  rcases append_singleton_eq split with ⟨rfl, rfl, rfl⟩ | ⟨rest, rfl, older⟩
  · exact taken
  · have sound := old earlier e rest older (fun y inside => free y (by simp [inside]))
    exact kept earlier e rest older (free x (by simp)) sound

/-- A history stays spaced if the entry recorded next is apart from all that still stands. -/
theorem Spaced.extend (old : Spaced cancels apart history)
    (next : ∀ earlier e later, history = earlier ++ e :: later →
      (∀ y ∈ later, ¬ cancels y) → apart earlier e later x) :
    Spaced cancels apart (history ++ [x]) := by
  intro earlier e between z later split free
  rw [← List.cons_append, ← List.append_assoc] at split
  rcases append_singleton_eq split with ⟨rfl, older, rfl⟩ | ⟨rest, rfl, older⟩
  · exact next earlier e between older free
  · rw [List.append_assoc, List.cons_append] at older
    exact old earlier e between z rest older free

end

end Saps.History
