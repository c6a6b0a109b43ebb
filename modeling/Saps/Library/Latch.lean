import Mathlib.Data.List.Forall2
import Mathlib.Data.List.Induction
import Saps.Library.History

/-!
# A flag that is set and cleared by what happens

Some elements of a history set a flag, some clear it, and one that does both sets
it. The flag is read after every element.
-/
namespace Saps.Latch

open History

variable {α : Type} (sets clears : α → Bool)

def next (on : Bool) (x : α) : Bool := sets x || (on && !clears x)

def after (history : List α) : Bool := history.foldl (next sets clears) false

/-- What the flag reads after each element. -/
def readings (history : List α) : List Bool :=
  (List.range history.length).map fun i => after sets clears (history.take (i + 1))

/-- No element that sets the flag is followed by one that neither sets nor clears it. -/
def Momentary (history : List α) : Prop :=
  ∀ earlier x y later, history = earlier ++ x :: y :: later → sets x = true →
    sets y = true ∨ clears y = true

variable {sets clears} {history : List α} {x : α}

theorem after_append_singleton :
    after sets clears (history ++ [x]) = next sets clears (after sets clears history) x := by
  simp [after]

theorem readings_append_singleton :
    readings sets clears (history ++ [x]) =
      readings sets clears history ++ [after sets clears (history ++ [x])] := by
  simp only [readings]
  rw [List.length_append, List.length_singleton, List.range_succ, List.map_append]
  congr 1
  · apply List.map_congr_left
    intro i inside
    have short : i + 1 ≤ history.length := List.mem_range.mp inside
    rw [List.take_append_of_le_length short]
  · rw [List.map_singleton, List.take_of_length_le (by simp)]

theorem readings_length : (readings sets clears history).length = history.length := by
  simp [readings]

theorem readings_getElem? {i : Nat} {on : Bool} :
    (readings sets clears history)[i]? = some on ↔
      i < history.length ∧ after sets clears (history.take (i + 1)) = on := by
  simp only [readings]
  rw [List.getElem?_map, Option.map_eq_some_iff]
  constructor
  · rintro ⟨j, found, same⟩
    obtain ⟨inside, rfl⟩ := List.getElem?_eq_some_iff.mp found
    simp only [List.length_range, List.getElem_range] at inside same
    exact ⟨inside, same⟩
  · rintro ⟨inside, same⟩
    exact ⟨i, List.getElem?_range inside, same⟩

/-- The flag is on iff something set it and nothing after that cleared it. -/
theorem after_iff : after sets clears history = true ↔
    ∃ earlier x later, history = earlier ++ x :: later ∧ sets x = true ∧
      ∀ y ∈ later, clears y = false := by
  induction history using List.reverseRecOn with
  | nil => simp [after]
  | append_singleton history last ih =>
    simp only [after_append_singleton, next, Bool.or_eq_true, Bool.and_eq_true,
      Bool.not_eq_true', ih]
    constructor
    · rintro (now | ⟨⟨earlier, x, later, rfl, set, kept⟩, uncleared⟩)
      · exact ⟨history, last, [], rfl, now, by simp⟩
      · refine ⟨earlier, x, later ++ [last], by simp, set, ?_⟩
        intro y member
        rcases List.mem_append.mp member with old | new
        · exact kept y old
        · exact List.mem_singleton.mp new ▸ uncleared
    · rintro ⟨earlier, x, later, split, set, kept⟩
      rcases append_singleton_eq split with ⟨rfl, rfl, rfl⟩ | ⟨rest, rfl, older⟩
      · exact .inl set
      · refine .inr ⟨⟨earlier, x, rest, older, set, fun y inside => kept y ?_⟩, kept last ?_⟩
        · exact List.mem_append_left _ inside
        · exact List.mem_append_right _ (List.mem_singleton.mpr rfl)

theorem after_of_sets (set : sets x = true) : after sets clears (history ++ [x]) = true := by
  simp [after_append_singleton, next, set]

/-- Every element that sets the flag shows in its own reading. -/
theorem readings_shown :
    List.Forall₂ (fun x on => sets x = true → on = true) history (readings sets clears history) := by
  induction history using List.reverseRecOn with
  | nil => exact .nil
  | append_singleton history last ih =>
    rw [readings_append_singleton]
    exact List.rel_append ih (.cons after_of_sets .nil)

theorem countP_le_of_shown {on : List Bool}
    (shown : List.Forall₂ (fun x on => sets x = true → on = true) history on) :
    history.countP sets ≤ on.count true := by
  induction shown with
  | nil => simp
  | @cons x on history rest now _ ih =>
    rw [List.countP_cons, List.count_cons]
    by_cases set : sets x = true
    · simpa [set, now set] using ih
    · rw [if_neg set]
      exact Nat.le_add_right_of_le ih

/-- In any stretch the flag reads true at least as often as it is set. -/
theorem countP_stretch_le (j k : Nat) : ((history.take k).drop j).countP sets ≤
    (((readings sets clears history).take k).drop j).count true :=
  countP_le_of_shown (List.forall₂_drop j (List.forall₂_take k readings_shown))

/-! ### Several elements between two readings -/

theorem any_of_foldl_next {xs : List α} {on : Bool} (set : xs.foldl (next sets clears) on = true) :
    xs.any sets = true ∨ on = true ∧ xs.any clears = false := by
  induction xs generalizing on with
  | nil => exact .inr ⟨set, rfl⟩
  | cons x xs ih =>
    rcases ih set with later | ⟨now, kept⟩
    · exact .inl (by simp [later])
    · rw [next, Bool.or_eq_true, Bool.and_eq_true, Bool.not_eq_true'] at now
      rcases now with first | ⟨before, uncleared⟩
      · exact .inl (by simp [first])
      · exact .inr ⟨before, by simp [uncleared, kept]⟩

/-- A flag that takes several elements at once, and is set if any of them sets it, is on whenever
the flag that takes them one by one is. -/
theorem after_of_flatMap {β : Type} {elements : β → List α} {groups : List β}
    (set : after sets clears (groups.flatMap elements) = true) :
    after (fun g => (elements g).any sets) (fun g => (elements g).any clears) groups = true := by
  induction groups using List.reverseRecOn with
  | nil => exact set
  | append_singleton groups last ih =>
    rw [List.flatMap_append, List.flatMap_singleton, after, List.foldl_append] at set
    rw [after_append_singleton, next, Bool.or_eq_true, Bool.and_eq_true, Bool.not_eq_true']
    exact (any_of_foldl_next set).imp_right fun ⟨before, kept⟩ => ⟨ih before, kept⟩

/-! ### When the readings are exactly what was set -/

theorem Momentary.of_append_singleton (momentary : Momentary sets clears (history ++ [x])) :
    Momentary sets clears history := by
  rintro earlier a b later rfl
  exact momentary earlier a b (later ++ [x]) (by simp)

theorem momentary_append_singleton {a : α} :
    Momentary sets clears (history ++ [a] ++ [x]) ↔
      Momentary sets clears (history ++ [a]) ∧ (sets a = true → sets x = true ∨ clears x = true) := by
  constructor
  · intro momentary
    exact ⟨momentary.of_append_singleton, momentary history a x [] (by simp)⟩
  · rintro ⟨older, now⟩ earlier b y later split
    rw [show earlier ++ b :: y :: later = (earlier ++ [b]) ++ y :: later by simp] at split
    -- the pair in question is the last one, or one of the history before
    rcases append_singleton_eq split with ⟨rfl, same, rfl⟩ | ⟨rest, rfl, same⟩
    · obtain ⟨-, last⟩ := List.append_inj' same rfl
      obtain rfl : a = b := by simpa using last
      exact now
    · exact older earlier b y rest (by simpa using same)

/-- On a momentary history the flag only shows whether the last element set it. -/
theorem Momentary.after_eq (momentary : Momentary sets clears (history ++ [x])) :
    after sets clears (history ++ [x]) = sets x := by
  induction history using List.reverseRecOn generalizing x with
  | nil => simp [after, next]
  | append_singleton history a ih =>
    obtain ⟨older, now⟩ := momentary_append_singleton.mp momentary
    rw [after_append_singleton, ih older, next]
    cases set : sets a with
    | false => simp
    | true =>
      rcases now set with again | cleared
      · simp [again]
      · simp [cleared]

theorem Momentary.nil : Momentary sets clears [] := by
  intro earlier x y later split
  simp at split

/-- A longer history is momentary iff the flag only shows whether its last element set it. -/
theorem momentary_iff_after : Momentary sets clears (history ++ [x]) ↔
    Momentary sets clears history ∧ after sets clears (history ++ [x]) = sets x := by
  constructor
  · exact fun momentary => ⟨momentary.of_append_singleton, momentary.after_eq⟩
  · rintro ⟨older, shown⟩
    cases history using List.reverseRecOn with
    | nil =>
      intro earlier a b later split
      have short := congrArg List.length split
      simp only [List.nil_append, List.length_append, List.length_cons, List.length_nil] at short
      omega
    | append_singleton history a =>
      refine momentary_append_singleton.mpr ⟨older, fun set => ?_⟩
      rw [after_append_singleton, next, after_of_sets set] at shown
      cases cleared : clears x with
      | true => exact .inr rfl
      | false => exact .inl (by simpa [cleared] using shown)

theorem Momentary.readings_eq (momentary : Momentary sets clears history) :
    readings sets clears history = history.map sets := by
  induction history using List.reverseRecOn with
  | nil => rfl
  | append_singleton history last ih =>
    rw [readings_append_singleton, ih momentary.of_append_singleton, momentary.after_eq,
      List.map_append, List.map_singleton]

/-- The flag reads true exactly as often as it is set iff no setting outlasts its element. -/
theorem readings_count_eq_iff :
    (readings sets clears history).count true = history.countP sets ↔
      Momentary sets clears history := by
  induction history using List.reverseRecOn with
  | nil => exact iff_of_true (by simp [readings]) Momentary.nil
  | append_singleton history last ih =>
    have most : history.countP sets ≤ (readings sets clears history).count true :=
      countP_le_of_shown readings_shown
    rw [momentary_iff_after, ← ih, readings_append_singleton, List.count_append,
      List.countP_append, List.countP_singleton, List.count_singleton]
    -- the last reading is on whenever its element sets the flag, so neither sum makes up for
    -- the other
    cases set : sets last with
    | true => simp [after_of_sets set]
    | false =>
      cases on : after sets clears (history ++ [last]) with
      | false => simp
      | true =>
        simp only [beq_self_eq_true, if_true, Bool.false_eq_true, if_false, Nat.add_zero,
          Bool.true_eq_false, and_false, iff_false]
        omega

end Saps.Latch
