import Mathlib.Data.List.Basic

/-!
# The tokens of a text

A text over any alphabet is cut at its delimiters, and the empty pieces are dropped, so
several delimiters in a row count as one. Words that contain no delimiter come back as
they were put in.
-/
namespace Saps.Tokens

variable {α : Type} (isDelim : α → Bool)

def tokens (text : List α) : List (List α) :=
  (text.splitOnP isDelim).filter fun piece => !piece.isEmpty

/-- A word that can stand in a text. -/
structure Word (word : List α) : Prop where
  filled : word ≠ []
  plain : ∀ c ∈ word, isDelim c = false

variable {isDelim} {word text rest : List α} {d : α}

@[simp] theorem tokens_nil : tokens isDelim [] = [] := by simp [tokens]

theorem tokens_cons_delim (ends : isDelim d = true) :
    tokens isDelim (d :: text) = tokens isDelim text := by
  rw [tokens, List.splitOnP_cons_eq_if_modifyHead, if_pos ends]
  rfl

theorem tokens_word (isWord : Word isDelim word) : tokens isDelim word = [word] := by
  rw [tokens, List.splitOnP_eq_singleton isWord.plain]
  simp [isWord.filled]

/-- A delimiter ends a word. -/
theorem tokens_word_append (isWord : Word isDelim word) (ends : isDelim d = true) :
    tokens isDelim (word ++ d :: rest) = word :: tokens isDelim rest := by
  rw [tokens, List.splitOnP_append_cons_of_forall_mem isWord.plain d ends,
    List.filter_cons_of_pos (by simp [isWord.filled])]
  rfl

end Saps.Tokens
