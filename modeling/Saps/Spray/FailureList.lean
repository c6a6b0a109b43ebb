import Mathlib.Data.List.TakeWhile
import Saps.Library.Outcome
import Saps.Library.Tokens
import Saps.Spray.Config

/-!
# The text form of the failure list

`failedlinks` stores the list as a string, and the first packet of a flow reads it back:
`strtok` on `,` and `;`, `atoi` for each token, and three fields to a link. Accesses
outside the arrays are faults.
-/
namespace Saps.Spray

open Tokens

/-- `struct failedLink`. -/
structure FailedLinkFields where
  leaf : Int
  spine : Int
  failureRatio : Int
deriving DecidableEq, Repr

inductive ParseFault where
  /-- A string is too long for the 100 bytes of its array. -/
  | stringOverflow (length : Nat)
  /-- A field is written behind the end of `failed_link_fields`. -/
  | fieldsOverflow (index : Nat)
  /-- A field is read that was never written. -/
  | unsetField (index : Nat)
  /-- The value of a token is not an `int`. -/
  | notAnInt (token : List Char)
deriving DecidableEq, Repr

/-! ### The C library -/

/-- `strcpy` into a `new char[size]`. -/
def strcpy (size : Nat) (source : List Char) : Except ParseFault (List Char) :=
  if source.length < size then .ok source else .error (.stringOverflow source.length)

def isSpace (c : Char) : Bool := c.toNat = 32 || (9 ≤ c.toNat && c.toNat ≤ 13)

/-- The characters behind the sign, and the sign. -/
def signOf : List Char → Int × List Char
  | '-' :: digits => (-1, digits)
  | '+' :: digits => (1, digits)
  | digits => (1, digits)

def atoi (token : List Char) : Except ParseFault Int :=
  let (sign, digits) := signOf (token.dropWhile isSpace)
  let value := sign * Nat.ofDigitChars 10 (digits.takeWhile Char.isDigit) 0
  if -2 ^ 31 ≤ value ∧ value < 2 ^ 31 then .ok value else .error (.notAnInt token)

def isDelim (c : Char) : Bool := c = ',' || c = ';'

/-- The tokens that `strtok(_, ",;")` returns call by call. -/
def strtok (s : List Char) : List (List Char) := tokens isDelim s

/-! ### The agent -/

/-- The `failedlinks` command, with what it leaves in `allFailedLinks`. -/
def failedlinks (argument : List Char) : Except ParseFault (List Char) := strcpy 100 argument

/-- `failed_link_fields[flink] = atoi(token)` and `flink++`, where the fields before `flink` are
written. -/
def writeField (numFailures : Nat) (fields : List Int) (token : List Char) :
    Except ParseFault (List Int) := do
  let value ← atoi token
  if fields.length < numFailures * 3 then .ok (fields ++ [value])
  else .error (.fieldsOverflow fields.length)

/-- The loop over the tokens. -/
def readFields (numFailures : Nat) (tokens : List (List Char)) : Except ParseFault (List Int) :=
  tokens.foldlM (writeField numFailures) []

def field (fields : List Int) (index : Nat) : Except ParseFault Int :=
  (fields[index]?).elim (.error (.unsetField index)) .ok

def groupField (fields : List Int) (links : List FailedLinkFields) (flink : Nat) :
    Except ParseFault (List FailedLinkFields) := do
  let leaf ← field fields (flink * 3)
  let spine ← field fields (flink * 3 + 1)
  let failureRatio ← field fields (flink * 3 + 2)
  .ok (links ++ [⟨leaf, spine, failureRatio⟩])

/-- The loop that groups the fields by three. -/
def groupFields (numFailures : Nat) (fields : List Int) :
    Except ParseFault (List FailedLinkFields) :=
  (List.range numFailures).foldlM (groupField fields) []

/-- What the first packet makes of `allFailedLinks`. -/
def readFailedLinks (numFailures : Nat) (allFailedLinks : List Char) :
    Except ParseFault (List FailedLinkFields) := do
  let allFLinks ← strcpy 100 allFailedLinks
  let fields ← readFields numFailures (strtok allFLinks)
  groupFields numFailures fields

/-! ### Writing the list -/

/-- A link in decimal, with commas between its fields. -/
def FailedLink.render (f : FailedLink) : List Char :=
  Nat.toDigits 10 f.leaf.toNat ++
    ',' :: (Nat.toDigits 10 f.spine ++ ',' :: Nat.toDigits 10 f.failureRatio)

/-- The links with semicolons between them, and one behind the last if there is a trailing one. -/
def renderList (trailing : Bool) (fs : List FailedLink) : List Char :=
  [';'].intercalate (fs.map FailedLink.render) ++ if trailing then [';'] else []

/-- Fields that are not negative and fit an `int`. -/
structure FailedLink.Fits (f : FailedLink) : Prop where
  leaf_nonneg : 0 ≤ f.leaf
  leaf : f.leaf < 2 ^ 31
  spine : f.spine < 2 ^ 31
  failureRatio : f.failureRatio < 2 ^ 31

def FailedLink.fields (f : FailedLink) : FailedLinkFields := ⟨f.leaf, f.spine, f.failureRatio⟩

/-- The tokens of a link. -/
def FailedLink.words (f : FailedLink) : List (List Char) :=
  [Nat.toDigits 10 f.leaf.toNat, Nat.toDigits 10 f.spine, Nat.toDigits 10 f.failureRatio]

/-- The fields of a link one after the other. -/
def FailedLink.values (f : FailedLink) : List Int := [f.leaf, f.spine, f.failureRatio]

/-! ### Numbers -/

theorem digit_of_toDigits {n : Nat} : ∀ c ∈ Nat.toDigits 10 n, c.isDigit = true :=
  fun _ inside => Nat.isDigit_of_mem_toDigits (by decide) (by decide) inside

/-- A digit is none of the characters that mean something else. -/
theorem digit_plain {c : Char} (digit : c.isDigit = true) :
    isDelim c = false ∧ isSpace c = false ∧ c ≠ '-' ∧ c ≠ '+' := by
  have range : 48 ≤ c.toNat ∧ c.toNat ≤ 57 := by
    simp only [Char.isDigit, Bool.and_eq_true, decide_eq_true_eq] at digit
    exact ⟨digit.1, digit.2⟩
  have other {d : Char} (outside : d.toNat < 48 ∨ 57 < d.toNat) : c ≠ d := by
    rintro rfl
    omega
  refine ⟨?_, ?_, other (by decide), other (by decide)⟩
  · simp [isDelim, other (d := ',') (by decide), other (d := ';') (by decide)]
  · simp only [isSpace, Bool.or_eq_false_iff, Bool.and_eq_false_iff, decide_eq_false_iff_not]
    omega

theorem word_toDigits (n : Nat) : Word isDelim (Nat.toDigits 10 n) where
  filled := Nat.toDigits_ne_nil
  plain := fun c inside => (digit_plain (digit_of_toDigits c inside)).1

theorem atoi_toDigits {n : Nat} (fits : n < 2 ^ 31) : atoi (Nat.toDigits 10 n) = .ok (n : Int) := by
  have digits := @digit_of_toDigits n
  have all : (Nat.toDigits 10 n).takeWhile Char.isDigit = Nat.toDigits 10 n :=
    List.takeWhile_eq_self_iff.mpr digits
  -- no digit is a space or a sign, so all that is read is the number
  have unspaced : (Nat.toDigits 10 n).dropWhile isSpace = Nat.toDigits 10 n := by
    cases written : Nat.toDigits 10 n with
    | nil => rfl
    | cons c rest =>
      rw [written] at digits
      rw [List.dropWhile_cons, (digit_plain (digits c List.mem_cons_self)).2.1]
      rfl
  have unsigned : signOf (Nat.toDigits 10 n) = (1, Nat.toDigits 10 n) := by
    cases written : Nat.toDigits 10 n with
    | nil => rfl
    | cons c rest =>
      rw [written] at digits
      obtain ⟨-, -, minus, plus⟩ := digit_plain (digits c List.mem_cons_self)
      simp [signOf, minus, plus]
  have value : (1 : Int) * Nat.ofDigitChars 10 (Nat.toDigits 10 n) 0 = n := by
    rw [Nat.ofDigitChars_ten_toDigits, Int.one_mul]
  simp only [atoi, unspaced, unsigned, all, value]
  rw [if_pos ⟨by omega, by omega⟩]

/-! ### Tokens -/

theorem strtok_render {f : FailedLink} {rest : List Char} :
    strtok (f.render ++ ';' :: rest) = f.words ++ strtok rest ∧ strtok f.render = f.words := by
  have comma : isDelim ',' = true := by decide
  have semicolon : isDelim ';' = true := by decide
  constructor
  · rw [FailedLink.render, List.append_assoc, List.cons_append, List.append_assoc, List.cons_append,
      strtok, tokens_word_append (word_toDigits _) comma,
      tokens_word_append (word_toDigits _) comma, tokens_word_append (word_toDigits _) semicolon]
    rfl
  · rw [FailedLink.render, strtok, tokens_word_append (word_toDigits _) comma,
      tokens_word_append (word_toDigits _) comma, tokens_word (word_toDigits _)]
    rfl

theorem strtok_renderList (trailing : Bool) (fs : List FailedLink) :
    strtok (renderList trailing fs) = fs.flatMap FailedLink.words := by
  have semicolon : isDelim ';' = true := by decide
  induction fs with
  | nil =>
    cases trailing with
    | false => exact tokens_nil
    | true => exact (tokens_cons_delim semicolon).trans tokens_nil
  | cons f fs ih =>
    cases fs with
    | nil =>
      cases trailing with
      | false => simpa [renderList] using (@strtok_render f []).2
      | true => simpa [renderList, strtok] using (@strtok_render f []).1
    | cons g fs =>
      have apart : renderList trailing (f :: g :: fs) =
          f.render ++ ';' :: renderList trailing (g :: fs) := by
        simp [renderList, List.intercalate]
      rw [apart, strtok_render.1, ih]
      exact List.flatMap_cons.symm

/-! ### Fields -/

theorem writeField_toDigits {n numFailures : Nat} {fields : List Int} (fits : n < 2 ^ 31)
    (room : fields.length < numFailures * 3) :
    writeField numFailures fields (Nat.toDigits 10 n) = .ok (fields ++ [(n : Int)]) := by
  rw [writeField, atoi_toDigits fits]
  exact if_pos room

/-- The loop over the tokens of the list never writes behind the end of the fields. -/
theorem foldlM_words {numFailures : Nat} {fs : List FailedLink} {fields : List Int}
    (fits : ∀ f ∈ fs, f.Fits) (room : fields.length + fs.length * 3 ≤ numFailures * 3) :
    (fs.flatMap FailedLink.words).foldlM (writeField numFailures) fields =
      .ok (fields ++ fs.flatMap FailedLink.values) := by
  induction fs generalizing fields with
  | nil => simp [pure, Except.pure]
  | cons f fs ih =>
    have fit := fits f List.mem_cons_self
    have leaf : ((f.leaf.toNat : Nat) : Int) = f.leaf := Int.toNat_of_nonneg fit.leaf_nonneg
    have small : f.leaf.toNat < 2 ^ 31 := by
      have below := fit.leaf
      omega
    rw [List.length_cons] at room
    have rest := @ih (fields ++ f.values) (fun g inside => fits g (List.mem_cons_of_mem f inside)) (by
      rw [List.length_append, show f.values.length = 3 from rfl]
      omega)
    -- the three fields of this link have room, as `room` counts its cells
    have written : f.words.foldlM (writeField numFailures) fields = .ok (fields ++ f.values) := by
      simp only [FailedLink.words, List.foldlM_cons, List.foldlM_nil]
      rw [writeField_toDigits small (by omega)]
      simp only [bind, Except.bind]
      rw [writeField_toDigits fit.spine (by simp; omega)]
      simp only
      rw [writeField_toDigits fit.failureRatio (by simp; omega), leaf]
      simp [FailedLink.values, pure, Except.pure]
    rw [List.flatMap_cons, List.foldlM_append, written]
    simpa [bind, Except.bind] using rest

/-- The fields of link `j` stand behind those of the `j` links before it. -/
theorem getElem?_values {fs : List FailedLink} {j i : Nat} (part : i < 3) :
    (fs.flatMap FailedLink.values)[j * 3 + i]? = fs[j]?.bind fun f => f.values[i]? := by
  induction fs generalizing j with
  | nil => simp
  | cons f fs ih =>
    have three : f.values.length = 3 := rfl
    rw [List.flatMap_cons]
    cases j with
    | zero => rw [List.getElem?_append_left (by omega), Nat.zero_mul, Nat.zero_add]; rfl
    | succ j =>
      rw [List.getElem?_append_right (by omega), three,
        show (j + 1) * 3 + i - 3 = j * 3 + i by omega, ih, List.getElem?_cons_succ]

theorem field_values {fs : List FailedLink} {j : Nat} {f : FailedLink} (listed : fs[j]? = some f) :
    field (fs.flatMap FailedLink.values) (j * 3) = .ok f.leaf ∧
      field (fs.flatMap FailedLink.values) (j * 3 + 1) = .ok f.spine ∧
      field (fs.flatMap FailedLink.values) (j * 3 + 2) = .ok f.failureRatio := by
  have stands {i : Nat} (part : i < 3) : (fs.flatMap FailedLink.values)[j * 3 + i]? =
      f.values[i]? := by
    rw [getElem?_values part, listed, Option.bind_some]
  refine ⟨?_, ?_, ?_⟩
  · rw [field, ← Nat.add_zero (j * 3), stands (by decide)]
    rfl
  · rw [field, stands (by decide)]
    rfl
  · rw [field, stands (by decide)]
    rfl

theorem groupFields_values (fs : List FailedLink) :
    groupFields fs.length (fs.flatMap FailedLink.values) = .ok (fs.map FailedLink.fields) := by
  -- after `n` turns the first `n` links are grouped
  suffices turns : ∀ n ≤ fs.length, (List.range n).foldlM (groupField (fs.flatMap FailedLink.values))
      [] = .ok ((fs.map FailedLink.fields).take n) by
    rw [groupFields, turns _ (Nat.le_refl _), ← List.map_take, List.take_length]
  intro n within
  induction n with
  | zero => rfl
  | succ n ih =>
    have listed : fs[n]? = some fs[n] := List.getElem?_eq_getElem (by omega)
    obtain ⟨leaf, spine, failureRatio⟩ := field_values listed
    rw [List.range_succ, List.foldlM_append, ih (by omega), List.take_add_one, List.getElem?_map,
      listed]
    simp [bind, Except.bind, pure, Except.pure, groupField, leaf, spine, failureRatio,
      FailedLink.fields]

/-- What the command stores of a list that was written in decimal is read back as the list, and
nothing is accessed outside an array. -/
theorem readFailedLinks_renderList (fs : List FailedLink) (trailing : Bool)
    (fits : ∀ f ∈ fs, f.Fits) (short : (renderList trailing fs).length ≤ 99) :
    (failedlinks (renderList trailing fs) >>= readFailedLinks fs.length) =
      .ok (fs.map FailedLink.fields) := by
  have copied : strcpy 100 (renderList trailing fs) = .ok (renderList trailing fs) :=
    if_pos (by omega)
  have fields : readFields fs.length (fs.flatMap FailedLink.words) =
      .ok (fs.flatMap FailedLink.values) := by
    rw [readFields, foldlM_words fits (by simp), List.nil_append]
  simp only [failedlinks, copied, readFailedLinks, bind, Except.bind, strtok_renderList, fields]
  exact groupFields_values fs

/-- Two links, with a semicolon behind the last. -/
theorem readFailedLinks_twoLinks :
    (failedlinks "0,3,100;11,2,50;".toList >>= readFailedLinks 2) = .ok [⟨0, 3, 100⟩, ⟨11, 2, 50⟩] :=
  readFailedLinks_renderList [⟨0, 3, 100⟩, ⟨11, 2, 50⟩] true (by
    intro f inside
    simp only [List.mem_cons, List.not_mem_nil, or_false] at inside
    rcases inside with rfl | rfl <;> constructor <;> decide) (by decide)

end Saps.Spray
