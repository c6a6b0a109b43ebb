import Saps.Classifier.Probing
import Saps.Classifier.Routes

/-!
# When a call has an answer

`classify()` must end with a slot that it has assigned. A table without any slot in
use leaves each branch with a remainder by zero or a loop without an end, and an
elephant that no branch is for gets what the memory of `cl` held.
-/
namespace Saps.Classifier

open CyclicRotation MultiPathForwarder

variable {T τ : Type} (table : SlotTable T τ) (mshift : BitVec 32 → BitVec 32)

/-- A place in the array of slots. -/
def InArray (t : T) (i : Int) : Prop := 0 ≤ i ∧ i < table.nslot t

/-- Whatever the memory of the locals held, the call ends in the array, or with the one value that
stands for no slot. -/
def Defined (c : MultiPathForwarder) (t : T) (p : Packet) : Prop :=
  ∃ noSlot : Int, ∀ held, ∃ answer, c.classify table mshift t held p = some answer ∧
    (InArray table t answer.cl ∨ answer.cl = noSlot)

/-- There is a branch for the packet, and the slots that it looks at before it is on the circle of
`maxslot_ + 1` slots are there. -/
def BranchReads (c : MultiPathForwarder) (t : T) (p : Packet) : Prop :=
  if c.packetSpraying ≠ 0 then
    InArray table t
      (if c.selectiveSpraying ≠ 0 ∧ p.failureDetected ≠ 0 then p.linkID else c.ns)
  else if c.flowcellSpraying ≠ 0 then
    InArray table t p.linkID ∧
      (c.failureCase = 2 → table.maxslot t < p.linkID → InArray table t (p.linkID + 1))
  else if c.perflow ≠ 0 ∨ p.isElephant = 0 then
    c.perflow = 0 → c.K ≠ 0 → p.visitedToR = 1 → InArray table t (unsigned p.aggDecision)
  else False

variable {table mshift} {t : T} {c : MultiPathForwarder} {held : Locals} {p : Packet}
variable {cl ns fail : Int} {turns : Nat}

/-! ### Looking at one slot -/

theorem inUse_eq_none_iff : inUse table t cl = none ↔ ¬ InArray table t cl := by
  rw [inUse]
  split_ifs with there
  · exact iff_of_false id fun out => out there
  · exact iff_of_true rfl there

theorem inArray_of_inUse {used : Bool} (looked : inUse table t cl = some used) :
    InArray table t cl := by
  by_contra out
  rw [inUse_eq_none_iff.mpr out] at looked
  cases looked

theorem exists_inUse (there : InArray table t cl) : ∃ used, inUse table t cl = some used :=
  Option.ne_none_iff_exists'.mp fun missing => inUse_eq_none_iff.mp missing there

theorem slot_of_inUse_true (looked : inUse table t cl = some true) :
    ∃ i : Nat, cl = i ∧ table.slot t i ≠ none := by
  have there := inArray_of_inUse looked
  obtain ⟨i, rfl⟩ := Int.eq_ofNat_of_zero_le there.1
  rw [inUse, if_pos ⟨there.1, there.2⟩, Option.some.injEq] at looked
  exact ⟨i, rfl, Option.isSome_iff_ne_none.mp looked⟩

/-- Behind the last slot in use every slot of the array reads 0. -/
theorem inUse_behind (there : InArray table t cl) (behind : table.maxslot t < cl) :
    inUse table t cl = some false := by
  obtain ⟨used, looked⟩ := exists_inUse there
  rw [looked]
  cases used with
  | false => rfl
  | true =>
    obtain ⟨i, rfl, used⟩ := slot_of_inUse_true looked
    exact absurd (table.le_maxslot t i used) (Int.not_le.mpr behind)

theorem inArray_of_lt_paths {i : Nat} (inside : i < paths table t) : InArray table t i :=
  inArray_of_inUse (inUse_eq inside)

theorem paths_pos_iff : 0 < paths table t ↔ ∃ i, table.slot t i ≠ none := by
  refine ⟨fun positive => ⟨_, table.slot_maxslot t ?_⟩, paths_pos⟩
  rw [paths] at positive
  omega

/-! ### The loops -/

/-- A loop answers with a slot that it has looked at. -/
theorem spin_inArray {stop : Int × Int} (stops : spin table t fail turns cl ns = some stop) :
    InArray table t stop.1 := by
  induction turns generalizing cl ns with
  | zero => cases stops
  | succ turns ih =>
    cases looked : inUse table t cl with
    | none => simp [spin, looked] at stops
    | some used =>
      by_cases go : used = false ∧ ns ≠ fail
      · obtain ⟨rfl, ahead⟩ := go
        cases next : advance table t ns with
        | none => simp [spin, looked, ahead, next] at stops
        | some after =>
          rw [spin_go looked ahead next] at stops
          exact ih stops
      · rw [spin_stop looked (by simpa [or_iff_not_imp_left] using go)] at stops
        cases stops
        exact inArray_of_inUse looked

theorem spin_eq_none (missing : ¬ InArray table t cl) : spin table t fail turns cl ns = none := by
  cases turns with
  | zero => rfl
  | succ turns => simp [spin, inUse_eq_none_iff.mpr missing]

/-- Wherever its mark is, a loop on the circle ends no later than at a slot in use. -/
theorem spin_circle {cl d : Nat} (inside : cl < paths table t)
    (used : usedAt table t ((cl + d) % paths table t) = true) (enough : d < turns) :
    ∃ stop, spin table t fail turns cl ((cl + 1) % paths table t : Nat) = some stop := by
  have positive : 0 < paths table t := by omega
  -- `d` is how far ahead the slot in use is
  induction d generalizing cl turns with
  | zero =>
    obtain ⟨turns, rfl⟩ : ∃ more, turns = more + 1 := ⟨turns - 1, by omega⟩
    rw [Nat.add_zero, Nat.mod_eq_of_lt inside] at used
    exact ⟨_, spin_stop (inUse_eq inside) (.inl used)⟩
  | succ d ih =>
    obtain ⟨turns, rfl⟩ : ∃ more, turns = more + 1 := ⟨turns - 1, by omega⟩
    by_cases go : usedAt table t cl = false ∧ (((cl + 1) % paths table t : Nat) : Int) ≠ fail
    · rw [spin_go (by rw [inUse_eq inside, go.1]) go.2 (advance_eq positive)]
      refine ih (Nat.mod_lt _ positive) ?_ (by omega)
      rw [Nat.mod_add_mod, Nat.add_assoc, Nat.add_comm 1]
      exact used
    · exact ⟨_, spin_stop (inUse_eq inside) (by simpa [or_iff_not_imp_left] using go)⟩

/-- So does a loop that is about to enter the circle. -/
theorem spin_enters (some : ∃ i, table.slot t i ≠ none) (there : InArray table t cl) {next : Nat}
    (inside : next < paths table t) (enough : paths table t < turns) :
    ∃ stop, spin table t fail turns cl next = Option.some stop := by
  obtain ⟨turns, rfl⟩ : ∃ more, turns = more + 1 := ⟨turns - 1, by omega⟩
  obtain ⟨used, looked⟩ := exists_inUse there
  by_cases go : used = false ∧ (next : Int) ≠ fail
  · obtain ⟨r, first⟩ := exists_firstUsed some inside
    obtain ⟨d, below, rfl, -⟩ := first.reached
    rw [spin_go (go.1 ▸ looked) go.2 (advance_eq (by omega))]
    exact spin_circle inside first.marked (by omega)
  · exact ⟨_, spin_stop looked (by simpa [or_iff_not_imp_left] using go)⟩

/-- The loop that stops at a slot in use only ends with one. -/
theorem nextInUse_used {r : Int} (found : nextInUse table t cl = some r) :
    InArray table t cl ∧ ∃ i : Nat, r = i ∧ table.slot t i ≠ none := by
  rw [nextInUse] at found
  split_ifs at found with there
  refine ⟨there, ?_⟩
  cases hit : CyclicSearch.search (paths table t) (fun i => (table.slot t i).isSome)
      (paths table t + 1) cl.toNat with
  | none => simp [hit] at found
  | some i =>
    rw [hit] at found
    cases found
    exact ⟨i, rfl, Option.isSome_iff_ne_none.mp (CyclicSearch.search_eq_some hit)⟩

theorem nextInUse_inArray {r : Int} (found : nextInUse table t cl = some r) :
    InArray table t r := by
  obtain ⟨-, i, rfl, used⟩ := nextInUse_used found
  exact inArray_of_lt_paths (lt_paths used)

theorem nextInUse_ends_iff :
    (∃ r, nextInUse table t cl = some r) ↔ (∃ i, table.slot t i ≠ none) ∧ InArray table t cl := by
  constructor
  · rintro ⟨r, found⟩
    obtain ⟨there, i, -, used⟩ := nextInUse_used found
    exact ⟨⟨i, used⟩, there⟩
  · rintro ⟨some, there⟩
    obtain ⟨i, rfl⟩ := Int.eq_ofNat_of_zero_le there.1
    obtain ⟨r, found, -⟩ := nextInUse_reaches some fun behind => inUse_behind there behind
    exact ⟨r, found⟩

/-! ### The branches -/

theorem map_ends_iff {α β : Type} {x : Option α} {f : α → β} :
    (∃ b, x.map f = some b) ↔ ∃ a, x = some a := by
  cases x <;> simp

/-- Without any slot in use, a loop that has to move on divides by zero. -/
theorem spin_empty (none : ¬ ∃ i, table.slot t i ≠ none) (ahead : ns ≠ fail) :
    spin table t fail turns cl ns = .none := by
  cases turns with
  | zero => rfl
  | succ turns =>
    have empty : paths table t = 0 := Nat.eq_zero_of_not_pos (mt paths_pos_iff.mp none)
    cases looked : inUse table t cl with
    | none => simp [spin, looked]
    | some used =>
      cases used with
      | false => simp [spin, looked, ahead, advance, empty]
      | true =>
        obtain ⟨i, -, used⟩ := slot_of_inUse_true looked
        exact absurd ⟨i, used⟩ none

/-- The loop of selective spraying, which looks at its first slot twice. -/
theorem spin_twice_iff (ahead : paths table t = 0 → cl ≠ fail) :
    (∃ stop, spin table t fail (paths table t + 2) cl cl = some stop) ↔
      (∃ i, table.slot t i ≠ none) ∧ InArray table t cl := by
  constructor
  · rintro ⟨stop, stops⟩
    refine ⟨by_contra fun none => ?_, by_contra fun missing => ?_⟩
    -- with no slot in use there is no circle to go round
    · have empty : paths table t = 0 := Nat.eq_zero_of_not_pos (mt paths_pos_iff.mp none)
      rw [spin_empty none (ahead empty)] at stops
      cases stops
    · rw [spin_eq_none missing] at stops
      cases stops
  · rintro ⟨some, there⟩
    obtain ⟨i, rfl⟩ := Int.eq_ofNat_of_zero_le there.1
    obtain ⟨used, looked⟩ := exists_inUse there
    -- the loop goes on at its first look, and is on the circle from then on, or stops at once
    by_cases go : used = false ∧ (i : Int) ≠ fail
    · have positive := paths_pos some
      rw [spin_go (go.1 ▸ looked) go.2 (advance_eq positive)]
      exact spin_enters some there (Nat.mod_lt _ positive) (by omega)
    · exact ⟨_, spin_stop looked (by simpa [or_iff_not_imp_left] using go)⟩

theorem spray_ends_iff : (∃ a, c.spray table t p = some a) ↔
    (∃ i, table.slot t i ≠ none) ∧ InArray table t
      (if c.selectiveSpraying ≠ 0 ∧ p.failureDetected ≠ 0 then p.linkID else c.ns) := by
  rw [spray]
  by_cases selective : c.selectiveSpraying ≠ 0 ∧ p.failureDetected ≠ 0
  · rw [if_pos selective, if_pos selective, map_ends_iff]
    -- `fail` is `linkID - 1`, so the mark is not where the loop starts
    refine spin_twice_iff fun empty => ?_
    split_ifs <;> omega
  · rw [if_neg selective, if_neg selective]
    -- round robin looks at `ns_`, and only then at slots on the circle
    constructor
    · rintro ⟨a, ends⟩
      obtain ⟨ns, next, ends⟩ := Option.bind_eq_some_iff.mp ends
      obtain ⟨stop, stops, -⟩ := Option.map_eq_some_iff.mp ends
      refine ⟨paths_pos_iff.mp (Nat.pos_of_ne_zero fun empty => ?_), by_contra fun missing => ?_⟩
      · rw [advance, if_pos empty] at next
        cases next
      · rw [spin_eq_none missing] at stops
        cases stops
    · rintro ⟨some, there⟩
      obtain ⟨i, start⟩ := Int.eq_ofNat_of_zero_le there.1
      have positive := paths_pos some
      obtain ⟨stop, stops⟩ := @spin_enters _ _ table t c.ns c.ns (paths table t + 2) some there _
        (Nat.mod_lt (i + 1) positive) (by omega)
      refine ⟨⟨stop.1, { c with ns := stop.2 }, p⟩, ?_⟩
      have next : advance table t c.ns = Option.some (((i + 1) % paths table t : Nat) : Int) := by
        rw [start, advance_eq positive]
      rw [next, Option.bind_eq_bind, Option.bind_some, stops]
      rfl

theorem flowcell_ends_iff : (∃ a, c.flowcell table t p = some a) ↔
    (∃ i, table.slot t i ≠ none) ∧ InArray table t p.linkID ∧
      (c.failureCase = 2 → table.maxslot t < p.linkID → InArray table t (p.linkID + 1)) := by
  rw [flowcell]
  by_cases full : c.failureCase = 2
  · rw [if_pos full, map_ends_iff]
    constructor
    · rintro ⟨stop, stops⟩
      have there : InArray table t p.linkID := by
        by_contra missing
        rw [spin_eq_none missing] at stops
        cases stops
      have some : ∃ i, table.slot t i ≠ none := by
        by_contra none
        rw [spin_empty none (by omega)] at stops
        cases stops
      refine ⟨some, there, fun _ behind => by_contra fun missing => ?_⟩
      obtain ⟨i, start⟩ := Int.eq_ofNat_of_zero_le there.1
      have next : advance table t (p.linkID + 1) =
          Option.some (((i + 1 + 1) % paths table t : Nat) : Int) := by
        rw [start]
        exact advance_eq (paths_pos some)
      rw [spin_go (inUse_behind there behind) (by omega) next, spin_eq_none missing] at stops
      cases stops
    · rintro ⟨some, there, next⟩
      obtain ⟨used, looked⟩ := exists_inUse there
      cases used with
      | true => exact ⟨_, spin_stop looked (.inl rfl)⟩
      | false =>
        obtain ⟨i, start⟩ := Int.eq_ofNat_of_zero_le there.1
        have positive := paths_pos some
        -- the last slot in use is not the one just seen, so there is another behind that one
        have later : InArray table t (p.linkID + 1) := by
          rcases Int.lt_or_le (table.maxslot t) p.linkID with behind | inside
          · exact next full behind
          · have last := table.slot_maxslot t (by omega)
            have unused := slot_of_inUse (start ▸ looked)
            have other : p.linkID ≠ table.maxslot t := by
              intro same
              rw [← same, start] at last
              exact last unused
            have array := table.maxslot_lt_nslot t
            exact ⟨by omega, by omega⟩
        have step : advance table t (p.linkID + 1) =
            Option.some (((i + 1 + 1) % paths table t : Nat) : Int) := by
          rw [start]
          exact advance_eq positive
        rw [spin_go looked (by omega) step]
        exact spin_enters some later (Nat.mod_lt _ positive) (by omega)
  · rw [if_neg full, map_ends_iff, nextInUse_ends_iff]
    simp [full]

theorem ecmp_ends_iff : (∃ a, c.ecmp table mshift t held p = some a) ↔
    (∃ i, table.slot t i ≠ none) ∧
      (c.perflow = 0 → c.K ≠ 0 → p.visitedToR = 1 → InArray table t (unsigned p.aggDecision)) := by
  -- a hash that has been reduced to the circle is in the array, if there is a circle
  have reduced (hash : Nat) (f : Int → Answer) :
      (∃ a, (if paths table t = 0 then none else
        (nextInUse table t (hash % paths table t : Nat)).map f) = some a) ↔
          ∃ i, table.slot t i ≠ none := by
    split_ifs with empty
    · refine iff_of_false (fun ends => nomatch ends.choose_spec) ?_
      rw [← paths_pos_iff, empty]
      exact Nat.lt_irrefl 0
    · rw [map_ends_iff, nextInUse_ends_iff]
      exact and_iff_left (inArray_of_lt_paths (Nat.mod_lt _ (Nat.pos_of_ne_zero empty)))
  rw [ecmp]
  by_cases aware : c.perflow = 0 ∧ c.K ≠ 0
  · rw [if_pos aware]
    by_cases second : p.visitedToR = 1
    · rw [if_pos second, map_ends_iff, nextInUse_ends_iff]
      simp [aware, second]
    · rw [if_neg second, reduced]
      simp [second]
  · rw [if_neg aware, reduced]
    refine (and_iff_left fun perflow aware' => ?_).symm
    exact absurd ⟨perflow, aware'⟩ aware

/-! ### The slot of an answer -/

theorem inArray_of_spin {f : Int × Int → Answer} {a : Answer} (same : ∀ stop, (f stop).cl = stop.1)
    (ends : (spin table t fail turns cl ns).map f = some a) : InArray table t a.cl := by
  obtain ⟨stop, stops, rfl⟩ := Option.map_eq_some_iff.mp ends
  rw [same]
  exact spin_inArray stops

theorem inArray_of_nextInUse {f : Int → Answer} {a : Answer} (same : ∀ r, (f r).cl = r)
    (ends : (nextInUse table t cl).map f = some a) : InArray table t a.cl := by
  obtain ⟨r, found, rfl⟩ := Option.map_eq_some_iff.mp ends
  rw [same]
  exact nextInUse_inArray found

theorem spray_inArray {a : Answer} (ends : c.spray table t p = some a) :
    InArray table t a.cl := by
  rw [spray] at ends
  split_ifs at ends
  · exact inArray_of_spin (fun stop => rfl) ends
  · exact inArray_of_spin (fun stop => rfl) ends
  · obtain ⟨ns, -, ends⟩ := Option.bind_eq_some_iff.mp ends
    exact inArray_of_spin (fun stop => rfl) ends

theorem flowcell_inArray {a : Answer} (ends : c.flowcell table t p = some a) :
    InArray table t a.cl := by
  rw [flowcell] at ends
  split_ifs at ends
  · exact inArray_of_spin (fun stop => rfl) ends
  · exact inArray_of_nextInUse (fun r => rfl) ends

theorem ecmp_inArray {a : Answer} (ends : c.ecmp table mshift t held p = some a) :
    InArray table t a.cl := by
  rw [ecmp] at ends
  split_ifs at ends
  · exact inArray_of_nextInUse (fun r => rfl) ends
  · exact inArray_of_nextInUse (fun r => rfl) ends
  · exact inArray_of_nextInUse (fun r => rfl) ends

/-! ### The call -/

/-- Where a branch takes the packet, a call is defined if the branch ends. -/
theorem defined_iff_branch {branch : Locals → Option Answer} {cond : Prop}
    (call : ∀ held, c.classify table mshift t held p = branch held)
    (ends : ∀ held, (∃ a, branch held = some a) ↔ cond)
    (inside : ∀ held a, branch held = some a → InArray table t a.cl) :
    Defined table mshift c t p ↔ cond := by
  constructor
  · rintro ⟨noSlot, defined⟩
    obtain ⟨a, answer, -⟩ := defined ⟨0, 0⟩
    exact (ends ⟨0, 0⟩).mp ⟨a, call _ ▸ answer⟩
  · intro holds
    refine ⟨0, fun held => ?_⟩
    obtain ⟨a, answer⟩ := (ends held).mpr holds
    exact ⟨a, (call held).trans answer, .inl (inside held a answer)⟩

/-- A call has an answer exactly if a slot is in use and there is a branch for the packet that
reads in the array only. -/
theorem classify_defined_iff (table : SlotTable T τ) (mshift : BitVec 32 → BitVec 32)
    (c : MultiPathForwarder) (t : T) (p : Packet) :
    Defined table mshift c t p ↔ (∃ i, table.slot t i ≠ none) ∧ BranchReads table c t p := by
  by_cases packets : c.packetSpraying = 0
  · by_cases flowcells : c.flowcellSpraying = 0
    · by_cases hashed : c.perflow ≠ 0 ∨ p.isElephant = 0
      · have call (held : Locals) :
            c.classify table mshift t held p = c.ecmp table mshift t held p := by
          rw [classify, if_neg (not_not.mpr packets), if_neg (not_not.mpr flowcells), if_pos]
          exact hashed.imp_right fun mouse => ⟨packets, mouse⟩
        rw [BranchReads, if_neg (not_not.mpr packets), if_neg (not_not.mpr flowcells),
          if_pos hashed]
        exact defined_iff_branch call (fun held => ecmp_ends_iff) fun held a => ecmp_inArray
      · have call (held : Locals) : c.classify table mshift t held p = some ⟨held.cl, c, p⟩ := by
          rw [classify, if_neg (not_not.mpr packets), if_neg (not_not.mpr flowcells), if_neg]
          exact fun branch => hashed (branch.imp_right And.right)
        rw [BranchReads, if_neg (not_not.mpr packets), if_neg (not_not.mpr flowcells),
          if_neg hashed]
        refine iff_of_false ?_ And.right
        -- the memory may have held a value that is neither in the array nor the one for no slot
        rintro ⟨noSlot, defined⟩
        obtain ⟨a, answer, out⟩ := defined ⟨max (table.nslot t) (noSlot + 1), 0⟩
        have slot : a.cl = max (table.nslot t : Int) (noSlot + 1) := by
          cases (call _).symm.trans answer
          rfl
        rcases out with there | same
        · exact absurd there.2 (by omega)
        · omega
    · have call (held : Locals) : c.classify table mshift t held p = c.flowcell table t p := by
        rw [classify, if_neg (not_not.mpr packets), if_pos flowcells]
      rw [BranchReads, if_neg (not_not.mpr packets), if_pos flowcells]
      exact defined_iff_branch call (fun held => flowcell_ends_iff) fun held a => flowcell_inArray
  · have call (held : Locals) : c.classify table mshift t held p = c.spray table t p := by
      rw [classify, if_pos packets]
    rw [BranchReads, if_pos packets]
    exact defined_iff_branch call (fun held => spray_ends_iff) fun held a => spray_inArray

/-- Both links of a node are added and deleted again; the next packet divides by zero. -/
theorem deleted_undefined :
    ∃ node t, ({} : Routes (SlotList Nat) Nat).addRoutes slotArray [7, 8] = some node ∧
      (node.deleteRoutes slotArray [7, 8] 0).mpathClsfr = some t ∧ slotArray.maxslot t = -1 ∧
      ¬ Defined slotArray id { packetSpraying := 1 } t default := by
  refine ⟨_, _, rfl, rfl, by decide, ?_⟩
  rintro ⟨noSlot, defined⟩
  obtain ⟨a, answer, -⟩ := defined ⟨0, 0⟩
  cases answer

end Saps.Classifier
