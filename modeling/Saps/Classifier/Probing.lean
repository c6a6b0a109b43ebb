import Saps.Classifier.PathStability

/-!
# Reaching a live link

Which calls of `classify()` take a slot in use whenever there is one. Flowcell spraying
and ECMP do. The selective loop starts with its mark behind `ns_` and so leaves the last
slot of the circle out.
-/
namespace Saps.Classifier

open CyclicRotation MultiPathForwarder

variable {T τ : Type} (table : SlotTable T τ) (mshift : BitVec 32 → BitVec 32)

/-- The call takes the slot itself if it is in use, and some slot in use in any case. -/
structure Reaches (t : T) (i : Nat) (r : Nat) : Prop where
  used : table.slot t r ≠ none
  itself : table.slot t i ≠ none → r = i

/-- A slot that is not in use is passed over for the next one in use, going round. -/
def ReachesNext (t : T) (i r : Nat) : Prop :=
  table.slot t i = none → First (paths table t) (usedAt table t) ((i + 1) % paths table t) r

/-- The slots behind the last one in use read 0 where the flowcell branch looks at them. -/
def ReadsZeroBehind (c : MultiPathForwarder) (t : T) (i : Nat) : Prop :=
  table.maxslot t < i → inUse table t i = some false ∧
    (c.failureCase = 2 → inUse table t (i + 1) = some false)

/-! ### Flowcell spraying and ECMP -/

variable {table mshift} {t : T} {c : MultiPathForwarder} {i : Nat} {fail : Int}

/-- The loop that stops at a slot in use only. -/
theorem nextInUse_reaches (some : ∃ i, table.slot t i ≠ none)
    (zero : table.maxslot t < i → inUse table t i = .some false) :
    ∃ r : Nat, nextInUse table t i = .some (r : Int) ∧ Reaches table t i r ∧
      ReachesNext table t i r := by
  by_cases unused : table.slot t i = none
  · -- behind the last slot in use it is a premise that the slot reads 0
    have looked : inUse table t i = .some false := by
      rcases Int.lt_or_le (table.maxslot t) i with behind | inside
      · exact zero behind
      · rw [inUse_eq (by rw [paths]; omega), usedAt_eq_false_iff.mpr unused]
    obtain ⟨r, first⟩ := exists_firstUsed some (Nat.mod_lt (i + 1) (paths_pos some))
    exact ⟨r, nextInUse_next some looked first,
      ⟨usedAt_iff.mp first.marked, fun used => absurd unused used⟩, fun _ => first⟩
  · exact ⟨i, nextInUse_self unused, ⟨unused, fun _ => rfl⟩, fun none => absurd none unused⟩

/-- Behind the last slot in use the loop for full failures first leaves the table for the circle;
its mark is not on it. -/
theorem spin_behind (some : ∃ i, table.slot t i ≠ none) (behind : table.maxslot t < i)
    (here : inUse table t i = .some false) (next : inUse table t (i + 1) = .some false) :
    ∃ r : Nat, (spin table t i (paths table t + 2) i (i + 1)).map Prod.fst = .some (r : Int) ∧
      First (paths table t) (usedAt table t) ((i + 2) % paths table t) r := by
  have positive := paths_pos some
  have outside : paths table t ≤ i := by
    rw [paths]
    omega
  -- `ns_` never gets back to the mark, so the loop must stop at a slot in use
  have apart (s : Nat) : ((s % paths table t : Nat) : Int) ≠ i := by
    have below := Nat.mod_lt s positive
    omega
  have inside : (i + 2) % paths table t < paths table t := Nat.mod_lt _ positive
  obtain ⟨r, first⟩ := exists_firstUsed some inside
  refine ⟨r, ?_, first⟩
  have one : advance table t (i + 1) = .some (((i + 2) % paths table t : Nat) : Int) :=
    @advance_eq _ _ table t (i + 1) positive
  rw [spin_go here (by omega) one, spin_go next (apart _) (advance_eq positive),
    spin_first inside first (fun e _ => apart _) le_rfl]
  rfl

theorem flowcell_reaches (some : ∃ i, table.slot t i ≠ none) {p : Packet} (stamped : p.linkID = i)
    (zero : ReadsZeroBehind table c t i) :
    ∃ r : Nat, (c.flowcell table t p).map Answer.cl = .some (r : Int) ∧ Reaches table t i r ∧
      (c.failureCase ≠ 2 → ReachesNext table t i r) := by
  rw [flowcell, stamped]
  split_ifs with full
  · rw [Option.map_map]
    -- behind the last slot in use the loop enters the circle at slot 0
    rcases Int.lt_or_le (table.maxslot t) i with behind | inside
    · obtain ⟨here, next⟩ := zero behind
      obtain ⟨r, stops, first⟩ := spin_behind some behind here (next full)
      exact ⟨r, stops, ⟨usedAt_iff.mp first.marked,
        fun used => absurd (slot_of_inUse here) used⟩, fun other => absurd full other⟩
    · have below : i < paths table t := by
        rw [paths]
        omega
      obtain ⟨r, first⟩ := exists_firstUsed some below
      refine ⟨r, spin_self below first, ⟨usedAt_iff.mp first.marked, fun used => ?_⟩,
        fun other => absurd full other⟩
      exact first.unique below (First.here below (usedAt_iff.mpr used))
  · rw [Option.map_map]
    obtain ⟨r, stops, reaches, next⟩ := nextInUse_reaches some fun behind => (zero behind).1
    exact ⟨r, by rw [stops]; rfl, reaches, fun _ => next⟩

/-- As long as a slot is in use, flowcell spraying and ECMP reach one, and the wanted one if it is
in use. -/
theorem probing_reaches (table : SlotTable T τ) (mshift : BitVec 32 → BitVec 32) (t : T)
    (some : ∃ i, table.slot t i ≠ none) (c : MultiPathForwarder) (held : Locals) (p : Packet) :
    (c.packetSpraying = 0 → c.flowcellSpraying ≠ 0 → ∀ i : Nat, p.linkID = i →
      ReadsZeroBehind table c t i →
        ∃ r : Nat, (c.classify table mshift t held p).map Answer.cl = .some (r : Int) ∧
          Reaches table t i r ∧ (c.failureCase ≠ 2 → ReachesNext table t i r)) ∧
    (ByEcmp c p → c.K = 0 ∨ c.perflow ≠ 0 → ∀ i,
      i = (hashString (c.key mshift held p).bytes).toNat % paths table t →
        ∃ r : Nat, (c.classify table mshift t held p).map Answer.cl = .some (r : Int) ∧
          Reaches table t i r ∧ ReachesNext table t i r) := by
  constructor
  · -- flowcell spraying
    intro packets flowcells i stamped zero
    rw [classify, if_neg (not_not.mpr packets), if_pos flowcells]
    exact flowcell_reaches some stamped zero
  · -- the hash has been reduced to the circle
    rintro byEcmp plain i rfl
    have inside := Nat.mod_lt (hashString (c.key mshift held p).bytes).toNat (paths_pos some)
    rw [classify_cl byEcmp plain, slotOf, if_neg (paths_pos some).ne']
    refine nextInUse_reaches some fun behind => absurd behind ?_
    rw [paths] at inside ⊢
    omega

/-- The slots of a list in the array that a classifier starts with. -/
def slotArray : SlotTable (SlotList Nat) Nat :=
  { slotList Nat with
    nslot := fun t => max 32 t.cells.length
    maxslot_lt_nslot := fun t => by
      have most := Nat.le_max_right 32 t.cells.length
      have last : (slotList Nat).maxslot t = t.cells.length - 1 := rfl
      omega }

/-- The links of slots 0 and 2 are gone. -/
def withHoles : SlotList Nat := ⟨[none, some 7, none, some 8], by decide⟩

theorem probing_reaches_withHoles :
    (∃ r : Nat, (({ flowcellSpraying := 1, failureCase := 2 } : MultiPathForwarder).classify
      slotArray id withHoles ⟨0, 0⟩ { (default : Packet) with linkID := 5 }).map Answer.cl =
        some (r : Int) ∧ Reaches slotArray withHoles 5 r) ∧
    ∃ r : Nat, (({ perflow := 1 } : MultiPathForwarder).classify
      slotArray id withHoles ⟨0, 0⟩ default).map Answer.cl = some (r : Int) ∧
        Reaches slotArray withHoles 0 r ∧ ReachesNext slotArray withHoles 0 r := by
  constructor
  · obtain ⟨r, stops, reaches, -⟩ := (probing_reaches slotArray id withHoles ⟨1, by decide⟩
      { flowcellSpraying := 1, failureCase := 2 } ⟨0, 0⟩
      { (default : Packet) with linkID := 5 }).1 rfl (by decide) 5 rfl
        fun _ => ⟨by decide, fun _ => by decide⟩
    exact ⟨r, stops, reaches⟩
  · exact (probing_reaches slotArray id withHoles ⟨1, by decide⟩ { perflow := 1 } ⟨0, 0⟩
      default).2 ⟨rfl, rfl, .inl (by decide)⟩ (.inl rfl) 0 (by decide)

/-! ### Selective spraying -/

/-- Without its own slot, the selective loop reaches every slot but the one before. -/
theorem spin_selective (some : ∃ i, table.slot t i ≠ none) (unused : table.slot t i = none)
    (inside : i < paths table t)
    (mark : fail = (((i + (paths table t - 1)) % paths table t : Nat) : Int)) :
    ∃ r : Nat, (spin table t fail (paths table t + 2) i i).map Prod.fst = .some (r : Int) ∧
      (table.slot t r ≠ none ↔ ∃ s, table.slot t s ≠ none ∧ (s + 1) % paths table t ≠ i) := by
  obtain ⟨r, first⟩ := exists_firstUsed some inside
  obtain ⟨d, below, rfl, before⟩ := first.reached
  have here : (i + 0) % paths table t = i := by rw [Nat.add_zero, Nat.mod_eq_of_lt inside]
  have positive : 0 < d := by
    rcases Nat.eq_zero_or_pos d with rfl | positive
    · exact absurd unused (usedAt_iff.mp (here ▸ first.marked))
    · exact positive
  have marks (e : Nat) (early : e < paths table t) :
      (((i + e) % paths table t : Nat) : Int) = fail ↔ e = paths table t - 1 := by
    rw [mark, Nat.cast_inj]
    refine ⟨offset_injective early (by omega), ?_⟩
    rintro rfl
    rfl
  have looked : inUse table t i = .some false := by
    rw [inUse_eq inside, usedAt_eq_false_iff.mpr unused]
  have start : (i : Int) ≠ fail := by
    rw [← here, Ne, marks 0 (by omega)]
    omega
  -- `ns_` stays with `cl` in the first turn only
  rw [spin_go looked start (advance_eq (by omega))]
  rcases Nat.lt_or_ge (d + 1) (paths table t) with inner | last
  · -- a slot in use comes before the mark
    have stops := @spin_eq _ _ table t i (paths table t + 1) fail d inside before
      (fun e early => by rw [Nat.add_assoc, Ne, marks _ (by omega)]; omega)
      (.inl first.marked) (by omega)
    refine ⟨(i + d) % paths table t, by rw [stops]; rfl, iff_of_true (usedAt_iff.mp first.marked)
      ⟨_, usedAt_iff.mp first.marked, ?_⟩⟩
    rw [Nat.mod_add_mod, Nat.add_assoc]
    exact turn_ne inside inner
  · -- the only slot in use is the one at the mark
    have stops := @spin_eq _ _ table t i (paths table t + 1) fail (paths table t - 2) inside
      (fun e early => before e (by omega))
      (fun e early => by rw [Nat.add_assoc, Ne, marks _ (by omega)]; omega)
      (.inr (by rw [Nat.add_assoc, marks _ (by omega)]; omega)) (by omega)
    refine ⟨(i + (paths table t - 2)) % paths table t, by rw [stops]; rfl,
      iff_of_false (not_not.mpr (usedAt_eq_false_iff.mp (before _ (by omega)))) ?_⟩
    rintro ⟨s, used, other⟩
    obtain ⟨e, within, rfl⟩ := CyclicSearch.exists_offset inside (lt_paths used)
    rcases Nat.lt_or_ge e d with early | late
    · exact used (usedAt_eq_false_iff.mp (before e early))
    · refine other ?_
      rw [Nat.mod_add_mod, show i + e + 1 = i + paths table t by omega, Nat.add_mod_right,
        Nat.mod_eq_of_lt inside]

/-- A call for selective spraying takes a slot in use, and the wanted one if it is in use, exactly
when that one is in use or some slot other than the one before it. -/
theorem selective_reaches_iff (table : SlotTable T τ) (mshift : BitVec 32 → BitVec 32) (t : T)
    (c : MultiPathForwarder) (packets : c.packetSpraying ≠ 0) (selective : c.selectiveSpraying ≠ 0)
    (held : Locals) (p : Packet) (detected : p.failureDetected ≠ 0) (i : Nat)
    (stamped : p.linkID = i) (inside : (i : Int) ≤ table.maxslot t) :
    (∃ r : Nat, (c.classify table mshift t held p).map Answer.cl = some (r : Int) ∧
      Reaches table t i r) ↔
      table.slot t i ≠ none ∨ ∃ s, table.slot t s ≠ none ∧ (s + 1) % paths table t ≠ i := by
  have last : table.slot t (table.maxslot t).toNat ≠ none := table.slot_maxslot t (by omega)
  have below : i < paths table t := by
    rw [paths]
    omega
  rw [classify, if_pos packets, spray, if_pos ⟨selective, detected⟩, stamped]
  simp only [Option.map_map, Function.comp_def]
  by_cases unused : table.slot t i = none
  · obtain ⟨r, stops, used_iff⟩ := @spin_selective _ _ table t i
      (if (i : Int) - 1 < 0 then (i : Int) - 1 + paths table t else i - 1) ⟨_, last⟩ unused below (by
        -- slot 0 has the last slot of the circle before it
        split_ifs with first
        · rw [Nat.mod_eq_of_lt (by omega)]
          omega
        · rw [show i + (paths table t - 1) = i - 1 + paths table t by omega, Nat.add_mod_right,
            Nat.mod_eq_of_lt (by omega)]
          omega)
    rw [or_iff_right (not_not.mpr unused), ← used_iff]
    constructor
    · rintro ⟨r', stops', reaches⟩
      cases stops.symm.trans stops'
      exact reaches.used
    · intro used
      exact ⟨r, stops, used, fun used => absurd unused used⟩
  · have looked : inUse table t i = some true := by
      rw [inUse_eq below, usedAt_iff.mpr unused]
    rw [spin_stop looked (.inl rfl)]
    exact iff_of_true ⟨i, rfl, unused, fun _ => rfl⟩ (.inl unused)

/-- The link of slot 0 is gone, that of slot 1 is not. -/
def withoutFirst : SlotList Nat := ⟨[none, some 7], by decide⟩

/-- A packet for slot 0 is sent to the empty slot. -/
theorem withoutFirst_missed : (slotList Nat).slot withoutFirst 1 = some 7 ∧
    (slotList Nat).slot withoutFirst 0 = none ∧
    (({ packetSpraying := 1, selectiveSpraying := 1 } : MultiPathForwarder).classify (slotList Nat)
      id withoutFirst ⟨0, 0⟩ { (default : Packet) with failureDetected := 1 }).map Answer.cl =
        some 0 := by
  decide

/-- A packet for slot 1 is sent there. -/
theorem selective_reaches_iff_withoutFirst :
    ((∃ r : Nat, (({ packetSpraying := 1, selectiveSpraying := 1 } : MultiPathForwarder).classify
        (slotList Nat) id withoutFirst ⟨0, 0⟩
          { (default : Packet) with failureDetected := 1 }).map Answer.cl = some (r : Int) ∧
            Reaches (slotList Nat) withoutFirst 0 r) ↔
      (slotList Nat).slot withoutFirst 0 ≠ none ∨
        ∃ s, (slotList Nat).slot withoutFirst s ≠ none ∧ (s + 1) % 2 ≠ 0) ∧
    ∃ r : Nat, (({ packetSpraying := 1, selectiveSpraying := 1 } : MultiPathForwarder).classify
      (slotList Nat) id withoutFirst ⟨0, 0⟩
        { (default : Packet) with failureDetected := 1, linkID := 1 }).map Answer.cl =
          some (r : Int) ∧ Reaches (slotList Nat) withoutFirst 1 r :=
  ⟨selective_reaches_iff (slotList Nat) id withoutFirst
      { packetSpraying := 1, selectiveSpraying := 1 } (by decide) (by decide) ⟨0, 0⟩
      { (default : Packet) with failureDetected := 1 } (by decide) 0 rfl (by decide),
    (selective_reaches_iff (slotList Nat) id withoutFirst
      { packetSpraying := 1, selectiveSpraying := 1 } (by decide) (by decide) ⟨0, 0⟩
      { (default : Packet) with failureDetected := 1, linkID := 1 } (by decide) 1 rfl
      (by decide)).mpr (.inl (by decide))⟩

end Saps.Classifier
