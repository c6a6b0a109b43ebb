import Mathlib.Tactic.Choose
import Saps.Classifier.Probing

/-!
# Random packet spraying

Without selective spraying the calls take turns over the slots in use: `ns_` is
left one behind the slot of the last call, and the next call goes on from there.
-/
namespace Saps.Classifier

open CyclicRotation MultiPathForwarder

variable {T τ : Type} (table : SlotTable T τ) (mshift : BitVec 32 → BitVec 32)
  (c : MultiPathForwarder) (t : T) (held : Nat → Locals) (packets : Nat → Packet)

/-- `|S|`: how many slots are in use. -/
def usedCount : Nat := (paths table t).count fun i => usedAt table t i = true

/-- The classifier after `m` calls. -/
def afterCalls : Nat → Option MultiPathForwarder
  | 0 => some c
  | m + 1 => (afterCalls m).bind fun c =>
      (c.classify table mshift t (held m) (packets m)).map Answer.c

/-- The slot that call `m` answers with. -/
def slotOfCall (m : Nat) : Option Int :=
  (afterCalls table mshift c t held packets m).bind fun c =>
    (c.classify table mshift t (held m) (packets m)).map Answer.cl

variable {table mshift c t held packets} {ns : Nat}

/-- A call takes the first slot in use from `ns_` on and leaves `ns_` behind it. -/
theorem classify_spray (some : ∃ i, table.slot t i ≠ none) (spraying : c.packetSpraying ≠ 0)
    (plain : c.selectiveSpraying = 0) (inside : ns < paths table t) (locals : Locals) (p : Packet) :
    ∃ r : Nat, First (paths table t) (usedAt table t) ns r ∧
      ({ c with ns } : MultiPathForwarder).classify table mshift t locals p =
        .some { cl := r, c := { c with ns := ((r + 1) % paths table t : Nat) }, p } := by
  have positive : 0 < paths table t := by omega
  obtain ⟨r, first⟩ := exists_firstUsed some inside
  refine ⟨r, first, ?_⟩
  -- the mark is where the loop starts
  have stops := @spin_first _ _ table t ns r (paths table t + 2) ns inside first (fun e early => by
    rw [Ne, Nat.cast_inj, Nat.add_assoc]
    exact turn_ne inside early) (by omega)
  have other : ¬(c.selectiveSpraying ≠ 0 ∧ p.failureDetected ≠ 0) := fun both => both.1 plain
  rw [classify, if_pos spraying, spray, if_neg other, advance_eq positive]
  simp only [Option.bind_eq_bind, Option.bind_some, stops, Option.map_some]

theorem afterCalls_returns (some : ∃ i, table.slot t i ≠ none) (spraying : c.packetSpraying ≠ 0)
    (plain : c.selectiveSpraying = 0) (low : 0 ≤ c.ns) (high : c.ns ≤ table.maxslot t) (m : Nat) :
    ∃ ns < paths table t,
      afterCalls table mshift c t held packets m = .some { c with ns := (ns : Int) } := by
  induction m with
  | zero =>
    refine ⟨c.ns.toNat, ?_, ?_⟩
    · rw [paths]
      omega
    · rw [afterCalls, Int.toNat_of_nonneg low]
  | succ m ih =>
    -- `ns_ %= (maxslot_ + 1)` keeps it on the circle
    obtain ⟨ns, inside, reached⟩ := ih
    obtain ⟨r, first, answer⟩ := @classify_spray _ _ table mshift c t ns some spraying plain inside
      (held m) (packets m)
    refine ⟨(r + 1) % paths table t, Nat.mod_lt _ (paths_pos some), ?_⟩
    rw [afterCalls, reached, Option.bind_some, answer, Option.map_some]

/-- Every call takes the first slot in use from the current `ns_` on, and any `|S|` consecutive
calls take each slot in use once. -/
theorem packetSpraying_fair (table : SlotTable T τ) (mshift : BitVec 32 → BitVec 32) (t : T)
    (some : ∃ i, table.slot t i ≠ none) (c : MultiPathForwarder) (spraying : c.packetSpraying ≠ 0)
    (plain : c.selectiveSpraying = 0) (low : 0 ≤ c.ns) (high : c.ns ≤ table.maxslot t)
    (held : Nat → Locals) (packets : Nat → Packet) :
    ∃ ns slot : Nat → Nat, (ns 0 : Int) = c.ns ∧
      (∀ m, afterCalls table mshift c t held packets m = .some { c with ns := (ns m : Int) } ∧
        (ns m : Int) ≤ table.maxslot t ∧
        slotOfCall table mshift c t held packets m = .some (slot m : Int) ∧
        First (paths table t) (usedAt table t) (ns m) (slot m)) ∧
      ∀ m i, table.slot t i ≠ none →
        (usedCount table t).count (fun k => slot (m + k) = i) = 1 := by
  choose ns inside reached using
    @afterCalls_returns _ _ table mshift c t held packets some spraying plain low high
  choose slot first answer using fun m =>
    @classify_spray _ _ table mshift c t (ns m) some spraying plain (inside m) (held m) (packets m)
  have start : (ns 0 : Int) = c.ns := by
    have same := reached 0
    rw [afterCalls, Option.some.injEq] at same
    exact (congrArg MultiPathForwarder.ns same).symm
  have next (m : Nat) : ns (m + 1) = (slot m + 1) % paths table t := by
    have same := reached (m + 1)
    rw [afterCalls, reached, Option.bind_some, answer, Option.map_some, Option.some.injEq] at same
    exact Nat.cast_inj.mp (congrArg MultiPathForwarder.ns same).symm
  refine ⟨ns, slot, start, fun m => ⟨reached m, ?_, ?_, first m⟩, ?_⟩
  · have below := inside m
    rw [paths] at below
    omega
  · rw [slotOfCall, reached, Option.bind_some, answer, Option.map_some]
  · intro m i used
    -- a rotation starts from the slot before `ns_`
    let turn : Nat → Nat := fun k =>
      if k = 0 then ns m + (paths table t - 1) else slot (m + (k - 1))
    have rotates : Rotates (paths table t) (usedAt table t) turn
        (1 * rank (usedAt table t) (paths table t)) := by
      intro k _
      have from_ : (turn k + 1) % paths table t = ns (m + k) := by
        cases k with
        | zero =>
          have below := inside m
          show (ns m + (paths table t - 1) + 1) % paths table t = ns m
          rw [show ns m + (paths table t - 1) + 1 = ns m + paths table t by omega,
            Nat.add_mod_right, Nat.mod_eq_of_lt below]
        | succ k => exact (next (m + k)).symm
      rw [from_]
      exact first (m + k)
    have once := rotates.whole_rounds (lt_paths used) (usedAt_iff.mpr used)
    rwa [Nat.one_mul] at once

/-- Slots 1 and 3 take turns. -/
theorem packetSpraying_fair_withHoles :
    ∃ ns slot : Nat → Nat, (ns 0 : Int) = 2 ∧
      (∀ m, slotOfCall slotArray id { packetSpraying := 1, ns := 2 } withHoles
        (fun _ => ⟨0, 0⟩) (fun _ => default) m = some (slot m : Int)) ∧
      ∀ m, Nat.count (fun k => slot (m + k) = 3) 2 = 1 := by
  obtain ⟨ns, slot, start, calls, once⟩ := packetSpraying_fair slotArray id withHoles
    ⟨1, by decide⟩ { packetSpraying := 1, ns := 2 } (by decide) rfl (by decide) (by decide)
    (fun _ => ⟨0, 0⟩) (fun _ => default)
  exact ⟨ns, slot, start, fun m => (calls m).2.2.1, fun m => once m 3 (by decide)⟩

end Saps.Classifier
