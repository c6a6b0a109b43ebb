import Mathlib.Algebra.Group.Nat.Even
import Saps.Classifier.PathStability

/-!
# The size-aware hash of a fat tree

A mouse is hashed once, at its ToR switch. The remainder is the slot there, and the
quotient travels in the packet as the slot at the aggregation switch. The hash is
reduced by `K_` first, so the quotient is never more than 1.
-/
namespace Saps.Classifier

open MultiPathForwarder

variable {T τ : Type} (table : SlotTable T τ) (mshift : BitVec 32 → BitVec 32)

/-- A classifier with the size-aware hash for a fat tree. -/
structure SizeAware (K : Nat) (c : MultiPathForwarder) : Prop where
  packets : c.packetSpraying = 0
  flowcells : c.flowcellSpraying = 0
  perflow : c.perflow = 0
  arity : c.K = K

/-- The slots in use are the first `n`. -/
def FirstSlots (n : Nat) (t : T) : Prop := ∀ i, table.slot t i ≠ none ↔ i < n

/-- A mouse that has not been to a switch yet. -/
structure FreshMouse (p : Packet) : Prop where
  mouse : p.isElephant = 0
  fresh : p.visitedToR ≠ 1

/-- The slots that a packet takes at its ToR and then at the aggregation switch. -/
def hops (tor agg : MultiPathForwarder) (t t' : T) (held held' : Locals) (p : Packet) :
    Option (Int × Int) := do
  let first ← tor.classify table mshift t held p
  let second ← agg.classify table mshift t' held' first.p
  some (first.cl, second.cl)

/-- The slots of a mouse are always among the `K / 2` of each switch, and every pair of them is
taken. -/
def UsesEveryPath (K : Nat) (tor agg : MultiPathForwarder) (t t' : T) : Prop :=
  (∀ held held' p, FreshMouse p → ∃ a < K / 2, ∃ b < K / 2,
    hops table mshift tor agg t t' held held' p = some ((a : Int), (b : Int))) ∧
  ∀ a < K / 2, ∀ b < K / 2, ∃ held held' p, FreshMouse p ∧
    hops table mshift tor agg t t' held held' p = some ((a : Int), (b : Int))

variable {table mshift} {K n : Nat} {tor agg : MultiPathForwarder} {t t' : T}
variable {held held' : Locals} {p : Packet}

theorem paths_of_firstSlots (first : FirstSlots table n t) : paths table t = n := by
  rcases Nat.lt_trichotomy (paths table t) n with less | same | more
  · exact absurd (lt_paths ((first _).mpr less)) (Nat.lt_irrefl _)
  · exact same
  · -- the last slot in use would be one too many
    rw [paths] at more
    have last := (first _).mp (table.slot_maxslot t (by omega))
    rw [paths]
    omega

theorem classify_mouse {c : MultiPathForwarder} (sizeAware : SizeAware K c)
    (mouse : p.isElephant = 0) :
    c.classify table mshift t held p = c.ecmp table mshift t held p := by
  rw [classify, if_neg (not_not.mpr sizeAware.packets), if_neg (not_not.mpr sizeAware.flowcells),
    if_pos (.inr ⟨sizeAware.packets, mouse⟩)]

/-! ### The two switches -/

/-- The hash that the ToR makes of a packet, reduced by `K_`. -/
def reduced (mshift : BitVec 32 → BitVec 32) (tor : MultiPathForwarder) (held : Locals)
    (p : Packet) : Nat :=
  (hashString (tor.key mshift held p).bytes).toNat % unsigned tor.K

theorem reduced_lt (sizeAware : SizeAware K tor) (positive : 0 < K) :
    reduced mshift tor held p < K := by
  have word : (hashString (tor.key mshift held p).bytes).toNat < 2 ^ 32 := BitVec.isLt _
  rw [reduced, sizeAware.arity]
  rcases Nat.eq_zero_or_pos (unsigned K) with zero | some
  · -- `K_` would not fit an `int`, but then every hash is below it
    rw [zero, Nat.mod_zero]
    rw [unsigned] at zero
    omega
  · refine (Nat.mod_lt _ some).trans_le ?_
    rw [unsigned]
    omega

theorem classify_tor (sizeAware : SizeAware K tor) (arity : 0 < K)
    (slots : FirstSlots table n t) (positive : 0 < n) (mouse : FreshMouse p) :
    tor.classify table mshift t held p =
      some ⟨(reduced mshift tor held p % n : Nat), tor,
        { p with
          aggDecision := (reduced mshift tor held p / n : Nat)
          visitedToR := 1 }⟩ := by
  have circle := paths_of_firstSlots slots
  have reads : tor.perflow = 0 ∧ tor.K ≠ 0 := ⟨sizeAware.perflow, by rw [sizeAware.arity]; omega⟩
  have used := (slots (reduced mshift tor held p % n)).mpr (Nat.mod_lt _ positive)
  rw [classify_mouse sizeAware mouse.mouse, ecmp, if_pos reads, if_neg mouse.fresh, circle,
    if_neg positive.ne']
  change (nextInUse table t (reduced mshift tor held p % n : Nat)).map _ = _
  rw [nextInUse_self used]
  rfl

theorem classify_agg (sizeAware : SizeAware K agg) (arity : 0 < K)
    (slots : FirstSlots table n t) {b : Nat} (below : b < n) (word : b < 2 ^ 32)
    (mouse : p.isElephant = 0) (visited : p.visitedToR = 1) (decided : p.aggDecision = b) :
    (agg.classify table mshift t held p).map Answer.cl = some (b : Int) := by
  have reads : agg.perflow = 0 ∧ agg.K ≠ 0 := ⟨sizeAware.perflow, by rw [sizeAware.arity]; omega⟩
  have same : unsigned p.aggDecision = b := by
    rw [unsigned, decided]
    omega
  rw [classify_mouse sizeAware mouse, ecmp, if_pos reads, if_pos visited, same,
    nextInUse_self ((slots b).mpr below)]
  rfl

/-- The two slots of a mouse are the remainder and the quotient of one number below `K`. -/
theorem hops_eq (sizeAware : SizeAware K tor) (sizeAware' : SizeAware K agg) (twice : K = 2 * n)
    (slots : FirstSlots table n t) (slots' : FirstSlots table n t') (two : 2 ≤ n)
    (mouse : FreshMouse p) :
    reduced mshift tor held p / n ≤ 1 ∧
      hops table mshift tor agg t t' held held' p =
        some (((reduced mshift tor held p % n : Nat) : Int),
          ((reduced mshift tor held p / n : Nat) : Int)) := by
  have below := @reduced_lt mshift K tor held p sizeAware (by omega)
  have most : reduced mshift tor held p / n < 2 :=
    Nat.div_lt_of_lt_mul (by rwa [Nat.mul_comm, ← twice])
  refine ⟨by omega, ?_⟩
  rw [hops, classify_tor sizeAware (by omega) slots (by omega) mouse, Option.bind_eq_bind,
    Option.bind_some]
  -- the aggregation switch takes what the ToR left in the packet
  obtain ⟨second, answer, slot⟩ := Option.map_eq_some_iff.mp
    (@classify_agg _ _ table mshift K n agg t' held'
      { p with
        aggDecision := (reduced mshift tor held p / n : Nat)
        visitedToR := 1 }
      sizeAware' (by omega) slots' _ (by omega) (by omega) mouse.mouse rfl rfl)
  rw [answer, Option.bind_some, slot]

/-! ### Which paths are used -/

/-- Without source port and with the TTL that the memory holds, a mouse has any hash below
the last one. -/
theorem exists_mouse {hash : Nat} (sizeAware : SizeAware K tor) (fits : hash + 1 < 2 ^ 32) :
    ∃ held p, FreshMouse p ∧ (hashString (tor.key mshift held p).bytes).toNat = hash := by
  obtain ⟨dport, fid, ttl, -, hashed, -⟩ := exists_hash (mshift 0) (mshift 0) fits
  have fresh : (default : Packet).visitedToR ≠ 1 := by decide
  refine ⟨⟨0, ttl⟩, { (default : Packet) with dport, flowid := fid }, ⟨rfl, fresh⟩, ?_⟩
  have unset : ¬ (tor.perflow = 2 ∧ (default : Packet).ptype = .tcp) := by
    rw [sizeAware.perflow]
    decide
  rw [key, if_neg unset]
  exact hashed

/-- Every path is used exactly in the smallest fat tree that has several. -/
theorem usesEveryPath_iff (table : SlotTable T τ) (mshift : BitVec 32 → BitVec 32)
    (even : Even K) (four : 4 ≤ K) (sizeAware : SizeAware K tor) (sizeAware' : SizeAware K agg)
    (slots : FirstSlots table (K / 2) t) (slots' : FirstSlots table (K / 2) t') :
    UsesEveryPath table mshift K tor agg t t' ↔ K = 4 := by
  obtain ⟨n, twice⟩ := even
  have half : K / 2 = n := by omega
  have two : 2 ≤ n := by omega
  rw [half] at slots slots'
  have path {held held' p} (mouse : FreshMouse p) :=
    @hops_eq _ _ table mshift K n tor agg t t' held held' p sizeAware sizeAware' (by omega)
      slots slots' two mouse
  constructor
  · rintro ⟨-, every⟩
    by_contra larger
    -- no mouse gets to the third slot of an aggregation switch
    obtain ⟨held, held', p, mouse, taken⟩ := every 0 (by omega) 2 (by omega)
    obtain ⟨most, slots⟩ := path mouse
    rw [slots, Option.some.injEq, Prod.mk.injEq, Int.natCast_inj, Int.natCast_inj] at taken
    omega
  · rintro rfl
    obtain rfl : n = 2 := by omega
    refine ⟨fun held held' p mouse => ?_, fun a left b right => ?_⟩
    · obtain ⟨most, slots⟩ := path mouse
      exact ⟨_, Nat.mod_lt _ (by decide), _, by omega, slots⟩
    · obtain ⟨held, p, mouse, hashed⟩ :=
        @exists_mouse mshift 4 tor (2 * b + a) sizeAware (by omega)
      refine ⟨held, held, p, mouse, ?_⟩
      have four : reduced mshift tor held p = 2 * b + a := by
        rw [reduced, hashed, sizeAware.arity, show unsigned (4 : Nat) = 4 from rfl]
        omega
      rw [(path mouse).2, four]
      congr 3 <;> omega

/-! ### Four and six ports -/

/-- The classifiers of a fat tree of switches with `K` ports. -/
def fatTree (K : Int) : MultiPathForwarder := { K }

theorem installed_slots {targets : List τ} :
    FirstSlots (slotList τ) targets.length (installed targets) := by
  intro i
  have cells : (installed targets).cells = targets.map some := by
    induction targets using List.reverseRecOn with
    | nil => rfl
    | append_singleton targets target ih =>
      rw [installed, List.foldl_append, List.map_append, ← ih]
      rfl
  change (installed targets).cells[i]?.join ≠ none ↔ _
  rw [cells, List.getElem?_map]
  rcases Nat.lt_or_ge i targets.length with inside | past
  · simp [inside]
  · simp [past]

theorem fourPorts_usesEveryPath :
    UsesEveryPath (slotList Nat) id 4 (fatTree 4) (fatTree 4) (installed [7, 8])
      (installed [7, 8]) :=
  (usesEveryPath_iff (slotList Nat) id (by decide) (Nat.le_refl 4) ⟨rfl, rfl, rfl, rfl⟩
    ⟨rfl, rfl, rfl, rfl⟩ installed_slots installed_slots).mpr rfl

/-- With six ports the third uplink of an aggregation switch gets no mice. -/
theorem sixPorts_unused :
    ¬ UsesEveryPath (slotList Nat) id 6 (fatTree 6) (fatTree 6) (installed [7, 8, 9])
      (installed [7, 8, 9]) := by
  rintro ⟨-, every⟩
  obtain ⟨held, held', p, mouse, taken⟩ := every 0 (by decide) 2 (by decide)
  obtain ⟨most, slots⟩ := @hops_eq _ _ (slotList Nat) id 6 3 (fatTree 6) (fatTree 6)
    (installed [7, 8, 9]) (installed [7, 8, 9]) held held' p ⟨rfl, rfl, rfl, rfl⟩
    ⟨rfl, rfl, rfl, rfl⟩ rfl installed_slots installed_slots (by decide) mouse
  rw [slots, Option.some.injEq, Prod.mk.injEq, Int.natCast_inj, Int.natCast_inj] at taken
  omega

end Saps.Classifier
