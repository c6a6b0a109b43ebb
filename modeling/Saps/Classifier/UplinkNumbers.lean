import Mathlib.Data.List.Nodup
import Mathlib.Data.Nat.Find
import Mathlib.Order.Basic
import Saps.Classifier.Loops
import Saps.Classifier.Routes

/-!
# The number of an uplink

Senders and the list of failures name an uplink by the slot in which it was
installed first. Links that come back go behind the last slot in use, so which
link a number leads to depends on every change of routes.
-/
namespace Saps.Classifier

open MultiPathForwarder

variable {T τ : Type} (table : SlotTable T τ) (mshift : BitVec 32 → BitVec 32)

/-- What `classify()` sends the packet to. -/
def delivered (c : MultiPathForwarder) (t : T) (held : Locals) (p : Packet) : Option τ :=
  (c.classify table mshift t held p).bind fun answer => table.slot t answer.cl.toNat

/-! ### Where a number leads -/

/-- The first slot in use from the `i`th on. -/
structure FirstInUse (t : T) (i r : Nat) : Prop where
  ahead : i ≤ r
  used : table.slot t r ≠ none
  unused : ∀ j, i ≤ j → j < r → table.slot t j = none

variable {table mshift} {t : T} {i r : Nat}

theorem exists_firstInUse (used : table.slot t r ≠ none) (ahead : i ≤ r) :
    ∃ first, FirstInUse table t i first := by
  classical
  have some : ∃ r, i ≤ r ∧ table.slot t r ≠ none := ⟨r, ahead, used⟩
  refine ⟨Nat.find some, (Nat.find_spec some).1, (Nat.find_spec some).2, fun j after before => ?_⟩
  by_contra held
  exact Nat.find_min some before ⟨after, held⟩

namespace FirstInUse

/-- The loops go round the circle, but need not do so to get there. -/
theorem onCircle (first : FirstInUse table t i r) :
    CyclicRotation.First (paths table t) (usedAt table t) i r := by
  have ahead := first.ahead
  have below := lt_paths first.used
  refine ⟨usedAt_iff.mpr first.used, r - i, by omega, ?_, fun e early => ?_⟩
  · rw [Nat.add_sub_cancel' ahead, Nat.mod_eq_of_lt below]
  · rw [Nat.mod_eq_of_lt (by omega), usedAt_eq_false_iff]
    exact first.unused _ (by omega) (by omega)

/-- The flowcell branch delivers to the first slot in use from the number on. -/
theorem delivered_eq (first : FirstInUse table t i r) {c : MultiPathForwarder}
    (packets : c.packetSpraying = 0) (flowcells : c.flowcellSpraying ≠ 0) (held : Locals)
    {p : Packet} (stamped : p.linkID = i) :
    delivered table mshift c t held p = table.slot t r := by
  have inside : i < paths table t := first.ahead.trans_lt (lt_paths first.used)
  have cl : (c.classify table mshift t held p).map Answer.cl = some (r : Int) := by
    rw [classify, if_neg (not_not.mpr packets), if_pos flowcells, flowcell, stamped]
    -- both loops stop at the first slot in use from the stamp on
    split_ifs
    · rw [Option.map_map]
      exact spin_self inside first.onCircle
    · rw [nextInUse_first inside first.onCircle]
      rfl
  rw [delivered]
  cases answer : c.classify table mshift t held p with
  | none => rw [answer] at cl; cases cl
  | some answered =>
    rw [answer] at cl
    have same : answered.cl = r := Option.some.inj cl
    rw [Option.bind_some, same, Int.toNat_natCast]

theorem unique {r' : Nat} (first : FirstInUse table t i r) (other : FirstInUse table t i r') :
    r = r' := by
  rcases Nat.lt_trichotomy r r' with before | same | after
  · exact absurd (other.unused r first.ahead before) first.used
  · exact same
  · exact absurd (first.unused r' other.ahead after) other.used

end FirstInUse

/-! ### Changes of routes -/

/-- The links are installed in the slots of their numbers. -/
structure FirstInstalled (table : SlotTable T τ) (links : List τ) (node : Routes T τ) (t : T) :
    Prop where
  multiPath : node.multiPath = true
  mpathClsfr : node.mpathClsfr = some t
  slot : ∀ i, table.slot t i = links[i]?

section

variable {links done : List τ}

theorem maxslot_eq (slots : ∀ i, table.slot t i = links[i]?) :
    table.maxslot t = links.length - 1 := by
  have least := table.neg_one_le_maxslot t
  have last : 0 < links.length → ((links.length - 1 : Nat) : Int) ≤ table.maxslot t := fun some =>
    table.le_maxslot t (links.length - 1) (by
      rw [slots, List.getElem?_eq_getElem (by omega)]
      exact Option.some_ne_none _)
  by_contra other
  have used := table.slot_maxslot t (by omega)
  rw [slots, List.getElem?_eq_none (by omega)] at used
  exact used rfl

theorem slot_foldl_installNext (slots : ∀ i, table.slot t i = done[i]?) (i : Nat) :
    table.slot (links.foldl table.installNext t) i = (done ++ links)[i]? := by
  induction links generalizing t done with
  | nil => rw [List.foldl_nil, List.append_nil, slots]
  | cons link links ih =>
    rw [List.foldl_cons, List.append_cons]
    refine ih fun j => ?_
    rw [table.slot_installNext, maxslot_eq slots, slots, List.getElem?_append]
    split_ifs with last inside inside
    · omega
    · rw [show j - done.length = 0 by omega]
      rfl
    · rfl
    · rw [List.getElem?_eq_none (by omega), List.getElem?_eq_none (by simp; omega)]

theorem firstInstalled_foldl {node : Routes T τ} (multiPath : node.multiPath = true)
    (there : node.mpathClsfr = some t) (slots : ∀ i, table.slot t i = done[i]?) :
    FirstInstalled table (done ++ links) (links.foldl (Routes.installNext table) node)
      (links.foldl table.installNext t) := by
  rw [Routes.foldl_installNext links there]
  exact ⟨multiPath, rfl, slot_foldl_installNext slots⟩

/-- A call of `add-routes` with several links installs them in their order. -/
theorem firstInstalled_addRoutes (several : 2 ≤ links.length) :
    ∃ node t, Routes.addRoutes table links {} = some node ∧ FirstInstalled table links node t := by
  have single : ¬ links.length = 1 := by omega
  let fresh : Routes T τ := { mpathClsfr := some table.create, entry := .multiPath }
  have added : Routes.addRoutes table links {} =
      some (links.foldl (Routes.installNext table) fresh) := by
    simp [Routes.addRoutes, Routes.migrate, single, fresh]
  exact ⟨_, _, added, @firstInstalled_foldl _ _ table _ links [] fresh rfl rfl table.slot_create⟩

/-- A first call with one link and a second one with the others come to the same. -/
theorem firstInstalled_addRoutes_cons {link : τ} :
    ∃ node t, (Routes.addRoutes table [link] {}).bind (Routes.addRoutes table links) = some node ∧
      FirstInstalled table (link :: links) node t := by
  let one := table.installNext table.create link
  let migrated : Routes T τ := { routes := 1, mpathClsfr := some one, entry := .multiPath }
  have added : (Routes.addRoutes table [link] {}).bind (Routes.addRoutes table links) =
      some (links.foldl (Routes.installNext table) migrated) := by
    simp [Routes.addRoutes, Routes.migrate, Routes.addRoute, migrated, one]
  have slots : ∀ i, table.slot one i = [link][i]? :=
    @slot_foldl_installNext _ _ table _ [link] [] table.slot_create
  exact ⟨_, _, added, @firstInstalled_foldl _ _ table _ links [link] migrated rfl rfl slots⟩

end

/-- The links that `add-routes` puts into the slots, the last one first, each with the `maxslot_`
that it finds. -/
def returns (table : SlotTable T τ) (t : T) : List τ → List (τ × Int)
  | [] => []
  | link :: ifs => returns table (table.installNext t link) ifs ++ [(link, table.maxslot t)]

/-- Links go down and come back, in any order and grouping; the log has the returns, the last one
first. -/
inductive Run [DecidableEq τ] (table : SlotTable T τ) (links : List τ) (start : Routes T τ) :
    List (τ × Int) → Routes T τ → Prop
  | start : Run table links start [] start
  | delete {log : List (τ × Int)} {node : Routes T τ} (ifs : List τ) (nullagent : τ) :
      Run table links start log node →
      Run table links start log (node.deleteRoutes table ifs nullagent)
  | add {log : List (τ × Int)} {node next : Routes T τ} {t : T} (ifs : List τ) :
      Run table links start log node → node.mpathClsfr = some t → ifs.Nodup →
      (∀ link ∈ ifs, link ∈ links ∧ ∀ i, table.slot t i ≠ some link) →
      node.addRoutes table ifs = some next →
      Run table links start (returns table t ifs ++ log) next

/-- Where a link is when it is installed: behind the slot that its last return found, or where it
was first. -/
def place [DecidableEq τ] (links : List τ) (log : List (τ × Int)) (link : τ) : Int :=
  match log.lookup link with
  | some found => found + 1
  | none => links.idxOf link

/-- What every run keeps. -/
structure Placed [DecidableEq τ] (table : SlotTable T τ) (links : List τ) (t : T)
    (log : List (τ × Int)) : Prop where
  known : ∀ i link, table.slot t i = some link → link ∈ links
  placed : ∀ (i : Nat) link, table.slot t i = some link → place links log link = i
  -- the slot before the link was not empty when it was installed
  behind : ∀ i link, table.slot t i = some link → 0 < i →
    ∃ other ∈ links, other ≠ link ∧ ∀ j, table.slot t j = some other → j + 1 = i ∨ i < j

namespace Placed

variable [DecidableEq τ] {links : List τ} {log : List (τ × Int)} {link : τ}

theorem first {node : Routes T τ} (first : FirstInstalled table links node t)
    (distinct : links.Nodup) : Placed table links t [] := by
  have number : ∀ i link, table.slot t i = some link → links[i]? = some link :=
    fun i link held => first.slot i ▸ held
  have unique : ∀ i link, links[i]? = some link → links.idxOf link = i := fun i link held => by
    obtain ⟨inside, rfl⟩ := List.getElem?_eq_some_iff.mp held
    exact distinct.idxOf_getElem i inside
  refine ⟨fun i link held => List.mem_of_getElem? (number i link held), ?_, ?_⟩
  · intro i link held
    exact congrArg Nat.cast (unique i link (number i link held))
  · intro i link held positive
    obtain ⟨inside, -⟩ := List.getElem?_eq_some_iff.mp (number i link held)
    refine ⟨links[i - 1], List.getElem_mem _, ?_, ?_⟩
    -- the links are distinct, so the link of the slot before is another one
    · rintro rfl
      have same := unique i _ (number i _ held)
      rw [distinct.idxOf_getElem] at same
      omega
    · intro j there
      have same := unique j _ (number j _ there)
      rw [distinct.idxOf_getElem] at same
      omega

theorem shrink {t' : T} (placed : Placed table links t log)
    (fewer : ∀ i link, table.slot t' i = some link → table.slot t i = some link) :
    Placed table links t' log where
  known i link held := placed.known i link (fewer i link held)
  placed i link held := placed.placed i link (fewer i link held)
  behind i link held positive := by
    obtain ⟨other, member, differs, before⟩ := placed.behind i link (fewer i link held) positive
    exact ⟨other, member, differs, fun j there => before j (fewer j other there)⟩

theorem installNext (placed : Placed table links t log) (member : link ∈ links)
    (unused : ∀ i, table.slot t i ≠ some link) :
    Placed table links (table.installNext t link) ((link, table.maxslot t) :: log) := by
  -- what a slot of the new table holds is the new link, or an old one
  have cases : ∀ (i : Nat) other, table.slot (table.installNext t link) i = some other →
      (i = table.maxslot t + 1 ∧ other = link) ∨
        (table.slot t i = some other ∧ i ≤ table.maxslot t ∧ other ≠ link) := by
    intro i other held
    rw [table.slot_installNext] at held
    split_ifs at held with new
    · exact .inl ⟨new, (Option.some.inj held).symm⟩
    · refine .inr ⟨held, table.le_maxslot t i (by simp [held]), ?_⟩
      rintro rfl
      exact unused i held
  refine ⟨fun i other held => ?_, fun i other held => ?_, fun i other held positive => ?_⟩
  · rcases cases i other held with ⟨-, rfl⟩ | ⟨old, -, -⟩
    · exact member
    · exact placed.known i other old
  · rcases cases i other held with ⟨new, rfl⟩ | ⟨old, -, differs⟩
    · simp [place, new]
    · have kept := placed.placed i other old
      rwa [place, List.lookup_cons, beq_eq_false_iff_ne.mpr differs]
  · rcases cases i other held with ⟨new, rfl⟩ | ⟨old, inside, -⟩
    · -- the last slot in use is right before it
      have last : table.slot t (table.maxslot t).toNat ≠ none := table.slot_maxslot t (by omega)
      obtain ⟨before, there⟩ := Option.ne_none_iff_exists'.mp last
      refine ⟨before, placed.known _ _ there, ?_, fun j held' => ?_⟩
      · rintro rfl
        exact unused _ there
      · rcases cases j before held' with ⟨-, rfl⟩ | ⟨old, -, -⟩
        · exact absurd there (unused _)
        · have here := placed.placed j before old
          rw [placed.placed _ before there] at here
          omega
    · obtain ⟨before, known, differs, there⟩ := placed.behind i other old positive
      refine ⟨before, known, differs, fun j held' => ?_⟩
      rcases cases j before held' with ⟨new, -⟩ | ⟨old, -, -⟩
      · omega
      · exact there j old

theorem foldl_installNext {ifs : List τ} (placed : Placed table links t log) (distinct : ifs.Nodup)
    (back : ∀ link ∈ ifs, link ∈ links ∧ ∀ i, table.slot t i ≠ some link) :
    Placed table links (ifs.foldl table.installNext t) (returns table t ifs ++ log) := by
  induction ifs generalizing t log with
  | nil => exact placed
  | cons link ifs ih =>
    obtain ⟨new, distinct⟩ := List.nodup_cons.mp distinct
    obtain ⟨member, unused⟩ := back link List.mem_cons_self
    rw [List.foldl_cons, returns, List.append_assoc]
    refine ih (placed.installNext member unused) distinct fun other inside => ?_
    obtain ⟨known, absent⟩ := back other (List.mem_cons_of_mem _ inside)
    refine ⟨known, fun i => ?_⟩
    rw [table.slot_installNext]
    split_ifs
    · rintro ⟨rfl⟩
      exact new inside
    · exact absent i

end Placed

theorem Run.placed [DecidableEq τ] {links : List τ} {start node : Routes T τ}
    {log : List (τ × Int)} (first : FirstInstalled table links start t) (distinct : links.Nodup)
    (run : Run table links start log node) : node.multiPath = true ∧
      ∃ t, node.mpathClsfr = some t ∧ Placed table links t log := by
  induction run with
  | start => exact ⟨first.multiPath, t, first.mpathClsfr, .first first distinct⟩
  | delete ifs nullagent _ ih =>
    obtain ⟨multiPath, t, there, placed⟩ := ih
    obtain ⟨t', after, slots, same⟩ := Routes.deleteRoutes_of_mpathClsfr there
    refine ⟨same.trans multiPath, t', after, placed.shrink fun i link held => ?_⟩
    exact ((slots i link).mp held).1
  | add ifs _ there distinct back answer ih =>
    obtain ⟨multiPath, t', there', placed⟩ := ih
    cases there.symm.trans there'
    rw [Routes.addRoutes_of_mpathClsfr multiPath there] at answer
    cases answer
    exact ⟨multiPath, _, rfl, placed.foldl_installNext distinct back⟩

/-! ### What a number means after the changes -/

/-- Every number leads to the link that was in its slot first. -/
structure KeepsNumbers (table : SlotTable T τ) (mshift : BitVec 32 → BitVec 32)
    (c : MultiPathForwarder) (links : List τ) (t : T) : Prop where
  own : ∀ (k : Nat) (inside : k < links.length) (held : Locals) (p : Packet), p.linkID = k →
    delivered table mshift c t held p = some links[k]
  apart : ∀ (j k : Nat) (held held' : Locals) (p q : Packet), j < links.length →
    k < links.length → j ≠ k → p.linkID = j → q.linkID = k →
    delivered table mshift c t held p ≠ delivered table mshift c t held' q

section

variable {links : List τ} {c : MultiPathForwarder}

theorem exists_ahead (distinct : links.Nodup)
    (again : ∀ link ∈ links, ∃ i, table.slot t i = some link) {k : Nat}
    (inside : k < links.length) : ∃ i, k ≤ i ∧ table.slot t i ≠ none := by
  by_contra none
  -- all the links would be in the first `k` slots
  have crowded : links ⊆ (List.range k).filterMap (table.slot t) := by
    intro link member
    obtain ⟨i, held⟩ := again link member
    refine List.mem_filterMap.mpr ⟨i, List.mem_range.mpr ?_, held⟩
    by_contra ahead
    exact none ⟨i, by omega, by simp [held]⟩
  have fewer := distinct.length_le_of_subset crowded
  have most := List.length_filterMap_le (table.slot t) (List.range k)
  rw [List.length_range] at most
  omega

theorem keepsNumbers_iff (distinct : links.Nodup)
    (again : ∀ link ∈ links, ∃ i, table.slot t i = some link) (packets : c.packetSpraying = 0)
    (flowcells : c.flowcellSpraying ≠ 0) : KeepsNumbers table mshift c links t ↔
      ∀ k (inside : k < links.length),
        ∃ r, FirstInUse table t k r ∧ table.slot t r = some links[k] := by
  constructor
  · intro keeps k inside
    obtain ⟨i, ahead, used⟩ := exists_ahead distinct again inside
    obtain ⟨r, first⟩ := exists_firstInUse used ahead
    refine ⟨r, first, ?_⟩
    rw [← keeps.own k inside ⟨0, 0⟩ { (default : Packet) with linkID := k } rfl]
    exact (first.delivered_eq packets flowcells _ rfl).symm
  · intro firsts
    have own : ∀ (k : Nat) (inside : k < links.length) (held : Locals) (p : Packet), p.linkID = k →
        delivered table mshift c t held p = some links[k] := by
      intro k inside held p stamped
      obtain ⟨r, first, slot⟩ := firsts k inside
      rw [first.delivered_eq packets flowcells held stamped, slot]
    -- two links behind one slot would have the same number
    refine ⟨own, fun j k held held' p q left right differs stamped stamped' same => ?_⟩
    rw [own j left held p stamped, own k right held' q stamped'] at same
    exact differs ((distinct.getElem_inj_iff).mp (Option.some.inj same))

/-- All but the last number cannot lead past their own slot without taking the next link's; the
last one cannot because the slot before its link was not empty when it came back. -/
theorem Placed.eq_number [DecidableEq τ] {log : List (τ × Int)} (placed : Placed table links t log)
    (distinct : links.Nodup) (firsts : ∀ k (inside : k < links.length),
      ∃ r, FirstInUse table t k r ∧ table.slot t r = some links[k]) {k r : Nat}
    (inside : k < links.length) (first : FirstInUse table t k r)
    (slot : table.slot t r = some links[k]) : r = k := by
  -- behind a number that is not the last one there is no room to be moved to
  have inner : ∀ (k r : Nat) (inside : k + 1 < links.length), FirstInUse table t k r →
      table.slot t r = some links[k] → r = k := by
    intro k r inside first slot
    by_contra past
    have ahead := first.ahead
    obtain ⟨r', next, slot'⟩ := firsts (k + 1) inside
    have same : r = r' :=
      FirstInUse.unique ⟨by omega, first.used, fun j after => first.unused j (by omega)⟩ next
    rw [same, slot'] at slot
    have equal := distinct.getElem_inj_iff.mp (Option.some.inj slot)
    omega
  have ahead := first.ahead
  by_contra past
  -- otherwise the link was put right behind another one, which is in its place
  obtain ⟨other, member, differs, before⟩ := placed.behind r _ slot (by omega)
  obtain ⟨j, below, rfl⟩ := List.getElem_of_mem member
  obtain ⟨r', first', slot'⟩ := firsts j below
  have apart : j ≠ k := by
    rintro rfl
    exact differs rfl
  rcases Nat.lt_or_ge (k + 1) links.length with more | last
  · exact past (inner k r more first slot)
  · rw [inner j r' (by omega) first' slot'] at slot'
    have side := before j slot'
    omega

/-- Once all the links are installed again, their numbers have kept their meaning exactly if the
last return of each link found the slots up to its own number filled, and no more. -/
theorem keepsNumbers_iff_returns [DecidableEq τ] {start node : Routes T τ} {t₀ t : T}
    {log : List (τ × Int)} (distinct : links.Nodup)
    (installed : FirstInstalled table links start t₀) (run : Run table links start log node)
    (there : node.mpathClsfr = some t) (again : ∀ link ∈ links, ∃ i, table.slot t i = some link)
    (packets : c.packetSpraying = 0) (flowcells : c.flowcellSpraying ≠ 0) :
    KeepsNumbers table mshift c links t ↔
      ∀ k (inside : k < links.length) found, log.lookup links[k] = some found → found = k - 1 := by
  obtain ⟨-, t', there', placed⟩ := run.placed installed distinct
  cases there.symm.trans there'
  rw [keepsNumbers_iff distinct again packets flowcells]
  constructor
  · intro firsts k inside found last
    obtain ⟨r, first, slot⟩ := firsts k inside
    have here := placed.placed r _ slot
    rw [placed.eq_number distinct firsts inside first slot, place, last] at here
    simp only at here
    omega
  · intro returned k inside
    obtain ⟨i, slot⟩ := again links[k] (List.getElem_mem inside)
    have here := placed.placed i _ slot
    -- a link that never came back has kept the slot of its number
    have number : place links log links[k] = k := by
      rw [place]
      cases last : log.lookup links[k] with
      | none => exact congrArg Nat.cast (distinct.idxOf_getElem k inside)
      | some found =>
        have found_eq := returned k inside found last
        simp only
        omega
    obtain rfl : i = k := by omega
    exact ⟨i, ⟨le_refl i, by simp [slot], fun j after before => by omega⟩, slot⟩

end

/-! ### Two links -/

/-- A node with routes over the links in these slots. -/
def nodeOver (t : SlotList Nat) : Routes (SlotList Nat) Nat where
  routes := 2
  mpathClsfr := some t
  entry := .multiPath

def twoLinks : Routes (SlotList Nat) Nat := nodeOver (installed [7, 8])

theorem firstInstalled_twoLinks :
    FirstInstalled (slotList Nat) [7, 8] twoLinks (installed [7, 8]) :=
  ⟨rfl, rfl, @slot_foldl_installNext _ _ (slotList Nat) _ [7, 8] [] fun _ => rfl⟩

/-- The first of the two links goes down and comes back behind the second one. -/
theorem run_first : Run (slotList Nat) [7, 8] twoLinks [(7, 1)]
    (nodeOver ⟨[none, some 8, some 7], by decide⟩) := by
  let t : SlotList Nat := ⟨[none, some 8], by decide⟩
  have down : Run (slotList Nat) [7, 8] twoLinks [] { nodeOver t with routes := 1 } :=
    .delete [7] 0 .start
  have absent : ∀ i, (slotList Nat).slot t i ≠ some 7 := fun i =>
    match i with | 0 | 1 | _ + 2 => by simp [slotList, t]
  exact .add [7] down rfl (by decide) (fun link member => by
    obtain rfl := List.mem_singleton.mp member
    exact ⟨by decide, absent⟩) rfl

/-- The second one goes down and comes back into its slot. -/
theorem run_second : Run (slotList Nat) [7, 8] twoLinks [(8, 0)] twoLinks := by
  let t : SlotList Nat := ⟨[some 7], by decide⟩
  have down : Run (slotList Nat) [7, 8] twoLinks [] { nodeOver t with routes := 1 } :=
    .delete [8] 0 .start
  have absent : ∀ i, (slotList Nat).slot t i ≠ some 8 := fun i =>
    match i with | 0 | _ + 1 => by simp [slotList, t]
  exact .add [8] down rfl (by decide) (fun link member => by
    obtain rfl := List.mem_singleton.mp member
    exact ⟨by decide, absent⟩) rfl

/-- When the first of two links goes down and comes back, both numbers lead to the second one. -/
theorem firstLink_lost : ∃ log t,
    FirstInstalled (slotList Nat) [7, 8] twoLinks (installed [7, 8]) ∧
    Run (slotList Nat) [7, 8] twoLinks log (nodeOver t) ∧
    (∀ link ∈ [7, 8], ∃ i, (slotList Nat).slot t i = some link) ∧
    ¬ KeepsNumbers (slotList Nat) id { flowcellSpraying := 1 } [7, 8] t := by
  refine ⟨[(7, 1)], ⟨[none, some 8, some 7], by decide⟩, firstInstalled_twoLinks, run_first, ?_, ?_⟩
  · intro link member
    rcases List.mem_pair.mp member with rfl | rfl
    · exact ⟨2, rfl⟩
    · exact ⟨1, rfl⟩
  · intro keeps
    have lost := keeps.own 0 (by decide) ⟨0, 0⟩ default rfl
    revert lost
    decide

/-- When the second one does, it is found under its number again. -/
theorem secondLink_kept :
    KeepsNumbers (slotList Nat) id { flowcellSpraying := 1 } [7, 8] (installed [7, 8]) :=
  (keepsNumbers_iff_returns (by decide) firstInstalled_twoLinks run_second rfl
    (fun link member => by
      rcases List.mem_pair.mp member with rfl | rfl
      · exact ⟨0, rfl⟩
      · exact ⟨1, rfl⟩)
    rfl (by decide)).mpr fun k inside found last => by
      match k, inside with
      | 0, _ => cases last
      | 1, _ => cases last; rfl

end Saps.Classifier
