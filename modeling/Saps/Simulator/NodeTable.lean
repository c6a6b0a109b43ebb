import Mathlib.Algebra.Group.Nat.Even
import Mathlib.Algebra.Order.Ring.Int
import Mathlib.Data.List.Induction
import Mathlib.Tactic.SplitIfs

/-!
# The node table

`nodelist_` of `Simulator`, which grows as nodes are added, and `populate_flat_classifiers()`,
which makes the nodes in it routers. `int`s are unbounded, which makes no difference below
2³⁰: the size is doubled until it is above a number, and stays an `int`. The route logic and
the objects in front of the links are parameters.
-/
namespace Saps.Simulator

structure NodeTable (τ : Type) where
  /-- `none` for the null pointer. -/
  nodelist : Option (List (Option τ)) := none
  size : Nat := 0

/-- What `populate_flat_classifiers()` calls on the nodes. -/
inductive Install (τ lam : Type) where
  | setTableSize (node : τ) (nn : Int)
  | addRoute (node : τ) (dst : Nat) (head : lam)
deriving DecidableEq, Repr

/-- The route logic and the heads of the links. -/
structure RouteLogic (τ lam : Type) where
  lookupFlat : Nat → Nat → Int
  getLinkHead : τ → Int → lam

namespace NodeTable

variable {τ lam : Type} (smallLen : Nat)

/-- The loop that doubles `m` while it is not above `n`. -/
def doubled (n : Int) : Nat → Nat → Nat
  | 0, m => m
  | rounds + 1, m => if (m : Int) ≤ n then doubled n rounds (2 * m) else m

/-- `check(n)`, with `alloc(m)`. -/
def check (n : Int) (t : NodeTable τ) : NodeTable τ :=
  if n < t.size then t
  else
    let m := doubled n (n.toNat + 1) (if t.size = 0 then smallLen else t.size)
    { nodelist := some ((t.nodelist.getD []).take t.size ++ List.replicate (m - t.size) none)
      size := m }

/-- `add_node(node, id)`; no result for an access outside of `nodelist_`. -/
def addNode (node : τ) (id : Int) (t : NodeTable τ) : Option (NodeTable τ) :=
  -- nothing of the first array is ever read
  let t := if t.nodelist.isNone then
    { t with nodelist := some (List.replicate smallLen none) } else t
  let t := t.check smallLen id
  let nodelist := t.nodelist.getD []
  if 0 ≤ id ∧ id < nodelist.length then
    some { t with nodelist := some (nodelist.set id.toNat (some node)) }
  else none

/-- `nodelist_[i]`. -/
def get (t : NodeTable τ) (i : Nat) : Option τ := (t.nodelist.getD [])[i]?.join

/-- The calls for one node. -/
def fill (rt : RouteLogic τ lam) (nn : Int) (i : Nat) (node : τ) : List (Install τ lam) :=
  .setTableSize node nn :: (List.range nn.toNat).filterMap fun j =>
    let nh := rt.lookupFlat i j
    if i ≠ j ∧ nh ≥ 0 then some (.addRoute node j (rt.getLinkHead node nh)) else none

/-- The loop of `populate_flat_classifiers()` from `i` on, with the rounds it may still make. -/
def populateFrom (rt : RouteLogic τ lam) (nn : Int) (t : NodeTable τ) :
    Nat → Nat → List (Install τ lam)
  | 0, _ => []
  | rounds + 1, i =>
    if (i : Int) < nn then
      match t.get i with
      -- `i++` and `continue`
      | none => populateFrom rt nn t rounds (i + 2)
      | some node => fill rt nn i node ++ populateFrom rt nn t rounds (i + 1)
    else []

def populateFlatClassifiers (rt : RouteLogic τ lam) (nn : Int) (t : NodeTable τ) :
    NodeTable τ × List (Install τ lam) :=
  if t.nodelist.isNone then (t, [])
  else
    let t := t.check smallLen nn
    (t, populateFrom rt nn t nn.toNat 0)

inductive NodeCommand (τ : Type) where
  | addNode (node : τ) (id : Int)
  /-- `populate-flat-classifiers nn`. -/
  | populate (nn : Int)

def command (rt : RouteLogic τ lam) (t : NodeTable τ) : NodeCommand τ → Option (NodeTable τ)
  | .addNode node id => t.addNode smallLen node id
  | .populate nn => some (t.populateFlatClassifiers smallLen rt nn).1

/-- The table after a sequence of commands, if no access was outside of it. -/
def after (rt : RouteLogic τ lam) (commands : List (NodeCommand τ)) : Option (NodeTable τ) :=
  commands.foldlM (command smallLen rt) {}

/-! ### What the commands asked for -/

/-- The node that was added last under a number. -/
def lastAdded (commands : List (NodeCommand τ)) (i : Nat) : Option τ :=
  commands.foldl (fun last c => match c with
    | .addNode node id => if id = i then some node else last
    | .populate _ => last) none

/-- How many numbers right before this one have no node. -/
def missingBefore (node : Nat → Option τ) : Nat → Nat
  | 0 => 0
  | i + 1 => if (node i).isNone then missingBefore node i + 1 else 0

/-- The calls for the nodes that a gap of odd length does not come right before. -/
def filled (rt : RouteLogic τ lam) (nn : Int) (node : Nat → Option τ) : List (Install τ lam) :=
  (List.range nn.toNat).flatMap fun i =>
    if Even (missingBefore node i) then ((node i).map (fill rt nn i)).getD [] else []

/-- `size_` is the length of the array that the commands leave. -/
structure Sized (t : NodeTable τ) : Prop where
  length : ∀ nodelist, t.nodelist = some nodelist → nodelist.length = t.size
  empty : t.nodelist = none → t.size = 0

variable {smallLen} {t : NodeTable τ} {rt : RouteLogic τ lam} {commands : List (NodeCommand τ)}

/-! ### Growing -/

theorem le_doubled (n : Int) (rounds m : Nat) : m ≤ doubled n rounds m := by
  induction rounds generalizing m with
  | zero => exact le_refl m
  | succ rounds ih =>
    rw [doubled]
    split
    · have twice := ih (2 * m)
      omega
    · exact le_refl m

/-- The loop ends, as it starts with a positive number. -/
theorem lt_doubled {n : Int} {rounds m : Nat} (positive : 0 < m) (enough : n < m + rounds) :
    n < doubled n rounds m := by
  induction rounds generalizing m with
  | zero => simpa [doubled] using enough
  | succ rounds ih =>
    rw [doubled]
    split
    · refine ih (by omega) ?_
      push_cast at enough ⊢
      omega
    · omega

/-- Doubling stops before it leaves the `int`s. -/
theorem doubled_lt {n : Int} {rounds m : Nat} (small : n < 2 ^ 30) (start : m < 2 ^ 31) :
    doubled n rounds m < 2 ^ 31 := by
  induction rounds generalizing m with
  | zero => exact start
  | succ rounds ih =>
    rw [doubled]
    split
    · exact ih (by omega)
    · exact start

theorem check_size_lt {n : Int} (small : n < 2 ^ 30) (room : smallLen < 2 ^ 31)
    (size : t.size < 2 ^ 31) : (t.check smallLen n).size < 2 ^ 31 := by
  rw [check]
  split
  · exact size
  · apply doubled_lt small
    split
    · exact room
    · exact size

theorem Sized.length_eq (sized : Sized t) : (t.nodelist.getD []).length = t.size := by
  cases there : t.nodelist with
  | none => exact (sized.empty there).symm
  | some nodelist => exact sized.length nodelist there

/-- What `check` leaves: what was there, and room above the number. -/
theorem check_cases (room : 0 < smallLen) (sized : Sized t) (n : Int) :
    n < (t.check smallLen n).size ∧ (t.check smallLen n = t ∨
      ∃ more, t.check smallLen n = {
        nodelist := some (t.nodelist.getD [] ++ List.replicate more none)
        size := t.size + more }) := by
  rw [check]
  split
  next inside => exact ⟨inside, .inl rfl⟩
  next outside =>
    have all : (t.nodelist.getD []).take t.size = t.nodelist.getD [] :=
      List.take_of_length_le (Nat.le_of_eq sized.length_eq)
    obtain ⟨start, same⟩ : ∃ start, start = if t.size = 0 then smallLen else t.size := ⟨_, rfl⟩
    have begins : 0 < start ∧ t.size ≤ start := by
      rw [same]
      split <;> omega
    have larger := le_doubled n (n.toNat + 1) start
    rw [← same, all]
    refine ⟨lt_doubled begins.1 (by omega), .inr ⟨doubled n (n.toNat + 1) start - t.size, ?_⟩⟩
    rw [Nat.add_sub_cancel' (Nat.le_trans begins.2 larger)]

theorem check_spec (room : 0 < smallLen) (sized : Sized t) (n : Int) :
    Sized (t.check smallLen n) ∧ n < (t.check smallLen n).size ∧
      ∀ i, (t.check smallLen n).get i = t.get i := by
  obtain ⟨above, same | ⟨more, grown⟩⟩ := check_cases room sized n
  · rw [same] at above ⊢
    exact ⟨sized, above, fun i => rfl⟩
  refine ⟨?_, above, fun i => ?_⟩
  · rw [grown]
    refine ⟨fun nodelist there => ?_, nofun⟩
    cases there
    rw [List.length_append, List.length_replicate, sized.length_eq]
  · rw [grown, get, get, Option.getD_some, List.getElem?_append]
    split
    · rfl
    · rw [List.getElem?_replicate, List.getElem?_eq_none (by omega)]
      split <;> rfl

theorem addNode_spec (room : 0 < smallLen) (sized : Sized t) (node : τ) {id : Int}
    (nonneg : 0 ≤ id) : ∃ t', t.addNode smallLen node id = some t' ∧ Sized t' ∧
      t'.size = (t.check smallLen id).size ∧
      ∀ i : Nat, t'.get i = if id = i then some node else t.get i := by
  -- the first array is replaced at once
  have checked : (if t.nodelist.isNone then
      { t with nodelist := some (List.replicate smallLen none) } else t).check smallLen id =
        t.check smallLen id := by
    split
    next null =>
      have zero := sized.empty (Option.isNone_iff_eq_none.mp null)
      have above : ¬ id < ((0 : Nat) : Int) := by omega
      simp only [check, zero, if_neg above, List.take_zero]
    next => rfl
  obtain ⟨sized', above, same⟩ := check_spec room sized id
  obtain ⟨number, rfl⟩ := Int.eq_ofNat_of_zero_le nonneg
  have inside : number < ((t.check smallLen number).nodelist.getD []).length := by
    rw [sized'.length_eq]
    omega
  rw [addNode, checked, if_pos ⟨nonneg, by exact_mod_cast inside⟩]
  refine ⟨_, rfl, ⟨fun nodelist there => ?_, nofun⟩, rfl, fun i => ?_⟩
  · cases there
    rw [List.length_set]
    exact sized'.length_eq
  · rw [← same i, get, get, Option.getD_some, Int.toNat_natCast, List.getElem?_set]
    by_cases here : number = i
    · subst here
      rw [if_pos rfl, if_pos inside, if_pos rfl]
      rfl
    · rw [if_neg here, if_neg (by omega)]

/-! ### Populating -/

theorem populateFrom_eq {nn : Int} {rounds i : Nat} (enough : nn.toNat ≤ i + rounds)
    (even : Even (missingBefore t.get i)) :
    populateFrom rt nn t rounds i = (List.range' i (nn.toNat - i)).flatMap fun i =>
      if Even (missingBefore t.get i) then ((t.get i).map (fill rt nn i)).getD [] else [] := by
  induction rounds generalizing i with
  | zero =>
    rw [show nn.toNat - i = 0 by omega]
    rfl
  | succ rounds ih =>
    rw [populateFrom]
    split
    next inside =>
      rw [show nn.toNat - i = (nn.toNat - (i + 1)) + 1 by omega, List.range'_succ,
        List.flatMap_cons, if_pos even]
      cases here : t.get i with
      | some node =>
        have next : Even (missingBefore t.get (i + 1)) := by
          simp [missingBefore, here]
        dsimp only
        rw [ih (by omega) next]
        rfl
      | none =>
        -- the number behind the gap is passed over, whether it has a node or not
        have odd : ¬ Even (missingBefore t.get (i + 1)) := by
          simp [missingBefore, here, even, Nat.even_add_one]
        have next : Even (missingBefore t.get (i + 2)) := by
          rw [missingBefore]
          split
          · exact Nat.even_add_one.mpr odd
          · exact Even.zero
        dsimp only
        rw [ih (by omega) next, Option.map_none, Option.getD_none, List.nil_append]
        rcases Nat.lt_or_ge (i + 1) nn.toNat with more | last
        · rw [show nn.toNat - (i + 1) = (nn.toNat - (i + 2)) + 1 by omega, List.range'_succ,
            List.flatMap_cons, if_neg odd, List.nil_append]
        · rw [show nn.toNat - (i + 1) = 0 by omega, show nn.toNat - (i + 2) = 0 by omega]
          rfl
    next outside =>
      rw [show nn.toNat - i = 0 by omega]
      rfl

/-- The table after a run of commands: its size is an `int`, every node is found under its number,
and populating fills the tables of all the nodes but those right behind a gap of odd length. -/
structure Populated (smallLen : Nat) (rt : RouteLogic τ lam) (commands : List (NodeCommand τ))
    (t : NodeTable τ) : Prop where
  size : t.size < 2 ^ 31
  node : ∀ i, t.get i = lastAdded commands i
  filled : ∀ nn < 2 ^ 30, (t.populateFlatClassifiers smallLen rt nn).2 =
    filled rt nn (lastAdded commands)

theorem populate_size_lt {nn : Int} (small : nn < 2 ^ 30) (room : smallLen < 2 ^ 31)
    (size : t.size < 2 ^ 31) : (t.populateFlatClassifiers smallLen rt nn).1.size < 2 ^ 31 := by
  rw [populateFlatClassifiers]
  split
  · exact size
  · exact check_size_lt small room size

theorem populate_spec (room : 0 < smallLen) (sized : Sized t) (nn : Int) :
    Sized (t.populateFlatClassifiers smallLen rt nn).1 ∧
      (∀ i, (t.populateFlatClassifiers smallLen rt nn).1.get i = t.get i) ∧
      (t.populateFlatClassifiers smallLen rt nn).2 = filled rt nn t.get := by
  rw [populateFlatClassifiers]
  split
  next null =>
    have nodes : ∀ i, t.get i = none := fun i => by
      rw [get, Option.isNone_iff_eq_none.mp null]
      rfl
    refine ⟨sized, fun i => rfl, ?_⟩
    simp [filled, nodes]
  next =>
    obtain ⟨sized', -, same⟩ := check_spec room sized nn
    refine ⟨sized', same, ?_⟩
    have equal : (t.check smallLen nn).get = t.get := funext same
    change populateFrom rt nn (t.check smallLen nn) nn.toNat 0 = _
    rw [populateFrom_eq (by omega) Even.zero, equal, filled, List.range_eq_range', Nat.sub_zero]

/-- The numbers in a command that keep the table in the `int`s. -/
def NodeCommand.Small : NodeCommand τ → Prop
  | .addNode _ id => 0 ≤ id ∧ id < 2 ^ 30
  | .populate nn => nn < 2 ^ 30

/-- No node is ever lost, and no access is outside of the table, however many there are and in
whatever order they come; and which of them become routers. -/
theorem populated (room : 0 < smallLen) (int : smallLen < 2 ^ 31) (rt : RouteLogic τ lam)
    (commands : List (NodeCommand τ)) (small : ∀ c ∈ commands, c.Small) :
    ∃ t, after smallLen rt commands = some t ∧ Populated smallLen rt commands t := by
  have run : ∃ t, after smallLen rt commands = some t ∧ Sized t ∧ t.size < 2 ^ 31 ∧
      t.get = lastAdded commands := by
    induction commands using List.reverseRecOn with
    | nil => exact ⟨{}, rfl, ⟨nofun, fun _ => rfl⟩, Nat.two_pow_pos 31, rfl⟩
    | append_singleton commands c ih =>
      obtain ⟨t, reached, sized, size, nodes⟩ :=
        ih fun c member => small c (List.mem_append_left _ member)
      have last := small c (List.mem_append_right _ (List.mem_singleton_self _))
      rw [after] at reached
      rw [after, List.foldlM_append, reached]
      cases c with
      | addNode node id =>
        obtain ⟨t', added, sized', same, get⟩ := addNode_spec room sized node last.1
        refine ⟨t', ?_, sized', ?_, funext fun i => ?_⟩
        · simpa [command] using added
        · rw [same]
          exact check_size_lt last.2 int size
        · rw [get, lastAdded, List.foldl_append, nodes]
          rfl
      | populate nn =>
        obtain ⟨sized', same, -⟩ := @populate_spec _ _ _ _ rt room sized nn
        refine ⟨_, rfl, sized', populate_size_lt last int size, funext fun i => ?_⟩
        rw [same, nodes, lastAdded, lastAdded, List.foldl_append]
        rfl
  obtain ⟨t, reached, sized, size, nodes⟩ := run
  refine ⟨t, reached, size, fun i => congrFun nodes i, fun nn _ => ?_⟩
  rw [(populate_spec room sized nn).2.2, nodes]

/-- Every node is one hop away from every other one. -/
def fullMesh : RouteLogic String Int where
  lookupFlat := fun _ j => j
  getLinkHead := fun _ nh => nh

/-- The number 1 is left out, and the table has to grow. -/
def gapAtOne : List (NodeCommand String) :=
  [.addNode "leaf" 0, .addNode "spine" 3, .addNode "host" 2]

/-- Without number 1, the node under number 2 gets no routes. -/
theorem populated_gapAtOne : ∃ t, after 2 fullMesh gapAtOne = some t ∧
    filled fullMesh 4 (lastAdded gapAtOne) =
      [.setTableSize "leaf" 4, .addRoute "leaf" 1 1, .addRoute "leaf" 2 2, .addRoute "leaf" 3 3,
        .setTableSize "spine" 4, .addRoute "spine" 0 0, .addRoute "spine" 1 1,
        .addRoute "spine" 2 2] ∧
    Populated 2 fullMesh gapAtOne t := by
  have small : ∀ c ∈ gapAtOne, c.Small := by
    simp [gapAtOne, NodeCommand.Small]
  obtain ⟨t, reached, populated⟩ := populated Nat.two_pos (by decide) fullMesh gapAtOne small
  exact ⟨t, reached, by decide +kernel, populated⟩

end NodeTable

end Saps.Simulator
