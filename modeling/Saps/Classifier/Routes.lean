import Mathlib.Data.List.Induction
import Saps.Classifier.MultiPath

/-!
# The routes of a node

`add-routes` and `delete-routes` of `Node`, for one destination. A link is given
by its `head`, which is what the slots hold. The routing modules behind
`add-route` and `delete-route` are not modelled beyond the slot of the
destination in the node's own classifier, which they set.
-/
namespace Saps.Classifier

/-- The slot of a destination in the node's own classifier. -/
inductive Entry (τ : Type) where
  | empty
  | route (target : τ)
  | multiPath
deriving DecidableEq, Repr

/-- What a node keeps for one destination. -/
structure Routes (T τ : Type) where
  multiPath : Bool := true
  routes : Int := 0
  mpathClsfr : Option T := none
  entry : Entry τ := .empty

namespace Routes

variable {T τ : Type} (table : SlotTable T τ)

/-- `add-route {dst target}`. -/
def addRoute (target : τ) (node : Routes T τ) : Routes T τ :=
  { node with entry := .route target }

/-- `delete-route {dst nullagent}`. -/
def deleteRoute (nullagent : τ) (node : Routes T τ) : Routes T τ :=
  { node with entry := .route nullagent }

/-- Get a new multipath classifier, migrate the existing route to it and install it. -/
def migrate (node : Routes T τ) : Option (Routes T τ) := do
  let t ←
    if node.routes > 0 then
      if node.routes = 1 then
        match node.entry with
        | .route target => some (table.installNext table.create target)
        | _ => none
      else none
    else some table.create
  some { node with mpathClsfr := some t, entry := .multiPath }

/-- The body of the loop in `add-routes`. -/
def installNext (node : Routes T τ) (link : τ) : Routes T τ :=
  { node with
    mpathClsfr := node.mpathClsfr.map (table.installNext · link)
    routes := node.routes + 1 }

/-- `add-routes {id ifs}`. -/
def addRoutes (ifs : List τ) (node : Routes T τ) : Option (Routes T τ) :=
  if !node.multiPath then
    ifs.head?.map fun link => { node.addRoute link with routes := 1 }
  else if node.routes ≤ 0 ∧ ifs.length = 1 ∧ node.mpathClsfr.isNone then
    ifs.head?.map fun link => { node.addRoute link with routes := 1 }
  else do
    let node ← if node.mpathClsfr.isNone then node.migrate table else some node
    some (ifs.foldl (installNext table) node)

/-- The body of the loop in `delete-routes`. -/
def clear [DecidableEq τ] (ifs : List τ) (node : Routes T τ) (adjacent : Nat × τ) : Routes T τ :=
  if adjacent.2 ∈ ifs then
    { node with
      mpathClsfr := node.mpathClsfr.map (table.clear · adjacent.1)
      routes := node.routes - 1 }
  else node

/-- `delete-routes {id ifs nullagent}`. -/
def deleteRoutes [DecidableEq τ] (ifs : List τ) (nullagent : τ) (node : Routes T τ) : Routes T τ :=
  match node.mpathClsfr with
  | some t => (table.adjacents t).foldl (clear table ifs) node
  | none => { node.deleteRoute nullagent with routes := node.routes - 1 }

/-! ### With a multipath classifier in place -/

variable {table}

theorem foldl_installNext {t : T} (ifs : List τ) {node : Routes T τ}
    (there : node.mpathClsfr = some t) :
    ifs.foldl (installNext table) node =
      { node with
        mpathClsfr := some (ifs.foldl table.installNext t)
        routes := node.routes + ifs.length } := by
  induction ifs generalizing node t with
  | nil => simp [← there]
  | cons link ifs ih =>
    have next : (node.installNext table link).mpathClsfr = some (table.installNext t link) := by
      simp [installNext, there]
    rw [List.foldl_cons, ih next, installNext, List.foldl_cons, List.length_cons]
    congr 1
    push_cast
    omega

theorem addRoutes_of_mpathClsfr {t : T} {ifs : List τ} {node : Routes T τ}
    (multiPath : node.multiPath = true) (there : node.mpathClsfr = some t) :
    node.addRoutes table ifs = some { node with
      mpathClsfr := some (ifs.foldl table.installNext t)
      routes := node.routes + ifs.length } := by
  simp [addRoutes, multiPath, there, foldl_installNext]

section

variable [DecidableEq τ] {ifs : List τ}

theorem foldl_clear {t : T} (adjacents : List (Nat × τ)) {node : Routes T τ}
    (there : node.mpathClsfr = some t) :
    ∃ t', (adjacents.foldl (clear table ifs) node).mpathClsfr = some t' ∧
      (∀ i target, table.slot t' i = some target ↔
        table.slot t i = some target ∧ ∀ link ∈ ifs, (i, link) ∉ adjacents) ∧
      (adjacents.foldl (clear table ifs) node).multiPath = node.multiPath := by
  induction adjacents generalizing node t with
  | nil => exact ⟨t, there, by simp, rfl⟩
  | cons adjacent adjacents ih =>
    obtain ⟨slot, link⟩ := adjacent
    rw [List.foldl_cons, clear]
    -- the link of this slot goes away or stays
    split_ifs with gone
    · have next : node.mpathClsfr.map (table.clear · slot) = some (table.clear t slot) := by
        rw [there]
        rfl
      obtain ⟨t', after, slots, same⟩ := @ih (table.clear t slot) { node with
        mpathClsfr := node.mpathClsfr.map (table.clear · slot), routes := node.routes - 1 } next
      refine ⟨t', after, fun i target => ?_, same⟩
      rw [slots, table.slot_clear]
      by_cases here : i = slot
      · rw [if_pos here]
        refine iff_of_false (fun held => nomatch held.1) fun kept => kept.2 link gone ?_
        rw [here]
        exact List.mem_cons_self
      · simp [here]
    · obtain ⟨t', after, slots, same⟩ := ih there
      refine ⟨t', after, fun i target => ?_, same⟩
      have other : ∀ other ∈ ifs, other ≠ link := by
        rintro other inside rfl
        exact gone inside
      rw [slots]
      refine and_congr_right fun _ => forall₂_congr fun found inside => not_congr ?_
      simp [other found inside]

/-- `delete-routes` empties the slots of the links it is given, and no others. -/
theorem deleteRoutes_of_mpathClsfr {t : T} {nullagent : τ} {node : Routes T τ}
    (there : node.mpathClsfr = some t) :
    ∃ t', (node.deleteRoutes table ifs nullagent).mpathClsfr = some t' ∧
      (∀ i link, table.slot t' i = some link ↔ table.slot t i = some link ∧ link ∉ ifs) ∧
      (node.deleteRoutes table ifs nullagent).multiPath = node.multiPath := by
  obtain ⟨t', after, slots, same⟩ := @foldl_clear _ _ table _ ifs _ (table.adjacents t) _ there
  rw [deleteRoutes, there]
  refine ⟨t', after, fun i link => ?_, same⟩
  rw [slots]
  refine and_congr_right fun held => ?_
  simp only [table.mem_adjacents, held, Option.some.injEq]
  constructor
  · exact fun kept inside => kept link inside rfl
  · rintro outside other inside rfl
    exact outside inside

end

end Routes

end Saps.Classifier
