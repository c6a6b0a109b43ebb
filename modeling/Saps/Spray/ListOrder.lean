import Saps.Spray.FlowcellPath
import Saps.Spray.SpineClasses

/-!
# The order of the failure list

The class of a spine with a direct failure is read off its failures in any order. A spine
that only has indirect ones keeps the kind of the first, so the order tells once it has
both kinds.
-/
namespace Saps.Spray

variable {cfg : SprayConfig} {fs gs : List FailedLink} {s : Nat}

/-- The same flow with its failures listed in another order. -/
def SprayConfig.relist (cfg : SprayConfig) (gs : List FailedLink)
    (reordered : gs.Perm cfg.failedLinks) : SprayConfig :=
  { cfg with
    failedLinks := gs
    inRange := fun f listed => cfg.inRange f (reordered.subset listed) }

/-- A full and a partial failure are listed for the spine, neither of them direct. -/
def MixedIndirect (cfg : SprayConfig) (s : Nat) : Prop :=
  (∃ f ∈ cfg.failedLinks, f.spine = s ∧ cfg.direct f = false ∧ f.failureRatio = 100) ∧
    ∃ f ∈ cfg.failedLinks, f.spine = s ∧ cfg.direct f = false ∧ f.failureRatio ≠ 100

/-! ### The sets and the table determine each other -/

theorem Represents.eq {n : Nat} {c : Nat → SpineClass} {t u : SpineSets}
    (left : Represents n c t) (right : Represents n c u) : t = u := by
  apply SpineSets.ext
  · exact funext fun s => (left.noFailure s).trans (right.noFailure s).symm
  · exact funext fun s => (left.partialFailure s).trans (right.partialFailure s).symm
  · exact funext fun s => (left.fullFailure s).trans (right.fullFailure s).symm
  · exact funext fun s => (left.daPartialFailure s).trans (right.daPartialFailure s).symm
  · exact funext fun s => (left.daFullFailure s).trans (right.daFullFailure s).symm
  · exact funext fun s => (left.daNoFailure s).trans (right.daNoFailure s).symm
  · exact left.numDirect.trans right.numDirect.symm
  · exact left.numDirectPartial.trans right.numDirectPartial.symm
  · exact left.numDirectFull.trans right.numDirectFull.symm
  · exact left.numIndirectPartial.trans right.numIndirectPartial.symm
  · exact left.numIndirectFull.trans right.numIndirectFull.symm

theorem Represents.indirectFull_iff {n : Nat} {c d : Nat → SpineClass} {t : SpineSets}
    (left : Represents n c t) (right : Represents n d t) (s : Nat) :
    c s = .indirectFull ↔ d s = .indirectFull := by
  have entry := (left.daFullFailure s).symm.trans (right.daFullFailure s)
  split_ifs at entry with inLeft inRight inRight
  · exact iff_of_true inLeft inRight
  · exact iff_of_false inLeft inRight

/-! ### A spine without direct failures -/

/-- The class that an indirect failure gives to a clean spine. -/
def indirectClass (f : FailedLink) : SpineClass :=
  SpineClass.clean.absorb false (decide (f.failureRatio = 100))

theorem indirectClass_eq_full_iff (f : FailedLink) :
    indirectClass f = .indirectFull ↔ f.failureRatio = 100 := by
  by_cases isFull : f.failureRatio = 100 <;> simp [indirectClass, SpineClass.absorb, isFull]

theorem indirectClass_congr {f g : FailedLink}
    (kind : f.failureRatio = 100 ↔ g.failureRatio = 100) : indirectClass f = indirectClass g := by
  simp only [indirectClass, kind]

/-- The first failure listed for a spine decides its class, if none of them is direct. -/
theorem classOf_indirect (free : ∀ f ∈ fs, f.spine = s → cfg.direct f = false) :
    classOf cfg fs s = ((fs.find? fun f => decide (f.spine = s)).map indirectClass).getD .clean := by
  induction fs using List.reverseRecOn with
  | nil => rfl
  | append_singleton fs f ih =>
    have before := ih fun g listed => free g (List.mem_append_left _ listed)
    rw [classOf_append, absorbFailure, List.find?_append]
    by_cases here : f.spine = s
    · have indirect : cfg.direct f = false := free f (by simp) here
      rw [← here, Function.update_self, here, before, indirect]
      -- a spine that has a class already keeps it
      cases fs.find? fun f => decide (f.spine = s) with
      | none => simp [here, indirectClass]
      | some g =>
        by_cases isFull : g.failureRatio = 100 <;>
          simp [indirectClass, SpineClass.absorb, isFull]
    · rw [Function.update_of_ne (Ne.symm here), before]
      simp [here]

/-- A failure moved to the front of the list decides. -/
theorem classOf_front {f : FailedLink} (listed : f ∈ fs) (here : f.spine = s)
    (free : ∀ f ∈ fs, f.spine = s → cfg.direct f = false) :
    ∃ gs, gs.Perm fs ∧ classOf cfg gs s = indirectClass f := by
  have front := (List.perm_cons_erase listed).symm
  refine ⟨_, front, ?_⟩
  rw [classOf_indirect fun g listed => free g (front.subset listed),
    List.find?_cons_of_pos (by simpa using here)]
  rfl

/-! ### Reordering -/

private theorem exists_mem_congr (reordered : gs.Perm fs) (p : FailedLink → Prop) :
    (∃ f ∈ gs, p f) ↔ ∃ f ∈ fs, p f := by
  simp only [reordered.mem_iff]

/-- The order leaves the class of a spine alone that has a direct failure. -/
theorem classOf_perm_direct (reordered : gs.Perm fs)
    (direct : ∃ f ∈ fs, f.spine = s ∧ cfg.direct f = true) :
    classOf cfg gs s = classOf cfg fs s := by
  have before := (isDirect_classOf_iff cfg fs s).mpr direct
  have after := (isDirect_classOf_iff cfg gs s).mpr ((exists_mem_congr reordered _).mpr direct)
  have full : classOf cfg gs s = .directFull ↔ classOf cfg fs s = .directFull := by
    rw [classOf_eq_directFull_iff, classOf_eq_directFull_iff]
    exact exists_mem_congr reordered _
  cases inFs : classOf cfg fs s <;> cases inGs : classOf cfg gs s <;>
    simp [inFs, inGs, SpineClass.isDirect] at before after full ⊢

/-- So it does when all failures of the spine are of one kind. -/
theorem classOf_perm_indirect (reordered : gs.Perm cfg.failedLinks) (free : ¬HasDirect cfg s)
    (oneKind : ¬MixedIndirect cfg s) : classOf cfg gs s = classOf cfg cfg.failedLinks s := by
  rw [classOf_indirect fun _ => direct_eq_false free,
    classOf_indirect fun f listed => direct_eq_false free (reordered.subset listed)]
  cases inGs : gs.find? fun f => decide (f.spine = s) with
  | none =>
    have none : cfg.failedLinks.find? (fun f => decide (f.spine = s)) = none := by
      rw [List.find?_eq_none] at inGs ⊢
      exact fun f listed => inGs f (reordered.mem_iff.mpr listed)
    rw [none]
  | some g =>
    have gHere : g.spine = s := by simpa using List.find?_some inGs
    have gListed := reordered.subset (List.mem_of_find?_eq_some inGs)
    cases inFs : cfg.failedLinks.find? fun f => decide (f.spine = s) with
    | none => exact absurd (decide_eq_true gHere) (List.find?_eq_none.mp inFs g gListed)
    | some f =>
      have fHere : f.spine = s := by simpa using List.find?_some inFs
      have fListed := List.mem_of_find?_eq_some inFs
      refine congrArg (fun c => (some c).getD .clean) (indirectClass_congr ?_)
      by_contra differ
      -- the two first ones are of both kinds
      have fIndirect := direct_eq_false free fListed fHere
      have gIndirect := direct_eq_false free gListed gHere
      by_cases isFull : g.failureRatio = 100
      · have notFull : f.failureRatio ≠ 100 := fun full => differ (iff_of_true isFull full)
        exact oneKind ⟨⟨g, gListed, gHere, gIndirect, isFull⟩, f, fListed, fHere, fIndirect, notFull⟩
      · have full : f.failureRatio = 100 := by
          by_contra notFull
          exact differ (iff_of_false isFull notFull)
        exact oneKind ⟨⟨f, fListed, fHere, fIndirect, full⟩, g, gListed, gHere, gIndirect, isFull⟩

/-- The first packet classifies every order of the failures in one way, exactly when no spine
has indirect failures of both kinds and no direct one. -/
theorem classification_order_iff (cfg : SprayConfig) (several : 1 < cfg.numFailures) :
    (∀ gs (reordered : gs.Perm cfg.failedLinks) e b,
      firstPacket (cfg.relist gs reordered) e (fresh (cfg.relist gs reordered)) = .ok b →
        b.sets = classify cfg gs) ∧
    ((∀ gs, gs.Perm cfg.failedLinks → classify cfg gs = classify cfg cfg.failedLinks) ↔
      ∀ s, HasDirect cfg s ∨ ¬MixedIndirect cfg s) := by
  have table (gs : List FailedLink) (reordered : gs.Perm cfg.failedLinks) :
      Represents cfg.numUplinks (classOf cfg gs) (classify cfg gs) :=
    classify_represents cfg fun f listed => cfg.inRange f (reordered.subset listed)
  refine ⟨?_, ?_, ?_⟩
  · intro gs reordered e b prepared
    -- the first packet draws on the classes of the list as given, which has the same length
    have several : 1 < (cfg.relist gs reordered).numFailures :=
      several.trans_eq reordered.length_eq.symm
    exact (firstPacket_selective several prepared).2.2.1
  · -- with either kind in front, the spine would be of both kinds
    intro same s
    by_contra mixed
    rw [not_or, not_not] at mixed
    obtain ⟨free, ⟨f, fListed, fHere, -, isFull⟩, g, gListed, gHere, -, notFull⟩ := mixed
    obtain ⟨fs, fOrder, byF⟩ := classOf_front fListed fHere fun _ => direct_eq_false free
    obtain ⟨gs, gOrder, byG⟩ := classOf_front gListed gHere fun _ => direct_eq_false free
    have sets : classify cfg fs = classify cfg gs := (same fs fOrder).trans (same gs gOrder).symm
    have kinds := (table fs fOrder).indirectFull_iff (sets ▸ table gs gOrder) s
    rw [byF, byG, indirectClass_eq_full_iff, indirectClass_eq_full_iff] at kinds
    exact notFull (kinds.mp isFull)
  · -- equal tables are represented by equal sets
    intro oneKind gs reordered
    have classes : classOf cfg gs = classOf cfg cfg.failedLinks := by
      funext s
      by_cases direct : HasDirect cfg s
      · exact classOf_perm_direct reordered direct
      · exact classOf_perm_indirect reordered direct ((oneKind s).resolve_left direct)
    have sorted := table gs reordered
    rw [classes] at sorted
    exact sorted.eq (table _ (List.Perm.refl _))

/-- Two failures of the other leaves share spine 0. -/
def sharedSpine : SprayConfig :=
  (Fabric.mk 2 [⟨1, 0, 100⟩, ⟨2, 0, 10⟩] Nat.two_pos (by decide)).flow

theorem sharedSpine_reversed :
    List.Perm [⟨2, 0, 10⟩, ⟨1, 0, 100⟩] sharedSpine.failedLinks := by
  decide

/-- The other order makes the spine a partial one. -/
theorem sharedSpine_order : 1 < sharedSpine.numFailures ∧
    (firstPacket sharedSpine (fullPackets 0) (fresh sharedSpine)).toOption.map
      (fun b => (b.sets.svtDaFullFailure 0, b.sets.svtDaPartialFailure 0)) = some (1, -1) ∧
    (firstPacket (sharedSpine.relist _ sharedSpine_reversed) (fullPackets 0)
      (fresh (sharedSpine.relist _ sharedSpine_reversed))).toOption.map
        (fun b => (b.sets.svtDaFullFailure 0, b.sets.svtDaPartialFailure 0)) = some (-1, 1) := by
  decide +kernel

/-- Both failures of the spine are partial ones. -/
def alikeFailures : SprayConfig :=
  (Fabric.mk 2 [⟨1, 0, 10⟩, ⟨2, 0, 10⟩] Nat.two_pos (by decide)).flow

theorem alikeFailures_unmixed (s : Nat) : ¬MixedIndirect alikeFailures s := by
  rintro ⟨⟨f, listed, -, -, full⟩, -⟩
  have partially : ∀ f ∈ alikeFailures.failedLinks, f.failureRatio ≠ 100 := by decide
  exact partially f listed full

/-- If the failures of the spine are alike their order makes no difference. -/
theorem classification_order_iff_sharedSpine :
    ((∀ gs (reordered : gs.Perm sharedSpine.failedLinks) e b,
        firstPacket (sharedSpine.relist gs reordered) e (fresh (sharedSpine.relist gs reordered)) =
          .ok b → b.sets = classify sharedSpine gs) ∧
      ((∀ gs, gs.Perm sharedSpine.failedLinks →
          classify sharedSpine gs = classify sharedSpine sharedSpine.failedLinks) ↔
        ∀ s, HasDirect sharedSpine s ∨ ¬MixedIndirect sharedSpine s)) ∧
    ∀ gs, gs.Perm alikeFailures.failedLinks →
      classify alikeFailures gs = classify alikeFailures alikeFailures.failedLinks :=
  ⟨classification_order_iff sharedSpine (by decide),
    (classification_order_iff alikeFailures (by decide)).2.mpr
      fun s => .inr (alikeFailures_unmixed s)⟩

end Saps.Spray
