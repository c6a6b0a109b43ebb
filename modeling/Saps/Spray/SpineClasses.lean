import Saps.Spray.HealthViews

/-!
# What the first packet says of the spines

The sets and counters of a fresh agent after its first packet, read against the
failure list itself: which spines a direct failure hits, which ones only others
do, and how many of each there are.
-/
namespace Saps.Spray

variable {cfg : SprayConfig} {s : Nat}

/-- Some direct failure is on the spine. -/
def HasDirect (cfg : SprayConfig) (s : Nat) : Prop :=
  ∃ f ∈ cfg.failedLinks, f.spine = s ∧ cfg.direct f = true

instance (cfg : SprayConfig) : DecidablePred (HasDirect cfg) := fun s =>
  inferInstanceAs (Decidable (∃ f ∈ cfg.failedLinks, f.spine = s ∧ cfg.direct f = true))

instance (cfg : SprayConfig) : DecidablePred (HasFullDirect cfg) := fun s =>
  inferInstanceAs (Decidable
    (∃ f ∈ cfg.failedLinks, f.spine = s ∧ cfg.direct f = true ∧ f.failureRatio = 100))

theorem direct_eq_false {f : FailedLink} (free : ¬HasDirect cfg s) (listed : f ∈ cfg.failedLinks)
    (here : f.spine = s) : cfg.direct f = false := by
  rw [← Bool.not_eq_true]
  exact fun direct => free ⟨f, listed, here, direct⟩

theorem healthySpine_of_free (free : ∃ s < cfg.numUplinks, ¬HasDirect cfg s) :
    HealthySpine cfg := by
  obtain ⟨s, below, free⟩ := free
  exact ⟨s, below, fun f listed here => direct_eq_false free listed here⟩

/-- The sets and counters of the direct failures say what the list says. -/
structure DirectExact (cfg : SprayConfig) (t : SpineSets) : Prop where
  noFailure : ∀ s, t.svtNoFailure s = 1 ↔ ¬HasDirect cfg s
  full : ∀ s, t.fullFailureSpines s = 1 ↔ HasFullDirect cfg s
  partially : ∀ s, t.svtPartialFailure s = 1 ↔ HasDirect cfg s ∧ ¬HasFullDirect cfg s
  numDirect : t.numDirectFailures = (cfg.numUplinks.count (HasDirect cfg) : Nat)
  numFull : t.numDirectFullFailurePaths = (cfg.numUplinks.count (HasFullDirect cfg) : Nat)
  numPartial : t.numDirectPartialFailurePaths =
    (cfg.numUplinks.count fun s => HasDirect cfg s ∧ ¬HasFullDirect cfg s : Nat)

/-- The four kinds of spines that the sets tell apart. -/
inductive SpineKind where
  | direct
  | unrelated
  | indirectPartial
  | indirectFull
deriving DecidableEq, Repr

/-- How the sets say that a spine is of the kind. -/
def SpineSets.IsKind (t : SpineSets) (s : Nat) : SpineKind → Prop
  | .direct => t.svtNoFailure s = -1
  | .unrelated => t.svtDaNoFailure s = 1
  | .indirectPartial => t.svtDaPartialFailure s = 1
  | .indirectFull => t.svtDaFullFailure s = 1

/-- Every spine is of one kind, and the counters of the indirect kinds count them. -/
structure Partitioned (cfg : SprayConfig) (t : SpineSets) : Prop where
  oneKind : ∀ s, ∃! k, t.IsKind s k
  unrelated : ∀ s, t.svtDaNoFailure s = 1 ↔ ∀ f ∈ cfg.failedLinks, f.spine ≠ s
  numPartial : t.numIndirectPartialFailurePaths =
    (cfg.numUplinks.count fun s => t.svtDaPartialFailure s = 1 : Nat)
  numFull : t.numIndirectFullFailurePaths =
    (cfg.numUplinks.count fun s => t.svtDaFullFailure s = 1 : Nat)
  partial_nonneg : 0 ≤ t.numIndirectPartialFailurePaths
  full_nonneg : 0 ≤ t.numIndirectFullFailurePaths

/-! ### Reading the classes off the table -/

private theorem classCount_direct (n : Nat) (c : Nat → SpineClass) :
    classCount n c .directPartial + classCount n c .directFull =
      (n.count fun s => (c s).isDirect = true : Nat) := by
  induction n with
  | zero => rfl
  | succ n ih =>
    have last : (if c n = .directPartial then 1 else 0) + (if c n = .directFull then 1 else 0) =
        if (c n).isDirect = true then 1 else 0 := by
      cases c n <;> rfl
    simp only [classCount, Nat.count_succ] at ih ⊢
    omega

private theorem classCount_eq {n : Nat} {c : Nat → SpineClass} {k : SpineClass} {p : Nat → Prop}
    [DecidablePred p] (same : ∀ s, c s = k ↔ p s) : classCount n c k = (n.count p : Nat) :=
  congrArg Nat.cast (CountUpdate.count_congr fun s _ => same s)

theorem Represents.directExact {t : SpineSets}
    (sorted : Represents cfg.numUplinks (classOf cfg cfg.failedLinks) t) : DirectExact cfg t where
  noFailure s := by
    rw [sorted.noFailure, HasDirect, ← isDirect_classOf_iff]
    split <;> simp [*]
  full s := by
    rw [sorted.fullFailure, HasFullDirect, ← classOf_eq_directFull_iff]
    split <;> simp [*]
  partially s := by
    rw [sorted.partialFailure, HasDirect, HasFullDirect, ← classOf_eq_directPartial_iff]
    split <;> simp [*]
  numDirect := by
    rw [sorted.numDirect, classCount_direct]
    exact congrArg Nat.cast (CountUpdate.count_congr fun s _ => isDirect_classOf_iff cfg _ s)
  numFull := sorted.numDirectFull.trans (classCount_eq fun s => classOf_eq_directFull_iff cfg _ s)
  numPartial := sorted.numDirectPartial.trans
    (classCount_eq fun s => classOf_eq_directPartial_iff cfg _ s)

/-- The kind that goes with a class. -/
def SpineClass.kind : SpineClass → SpineKind
  | .clean => .unrelated
  | .indirectPartial => .indirectPartial
  | .indirectFull => .indirectFull
  | .directPartial | .directFull => .direct

/-- The sets give a spine the kind of its class and no other. -/
theorem Represents.isKind_iff {n : Nat} {c : Nat → SpineClass} {t : SpineSets}
    (sorted : Represents n c t) (s : Nat) (k : SpineKind) : t.IsKind s k ↔ k = (c s).kind := by
  cases k <;> simp only [SpineSets.IsKind, sorted.noFailure, sorted.daNoFailure,
    sorted.daPartialFailure, sorted.daFullFailure] <;>
    cases c s <;> simp [SpineClass.isDirect, SpineClass.kind]

theorem Represents.partitioned {t : SpineSets}
    (sorted : Represents cfg.numUplinks (classOf cfg cfg.failedLinks) t) : Partitioned cfg t where
  oneKind s := by
    refine ⟨(classOf cfg cfg.failedLinks s).kind, (sorted.isKind_iff s _).mpr rfl, ?_⟩
    intro k isKind
    exact (sorted.isKind_iff s k).mp isKind
  unrelated s := by
    rw [← classOf_eq_clean_iff]
    apply (sorted.isKind_iff s .unrelated).trans
    cases classOf cfg cfg.failedLinks s <;> simp [SpineClass.kind]
  numPartial := sorted.numIndirectPartial.trans (classCount_eq fun s => by
    rw [sorted.daPartialFailure]
    split <;> simp [*])
  numFull := sorted.numIndirectFull.trans (classCount_eq fun s => by
    rw [sorted.daFullFailure]
    split <;> simp [*])
  partial_nonneg := by
    rw [sorted.numIndirectPartial]
    exact classCount_nonneg _ _ _
  full_nonneg := by
    rw [sorted.numIndirectFull]
    exact classCount_nonneg _ _ _

/-! ### After the first packet -/

/-- The classification of direct failures is exact, in any order and with any duplicates. -/
theorem directFailures_exact (cfg : SprayConfig) (several : 1 < cfg.numFailures) :
    DirectExact cfg (classify cfg cfg.failedLinks) ∧
      ∀ e b, firstPacket cfg e (fresh cfg) = .ok b → DirectExact cfg b.sets := by
  have exact := (classify_represents cfg cfg.inRange).directExact
  refine ⟨exact, ?_⟩
  intro e b prepared
  rw [(firstPacket_selective several prepared).2.2.1]
  exact exact

theorem directFailures_exact_hiddenFullFailure :
    DirectExact hiddenFullFailure (classify hiddenFullFailure hiddenFullFailure.failedLinks) ∧
      ∀ e b, firstPacket hiddenFullFailure e (fresh hiddenFullFailure) = .ok b →
        DirectExact hiddenFullFailure b.sets :=
  directFailures_exact hiddenFullFailure (by decide)

/-- The spine sets partition the spines. -/
theorem spines_partitioned (cfg : SprayConfig) (several : 1 < cfg.numFailures) :
    Partitioned cfg (classify cfg cfg.failedLinks) ∧
      ∀ e b, firstPacket cfg e (fresh cfg) = .ok b → Partitioned cfg b.sets := by
  have partitioned := (classify_represents cfg cfg.inRange).partitioned
  refine ⟨partitioned, ?_⟩
  intro e b prepared
  rw [(firstPacket_selective several prepared).2.2.1]
  exact partitioned

theorem spines_partitioned_hiddenFullFailure :
    Partitioned hiddenFullFailure (classify hiddenFullFailure hiddenFullFailure.failedLinks) ∧
      ∀ e b, firstPacket hiddenFullFailure e (fresh hiddenFullFailure) = .ok b →
        Partitioned hiddenFullFailure b.sets :=
  spines_partitioned hiddenFullFailure (by decide)

end Saps.Spray
