import Saps.Library.CyclicRotation
import Saps.Spray.SelectiveRuns
import Mathlib.Tactic.Choose

/-!
# The rotation over a spine set

Successive calls of `nextValidLink()` under one mapping. Each call leads to the
cyclically next member of the mapped set, so the calls are shared out evenly.
-/
namespace Saps.Spray

open CyclicRotation
open DrivenRun (bind_eq_ok)

variable {cfg : SprayConfig} {a : SprayAgent} {svt : Nat → Int}

/-- Whether an array holds a spine. -/
def isMember (svt : Nat → Int) (s : Nat) : Bool := decide (svt s ≠ -1)

/-- `|S|`: how many spines of the fabric an array holds. -/
def memberCount (cfg : SprayConfig) (svt : Nat → Int) : Nat :=
  cfg.numUplinks.count fun s => svt s ≠ -1

/-- The agent after `m` calls of `nextValidLink`. -/
def afterCalls (cfg : SprayConfig) (a : SprayAgent) : Nat → Except Fault SprayAgent
  | 0 => .ok a
  | m + 1 => afterCalls cfg a m >>= nextValidLink cfg

theorem rank_isMember : rank (isMember svt) cfg.numUplinks = memberCount cfg svt := by
  simp [rank, isMember, memberCount]

/-- A call moves the uplink only, to the first member behind it. -/
theorem nextValidLink_first (named : mappedSet a = some svt)
    (filled : ∃ s < cfg.numUplinks, svt s ≠ -1) :
    ∃ linkID, nextValidLink cfg a = .ok { a with linkID } ∧
      First cfg.numUplinks (isMember svt) ((a.linkID + 1) % cfg.numUplinks) linkID := by
  have inside : (a.linkID + 1) % cfg.numUplinks < cfg.numUplinks := Nat.mod_lt _ cfg.uplinks_pos
  obtain ⟨valid, first⟩ := exists_first (p := isMember svt) inside (by simpa [isMember] using filled)
  have found : CyclicSearch.search cfg.numUplinks (fun s => decide (svt s ≠ -1)) cfg.numUplinks
      ((a.linkID + 1) % cfg.numUplinks) = some valid := first.search_eq inside
  refine ⟨valid, ?_, first⟩
  simp only [nextValidLink, named, found]

/-- Moving the uplink leaves the mapping as it is, so call follows call. -/
theorem afterCalls_returns (named : mappedSet a = some svt)
    (filled : ∃ s < cfg.numUplinks, svt s ≠ -1) (m : Nat) :
    ∃ linkID, afterCalls cfg a m = .ok { a with linkID } := by
  induction m with
  | zero => exact ⟨a.linkID, rfl⟩
  | succ m ih =>
    obtain ⟨linkID, reached⟩ := ih
    obtain ⟨next, answer, -⟩ := @nextValidLink_first cfg { a with linkID } svt named filled
    exact ⟨next, bind_eq_ok.mpr ⟨_, reached, answer⟩⟩

/-- Over a set with a spine in it every call ends at the cyclically next member, any
`|S|` consecutive calls choose each member once, and any two members are chosen equally
often, up to one. -/
theorem nextValidLink_fair (cfg : SprayConfig) (a : SprayAgent) (svt : Nat → Int)
    (named : mappedSet a = some svt) (filled : ∃ s < cfg.numUplinks, svt s ≠ -1) :
    ∃ link : Nat → Nat, link 0 = a.linkID ∧
      (∀ m, afterCalls cfg a m = .ok { a with linkID := link m }) ∧
      (∀ m, First cfg.numUplinks (isMember svt) ((link m + 1) % cfg.numUplinks) (link (m + 1))) ∧
      (∀ c, ∀ s < cfg.numUplinks, svt s ≠ -1 →
        (memberCount cfg svt).count (fun k => link (c + k + 1) = s) = 1) ∧
      ∀ m : Nat, ∀ s < cfg.numUplinks, svt s ≠ -1 → ∀ t < cfg.numUplinks, svt t ≠ -1 →
        m.count (fun k => link (k + 1) = s) ≤ m.count (fun k => link (k + 1) = t) + 1 := by
  choose link reached using afterCalls_returns named filled
  have turn : ∀ m, First cfg.numUplinks (isMember svt) ((link m + 1) % cfg.numUplinks)
      (link (m + 1)) := by
    intro m
    obtain ⟨next, answer, first⟩ :=
      @nextValidLink_first cfg { a with linkID := link m } svt named filled
    have after : afterCalls cfg a (m + 1) = .ok { a with linkID := next } :=
      bind_eq_ok.mpr ⟨_, reached m, answer⟩
    -- the uplink that was chosen for this call is the one that the search finds
    have same := (reached (m + 1)).symm.trans after
    injection same with same
    have moved : link (m + 1) = next := congrArg SprayAgent.linkID same
    rwa [moved]
  have rotates (m : Nat) : Rotates cfg.numUplinks (isMember svt) link m := fun k _ => turn k
  have start : link 0 = a.linkID := by
    have same := reached 0
    injection same with same
    exact (congrArg SprayAgent.linkID same).symm
  refine ⟨link, start, reached, turn, ?_, ?_⟩
  · intro c s below member
    have once := Rotates.whole_rounds (R := 1) (fun k _ => turn (c + k)) below
      (by simpa [isMember] using member)
    rwa [rank_isMember, Nat.one_mul] at once
  · intro m s below member t below' member'
    exact (rotates m).fair below (by simpa [isMember] using member) below'
      (by simpa [isMember] using member')

/-- Spines 0, 2 and 3, searched from the spine that is left out. -/
def threeOfFour : SprayAgent :=
  { fresh (Fabric.sound 4 fourUplinks_pos).flow with
    linkID := 1
    sets := { SpineSets.initial with svtNoFailure := Function.update (fun _ => 1) 1 (-1) } }

theorem nextValidLink_fair_threeOfFour :
    ∃ link : Nat → Nat, link 0 = 1 ∧
      (∀ m, afterCalls (Fabric.sound 4 fourUplinks_pos).flow threeOfFour m =
        .ok { threeOfFour with linkID := link m }) ∧
      ∀ c, Nat.count (fun k => link (c + k + 1) = 3) 3 = 1 := by
  obtain ⟨link, start, reached, -, once, -⟩ :=
    nextValidLink_fair (Fabric.sound 4 fourUplinks_pos).flow threeOfFour
      (Function.update (fun _ => 1) 1 (-1)) rfl ⟨0, by decide, by decide⟩
  exact ⟨link, start, reached, fun c => once c 3 (by decide) (by decide)⟩

end Saps.Spray
