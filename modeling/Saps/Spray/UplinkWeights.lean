import Mathlib.Tactic.Choose
import Saps.Library.WeightedDraw
import Saps.Spray.Output

/-!
# Probabilistic spraying

The uplinks own the numbers below the sum of the weights, each as many as its weight. The
loop over the weights finds the owner of the number drawn, so the uplinks are picked in
exact proportion and the second draw is never made.
-/
namespace Saps.Spray

open DrivenRun (bind_eq_ok)
open WeightedDraw (Owns before)

variable {cfg : SprayConfig} {e : PacketEnv} {a b : SprayAgent} {w : Nat → Nat} {i r : Nat}

/-! ### The loop over the weights -/

/-- From a member on that is not behind the owner, the loop stops at the owner. -/
theorem pickUplink_owner (owns : Owns w i r) {left counter : Nat} (ahead : counter ≤ i)
    (within : i < counter + left) :
    pickUplink w r left counter (before w counter) = some i := by
  induction left generalizing counter with
  | zero => omega
  | succ left ih =>
    simp only [pickUplink]
    rw [← WeightedDraw.before_succ]
    rcases Nat.eq_or_lt_of_le ahead with rfl | further
    · rw [if_pos (by exact_mod_cast owns.2)]
    · -- the weights up to `counter` do not reach the number
      have low : before w (counter + 1) ≤ before w i := WeightedDraw.before_mono w further
      have beyond : before w (counter + 1) ≤ r := low.trans owns.1
      rw [if_neg (by omega)]
      exact ih further (by omega)

/-- The loop reads the weights of the uplinks it is bounded by, and no others. -/
theorem before_congr {w' : Nat → Nat} {n : Nat} (same : ∀ i < n, w' i = w i) (inside : i ≤ n) :
    before w' i = before w i :=
  Finset.sum_congr rfl fun k hk => same k ((Finset.mem_range.mp hk).trans_le inside)

/-! ### The weights of the first packet -/

/-- The sum that the draw is made below is the sum of the weights. -/
def Totalled (cfg : SprayConfig) (a : SprayAgent) : Prop :=
  a.totalUplinkWeights = ∑ i ∈ Finset.range cfg.numUplinks, a.uplinkWeights i

theorem assignWeights_totalled {weight : Nat → Except Fault Nat} (none : a.totalUplinkWeights = 0)
    (h : assignWeights cfg weight a = .ok b) : Totalled cfg b := by
  -- after `m` rounds the sum covers the first `m` weights
  refine assignWeights_rounds (I := fun m c => c.totalUplinkWeights = before c.uplinkWeights m)
    none ?_ h
  intro m c v sum _
  have kept : before (Function.update c.uplinkWeights m v) m = before c.uplinkWeights m :=
    before_congr (fun i inside => Function.update_of_ne inside.ne _ _) le_rfl
  dsimp only
  rw [WeightedDraw.before_succ, kept, Function.update_self, sum]

/-- A probabilistic flow starts with the sum of its weights. -/
theorem firstPacket_totalled (aware : cfg.failureAware = true) (draws : cfg.roundRobin = false)
    (h : firstPacket cfg e (fresh cfg) = .ok b) : Totalled cfg b := by
  obtain ⟨mapped, mapping, h⟩ := bind_eq_ok.mp h
  obtain ⟨started, scheme, h⟩ := bind_eq_ok.mp h
  cases h
  have none : mapped.totalUplinkWeights = 0 := by
    simp only [mapToSpineSet] at mapping
    split_ifs at mapping
    · obtain ⟨bw, -, mapping⟩ := bind_eq_ok.mp mapping
      obtain ⟨m, -, mapping⟩ := bind_eq_ok.mp mapping
      cases mapping
      rfl
    · cases mapping
      rfl
    · cases mapping
      rfl
  -- both schemes that draw assign weights, and nothing was weighed before
  have weights : ∃ weight, assignWeights cfg weight mapped = .ok started := by
    simp only [initScheme] at scheme
    rw [if_pos aware, draws] at scheme
    split at scheme
    · exact ⟨_, scheme⟩
    · exact ⟨_, scheme⟩
  obtain ⟨weight, assigned⟩ := weights
  have sum : Totalled cfg started := assignWeights_totalled none assigned
  exact sum

/-! ### The draw -/

theorem drawUplink_eq (positive : 0 < a.totalUplinkWeights)
    (picked : pickUplink a.uplinkWeights ((e.randomNumber % a.totalUplinkWeights : Nat) : Int)
      cfg.numUplinks 0 0 = some i) :
    drawUplink cfg e a = .ok { a with linkID := i } := by
  have drawn : randomInteger a.totalUplinkWeights e.randomNumber =
      .ok ((e.randomNumber % a.totalUplinkWeights : Nat) : Int) :=
    if_neg (by omega)
  simp only [drawUplink, drawn, bind, Except.bind]
  rw [picked]
  rfl

/-- The same flow with `realisticFailure_` set or not. -/
def SprayConfig.withRealistic (cfg : SprayConfig) (realisticFailure : Bool) : SprayConfig :=
  { cfg with realisticFailure }

/-- The branch of a detected failure and the one of a static failure make the same draw. -/
theorem chooseUplink_probabilistic (aware : cfg.failureAware = true)
    (draws : cfg.roundRobin = false) (starts : startsFlowcell cfg a = true)
    (known : cfg.realisticFailure = false ∨ cfg.failureDetected e.now = true) :
    chooseUplink cfg e a = drawUplink cfg e a := by
  have draw : probabilistic cfg e a = drawUplink cfg e a := if_pos starts
  simp only [chooseUplink, aware, draws, draw, Bool.false_eq_true, reduceCtorEq, if_false]
  rcases known with fixed | detected
  · simp [fixed]
  · simp [detected]

/-- Over the equally likely draws every uplink is picked as often as its weight says. The
loop answers for each of them, from the weights below `numUplinks` alone, so the second
draw is not made; and both copies of it pick the same uplink for the same number. -/
theorem probabilistic_exact (cfg : SprayConfig) (a : SprayAgent) (total : Totalled cfg a)
    (positive : 0 < a.totalUplinkWeights) :
    ∃ pick : Nat → Nat,
      (∀ i < cfg.numUplinks,
        a.totalUplinkWeights.count (fun r => pick r = i) = a.uplinkWeights i) ∧
      (∀ r < a.totalUplinkWeights, pick r < cfg.numUplinks ∧ a.uplinkWeights (pick r) ≠ 0 ∧
        pickUplink a.uplinkWeights r cfg.numUplinks 0 0 = some (pick r)) ∧
      (∀ w : Nat → Nat, (∀ i < cfg.numUplinks, w i = a.uplinkWeights i) →
        ∀ r < a.totalUplinkWeights, ∀ more,
          pickUplink w r (cfg.numUplinks + more) 0 0 = some (pick r)) ∧
      (cfg.failureAware = true → cfg.roundRobin = false → startsFlowcell cfg a = true → ∀ e,
        ((cfg.withRealistic true).failureDetected e.now = true →
          chooseUplink (cfg.withRealistic true) e a =
            .ok { a with linkID := pick (e.randomNumber % a.totalUplinkWeights) }) ∧
        chooseUplink (cfg.withRealistic false) e a =
          .ok { a with linkID := pick (e.randomNumber % a.totalUplinkWeights) }) := by
  have sum : a.totalUplinkWeights = before a.uplinkWeights cfg.numUplinks := total
  have owner : ∀ r, ∃ i, r < a.totalUplinkWeights → i < cfg.numUplinks ∧ Owns a.uplinkWeights i r := by
    intro r
    by_cases below : r < a.totalUplinkWeights
    · obtain ⟨i, inside, owns⟩ := WeightedDraw.exists_owner (sum ▸ below)
      exact ⟨i, fun _ => ⟨inside, owns⟩⟩
    · exact ⟨0, fun inside => absurd inside below⟩
  choose pick owns using owner
  have picked (r : Nat) (below : r < a.totalUplinkWeights) :
      pickUplink a.uplinkWeights r cfg.numUplinks 0 0 = some (pick r) :=
    pickUplink_owner (owns r below).2 (Nat.zero_le _) (by have := (owns r below).1; omega)
  refine ⟨pick, fun i inside => ?_, fun r below => ?_, fun w same r below more => ?_,
    fun aware draws starts e => ?_⟩
  · rw [← WeightedDraw.count_owned (w := a.uplinkWeights) inside, ← sum]
    refine CountUpdate.count_congr fun r below => ?_
    constructor
    · rintro rfl
      exact (owns r below).2
    · exact (owns r below).2.unique
  · exact ⟨(owns r below).1, (owns r below).2.weight_pos.ne', picked r below⟩
  -- weights behind the owner of the number are not looked at
  · obtain ⟨inside, low, high⟩ := owns r below
    have owned : Owns w (pick r) r :=
      ⟨by rwa [before_congr same inside.le], by rwa [before_congr same inside]⟩
    exact pickUplink_owner owned (Nat.zero_le _) (by omega)
  · have draw := picked _ (Nat.mod_lt e.randomNumber positive)
    constructor
    · intro detected
      rw [@chooseUplink_probabilistic (cfg.withRealistic true) e a aware draws starts
        (.inr detected)]
      exact drawUplink_eq positive draw
    · rw [@chooseUplink_probabilistic (cfg.withRealistic false) e a aware draws starts (.inl rfl)]
      exact drawUplink_eq positive draw

/-- The agent of a flow whose uplink 0 is dead and whose uplink 1 is degraded to a half. -/
def threeWeights : SprayAgent :=
  { fresh (Fabric.sound 3 threeUplinks_pos).flow with
    uplinkWeights := fun i => 5 * i
    totalUplinkWeights := 15 }

theorem probabilistic_exact_threeWeights :
    ∃ pick : Nat → Nat,
      (∀ r : Nat, r < 15 → pickUplink threeWeights.uplinkWeights r 3 0 0 = some (pick r)) ∧
      Nat.count (fun r => pick r = 0) 15 = 0 ∧ Nat.count (fun r => pick r = 1) 15 = 5 ∧
      Nat.count (fun r => pick r = 2) 15 = 10 := by
  obtain ⟨pick, shares, picked, -⟩ := probabilistic_exact
    (Fabric.sound 3 threeUplinks_pos).flow threeWeights rfl (by decide)
  exact ⟨pick, fun r below => (picked r below).2.2, shares 0 (by decide), shares 1 (by decide),
    shares 2 (by decide)⟩

end Saps.Spray
