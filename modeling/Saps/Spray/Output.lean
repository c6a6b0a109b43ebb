import Saps.Spray.Uplink
import Saps.Library.DrivenRun

/-!
# The packets of a flow

`output` is the load-balancing side of `TcpAgent::output` for a sender with
`flowcell_` set, from the top of the function to the counters at its end.
-/
namespace Saps.Spray

open SignedWord (wrap)

/-- What the header of a packet carries to the switches and the receiver. -/
structure Stamp where
  linkID : Nat
  flowcellSeq : Nat
  failureDetected : Bool
deriving DecidableEq, Repr

variable (cfg : SprayConfig)

/-- The agent that chooses the uplink: the first packet initialises it first. -/
def prepare (e : PacketEnv) (a : SprayAgent) : Except Fault SprayAgent :=
  if a.ndatapack = 0 then firstPacket cfg e a else pure a

def output (e : PacketEnv) (a : SprayAgent) : Except Fault (SprayAgent × Stamp) := do
  let a ← prepare cfg e a
  let a ← chooseUplink cfg e a
  let stamp : Stamp := {
    linkID := a.linkID
    flowcellSeq := a.ndatapack / cfg.flowcellSizePkts
    failureDetected := cfg.failureDetected e.now }
  pure ({ a with
    ndatapack := a.ndatapack + 1
    ndatabytes := wrap 32 (a.ndatabytes + e.databytes) }, stamp)

/-- The agent before packet `k` of a fresh flow. -/
def agentAt (envs : Nat → PacketEnv) (k : Nat) : Except Fault SprayAgent :=
  DrivenRun.stateAt (output cfg) (fresh cfg) envs k

/-- The stamp of packet `k` of a fresh flow. -/
def stampAt (envs : Nat → PacketEnv) (k : Nat) : Except Fault Stamp :=
  DrivenRun.outputAt (output cfg) (fresh cfg) envs k

variable {cfg} {e : PacketEnv} {a b : SprayAgent}

open Outcome (Ends)

theorem output_ok {st : Stamp} (h : output cfg e a = .ok (b, st)) :
    ∃ p q, prepare cfg e a = .ok p ∧ chooseUplink cfg e p = .ok q ∧
      b = { q with
        ndatapack := q.ndatapack + 1
        ndatabytes := wrap 32 (q.ndatabytes + e.databytes) } ∧
      st = ⟨q.linkID, q.ndatapack / cfg.flowcellSizePkts, cfg.failureDetected e.now⟩ := by
  obtain ⟨p, prepared, h⟩ := DrivenRun.bind_eq_ok.mp h
  obtain ⟨q, chosen, h⟩ := DrivenRun.bind_eq_ok.mp h
  cases h
  exact ⟨p, q, prepared, chosen, rfl, rfl⟩

theorem output_sent {p q : SprayAgent} (prepared : prepare cfg e a = .ok p)
    (chosen : chooseUplink cfg e p = .ok q) :
    output cfg e a = .ok
      ({ q with
          ndatapack := q.ndatapack + 1
          ndatabytes := wrap 32 (q.ndatabytes + e.databytes) },
        ⟨q.linkID, q.ndatapack / cfg.flowcellSizePkts, cfg.failureDetected e.now⟩) :=
  DrivenRun.bind_eq_ok.mpr ⟨p, prepared, DrivenRun.bind_eq_ok.mpr ⟨q, chosen, rfl⟩⟩

theorem prepare_first (first : a.ndatapack = 0) : prepare cfg e a = firstPacket cfg e a :=
  if_pos first

/-- Only the first packet has anything to prepare. -/
theorem prepare_later (started : 0 < a.ndatapack) : prepare cfg e a = .ok a :=
  if_neg started.ne'

/-- A packet is prepared without moving the counters, and only the first one's uplink. -/
theorem prepare_ends (e : PacketEnv) (a : SprayAgent) :
    Ends (· ≠ .endlessSearch) (fun b => b.ndatapack = a.ndatapack ∧
      b.ndatabytes = a.ndatabytes ∧
      ((0 < a.ndatapack → a.linkID < cfg.numUplinks) → b.linkID < cfg.numUplinks))
      (prepare cfg e a) := by
  rcases Nat.eq_zero_or_pos a.ndatapack with first | started
  · rw [prepare_first first]
    exact (firstPacket_ends e a).mono fun b ⟨packs, bytes, inside⟩ => ⟨packs, bytes, fun _ => inside⟩
  · rw [prepare_later started]
    exact And.intro rfl ⟨rfl, fun inside => inside started⟩

theorem prepare_counts (h : prepare cfg e a = .ok b) :
    b.ndatapack = a.ndatapack ∧ b.ndatabytes = a.ndatabytes := by
  obtain ⟨packs, bytes, -⟩ := (prepare_ends e a).of_ok h
  exact ⟨packs, bytes⟩

/-! ### What choosing an uplink leaves alone -/

theorem nextLink_keepsFlow (a : SprayAgent) : KeepsFlow cfg a (.ok (nextLink cfg a)) :=
  KeepsFlow.answer ⟨rfl, rfl, rfl, rfl⟩ fun _ => Nat.mod_lt _ cfg.uplinks_pos

theorem rotateFlowcell_keepsFlow (a : SprayAgent) :
    KeepsFlow cfg a (.ok (rotateFlowcell cfg a)) := by
  simp only [rotateFlowcell]
  split
  · exact nextLink_keepsFlow a
  · exact KeepsFlow.unchanged a

/-- A step of the rotation, and one more over a spine to be avoided. -/
theorem stepOver_keepsFlow (avoid : Prop) [Decidable avoid] (a : SprayAgent) :
    KeepsFlow cfg a (.ok (if avoid then nextLink cfg (nextLink cfg a) else nextLink cfg a)) := by
  split
  · exact (nextLink_keepsFlow a).after (nextLink_keepsFlow _)
  · exact nextLink_keepsFlow a

theorem onFlowCellMod_ends (a : SprayAgent) :
    Ends (· ≠ .endlessSearch) (fun _ => True) (onFlowCellMod a) := by
  simp only [onFlowCellMod]
  split
  · exact nofun
  · trivial

theorem weakSpinesTurn_ends (a : SprayAgent) :
    Ends (· ≠ .endlessSearch) (fun _ => True) (weakSpinesTurn a) :=
  (onFlowCellMod_ends a).bind fun _ _ => trivial

theorem poorPathPartial_keepsFlow (a : SprayAgent) :
    KeepsFlow cfg a (poorPathPartial cfg a) := by
  have left : KeepsFlow cfg a (.ok { a with poorPathFlow := false }) :=
    KeepsFlow.answer ⟨rfl, rfl, rfl, rfl⟩ id
  simp only [poorPathPartial]
  split_ifs
  · exact left.after (nextLink_keepsFlow _)
  · apply (firstFailure_ends cfg).bind
    intro f _
    exact left.after (stepOver_keepsFlow _ _)
  · exact KeepsFlow.unchanged a
  · apply (firstFailure_ends cfg).bind
    intro f inside
    exact KeepsFlow.answer ⟨rfl, rfl, rfl, rfl⟩ fun _ => inside

theorem poorPathFull_keepsFlow (a : SprayAgent) : KeepsFlow cfg a (poorPathFull cfg a) := by
  simp only [poorPathFull]
  apply (firstFailure_ends cfg).bind
  intro f inside
  split
  · have left : KeepsFlow cfg a (.ok { a with linkID := f.spine, poorPathFlow := false }) :=
      KeepsFlow.answer ⟨rfl, rfl, rfl, rfl⟩ fun _ => inside
    exact left.after (stepOver_keepsFlow _ _)
  · exact KeepsFlow.answer ⟨rfl, rfl, rfl, rfl⟩ fun _ => inside

theorem skipFailedSpine_keepsFlow (skip : Bool) (a : SprayAgent) :
    KeepsFlow cfg a (skipFailedSpine cfg skip a) := by
  simp only [skipFailedSpine]
  apply (firstFailure_ends cfg).bind
  intro f _
  exact stepOver_keepsFlow _ a

theorem selectivePartial_keepsFlow (a : SprayAgent) :
    KeepsFlow cfg a (selectivePartial cfg a) := by
  simp only [selectivePartial]
  split_ifs
  · exact KeepsFlow.unchanged a
  · exact poorPathPartial_keepsFlow a
  · exact nextLink_keepsFlow a
  · exact skipFailedSpine_keepsFlow _ a
  · exact KeepsFlow.unchanged a

theorem selectiveFull_keepsFlow (a : SprayAgent) : KeepsFlow cfg a (selectiveFull cfg a) := by
  simp only [selectiveFull]
  split_ifs
  · exact poorPathFull_keepsFlow a
  · exact skipFailedSpine_keepsFlow _ a
  · exact KeepsFlow.unchanged a

theorem takeWeakTurn_keepsFlow (a : SprayAgent) : KeepsFlow cfg a (.ok (takeWeakTurn cfg a)) := by
  simp only [takeWeakTurn]
  split
  · exact KeepsFlow.answer ⟨rfl, rfl, rfl, rfl⟩ id
  · exact KeepsFlow.answer ⟨rfl, rfl, rfl, rfl⟩ id

/-- Each round of the search takes the uplink it stands on or moves one on. -/
theorem weightedSearch_keepsFlow (rounds : Nat) (a : SprayAgent) :
    KeepsFlow cfg a (weightedSearch cfg rounds a) := by
  induction rounds generalizing a with
  | zero => exact KeepsFlow.unchanged a
  | succ rounds ih =>
    have onward := (nextLink_keepsFlow a).after (ih (nextLink cfg a))
    simp only [weightedSearch]
    split_ifs
    · exact onward
    · apply (weakSpinesTurn_ends a).bind
      intro due _
      split
      · exact takeWeakTurn_keepsFlow a
      · exact onward
    · apply (weakSpinesTurn_ends a).bind
      intro due _
      split
      · exact onward
      · exact KeepsFlow.unchanged a

theorem weightedMultiple_keepsFlow (a : SprayAgent) :
    KeepsFlow cfg a (weightedMultiple cfg a) := by
  simp only [weightedMultiple]
  split
  · exact (nextLink_keepsFlow a).after (weightedSearch_keepsFlow _ _)
  · exact nextLink_keepsFlow a

theorem weightedSingle_keepsFlow (a : SprayAgent) : KeepsFlow cfg a (weightedSingle cfg a) := by
  simp only [weightedSingle]
  apply (firstFailure_ends cfg).bind
  intro f _
  split
  · apply (onFlowCellMod_ends _).bind
    intro due _
    split
    · exact (nextLink_keepsFlow a).after (nextLink_keepsFlow _)
    · exact (nextLink_keepsFlow a).after (KeepsFlow.answer ⟨rfl, rfl, rfl, rfl⟩ id)
  · exact nextLink_keepsFlow a

theorem weightedPartial_keepsFlow (a : SprayAgent) : KeepsFlow cfg a (weightedPartial cfg a) := by
  simp only [weightedPartial]
  split_ifs
  · exact weightedMultiple_keepsFlow a
  · exact weightedSingle_keepsFlow a
  · exact KeepsFlow.unchanged a

theorem weightedFull_keepsFlow (a : SprayAgent) : KeepsFlow cfg a (weightedFull cfg a) := by
  simp only [weightedFull]
  split
  · exact skipFailedSpine_keepsFlow _ a
  · exact KeepsFlow.unchanged a

theorem detectedByCase_keepsFlow (a : SprayAgent) : KeepsFlow cfg a (detectedByCase cfg a) := by
  simp only [detectedByCase]
  split_ifs
  · exact selectivePartial_keepsFlow a
  · exact weightedPartial_keepsFlow a
  · exact selectiveFull_keepsFlow a
  · exact weightedFull_keepsFlow a
  · exact KeepsFlow.unchanged a
  · exact rotateFlowcell_keepsFlow a

theorem pickUplink_inside {weights : Nat → Nat} {r : Int} {left counter added i : Nat}
    (h : pickUplink weights r left counter added = some i) : i < counter + left := by
  induction left generalizing counter added with
  | zero => cases h
  | succ left ih =>
    simp only [pickUplink] at h
    split at h
    · cases h
      omega
    · have later := ih h
      omega

theorem drawUplink_keepsFlow (e : PacketEnv) (a : SprayAgent) :
    KeepsFlow cfg a (drawUplink cfg e a) := by
  simp only [drawUplink]
  apply (randomInteger_ends _ _).bind
  intro r _
  -- an uplink by weight, or any uplink if the weights fall short of the draw
  split
  next i picked =>
    exact KeepsFlow.answer ⟨rfl, rfl, rfl, rfl⟩ fun _ => by simpa using pickUplink_inside picked
  next =>
    apply (randomInteger_ends _ _).bind
    intro i range
    refine KeepsFlow.answer ⟨rfl, rfl, rfl, rfl⟩ fun _ => ?_
    show i.toNat < cfg.numUplinks
    omega

theorem probabilistic_keepsFlow (e : PacketEnv) (a : SprayAgent) :
    KeepsFlow cfg a (probabilistic cfg e a) := by
  simp only [probabilistic]
  split
  · exact drawUplink_keepsFlow e a
  · exact KeepsFlow.unchanged a

theorem staticRoundRobin_keepsFlow (a : SprayAgent) :
    KeepsFlow cfg a (staticRoundRobin cfg a) := by
  have skip := (nextLink_keepsFlow a).after (nextLink_keepsFlow (nextLink cfg a))
  simp only [staticRoundRobin]
  split
  · exact KeepsFlow.unchanged a
  split
  · apply (firstFailure_ends cfg).bind
    intro f _
    -- only a step onto the failed spine asks whether its turn has come
    split
    · split
      · exact skip
      · apply (onFlowCellMod_ends _).bind
        intro due _
        split
        · exact (nextLink_keepsFlow a).after (KeepsFlow.answer ⟨rfl, rfl, rfl, rfl⟩ id)
        · exact skip
    · exact nextLink_keepsFlow a
  · exact KeepsFlow.unchanged a

/-- A packet either takes the multi-failure search or keeps the flow. -/
theorem chooseUplink_eq (e : PacketEnv) (a : SprayAgent) :
    (searchesSpineSet cfg e a = true ∧ chooseUplink cfg e a = nextValidLink cfg (remap cfg a)) ∨
      (searchesSpineSet cfg e a = false ∧ KeepsFlow cfg a (chooseUplink cfg e a)) := by
  simp only [chooseUplink, searchesSpineSet]
  -- one case for each leaf of the decision, in the order of the source
  split_ifs with aware realistic robin detected selective robin
  · exact .inr ⟨by simp [aware], rotateFlowcell_keepsFlow a⟩
  · exact .inl ⟨by simp_all, rfl⟩
  · exact .inr ⟨by simp_all, detectedByCase_keepsFlow a⟩
  · exact .inr ⟨by simp_all, rotateFlowcell_keepsFlow a⟩
  · exact .inr ⟨by simp_all, probabilistic_keepsFlow e a⟩
  · exact .inr ⟨by simp_all, rotateFlowcell_keepsFlow a⟩
  · exact .inr ⟨by simp_all, staticRoundRobin_keepsFlow a⟩
  · exact .inr ⟨by simp_all, probabilistic_keepsFlow e a⟩

theorem chooseUplink_cases (h : chooseUplink cfg e a = .ok b) :
    (searchesSpineSet cfg e a = true ∧ nextValidLink cfg (remap cfg a) = .ok b) ∨
      (searchesSpineSet cfg e a = false ∧ SameFlow a b) := by
  rcases chooseUplink_eq e a with ⟨searches, same⟩ | ⟨other, kept⟩
  · exact .inl ⟨searches, same ▸ h⟩
  · exact .inr ⟨other, (kept.of_ok h).1⟩

end Saps.Spray
