import Saps.Library.History
import Saps.Library.MovingAverage
import Saps.Tcp.EstimatorRange

/-!
# The DCTCP estimate is a moving average

The estimate averages the marked fractions of the windows of data, and every cut is
by half of that average. A few windows alike are enough to bring it near theirs.
-/
namespace Saps.Tcp

open MovingAverage

/-- The marked fraction that moved the estimate. -/
def Entry.fraction : Entry → Option ℚ
  | .alphaUpdate _ marked total _ => some (if total > 0 then marked / total else 0)
  | _ => none

/-- The marked fractions of a history, oldest first. -/
def fractions (entries : List Entry) : List ℚ := entries.filterMap Entry.fraction

/-- A DCTCP cut goes by the average of the fractions before it. -/
def CutByAverage (g alpha : ℚ) (earlier : List Entry) : Entry → Prop
  | .slowedDown how win cwnd ssthresh =>
    how = .dctcp → DctcpCut (after g alpha (fractions earlier)) win cwnd ssthresh
  | _ => True

structure Averaged (g alpha : ℚ) (l : Ledger) : Prop where
  estimate : l.dctcpAlpha = after g alpha (fractions l.entries)
  cuts : History.Justified (CutByAverage g alpha) l.entries

namespace Averaged

variable {g alpha : ℚ} {l m : Ledger}

/-- An entry that brings no fraction leaves the average where it is. -/
theorem record (averaged : Averaged g alpha l) {e : Entry} (other : e.fraction = none)
    (right : CutByAverage g alpha l.entries e) : Averaged g alpha (l.record e) where
  estimate := by
    have same : fractions (l.entries ++ [e]) = fractions l.entries := by
      simp [fractions, other]
    show l.dctcpAlpha = after g alpha (fractions (l.entries ++ [e]))
    rw [same]
    exact averaged.estimate
  cuts := averaged.cuts.extend right

theorem alphaUpdate (averaged : Averaged g alpha l) (seqno : Int) :
    Averaged g alpha (l.alphaUpdate g seqno) where
  estimate := by
    have more : fractions (l.alphaUpdate g seqno).entries =
        fractions l.entries ++ [l.markedFraction] := by
      simp [fractions, Ledger.alphaUpdate, Ledger.record, Entry.fraction, Ledger.markedFraction]
    rw [more, after_concat, ← averaged.estimate]
    rfl
  cuts := averaged.cuts.extend trivial

end Averaged

theorem QuietAct.averaged {dctcp : Bool} {g alpha : ℚ} {l m : Ledger}
    (before : Averaged g alpha l) (act : QuietAct dctcp l m) : Averaged g alpha m := by
  have recorded {e : Entry} (other : e.fraction = none)
      (right : CutByAverage g alpha l.entries e) := before.record other right
  cases act with
  | slowedDown how win cwnd ssthresh cut =>
    refine recorded rfl fun isDctcp => ?_
    rw [← before.estimate]
    exact cut isDctcp
  | dupack | enterRecovery => exact ⟨before.estimate, before.cuts⟩
  | sent p => exact { recorded (e := .sent p) rfl trivial with }
  | ecnReaction seqno due =>
    exact { recorded (e := .ecnReaction seqno l.maxseq) rfl trivial with }
  | recoveryExit seqno passed => exact { recorded (e := .recoveryExit seqno) rfl trivial with }
  | spuriousTimeout recover => exact { recorded (e := .spuriousTimeout) rfl trivial with }
  | rto tSeqno => exact { recorded (e := .rto tSeqno l.maxseq) rfl trivial with }

theorem Act.averaged {dctcp : Bool} {g alpha : ℚ} {l m : Ledger} (before : Averaged g alpha l)
    (act : Act dctcp g l m) : Averaged g alpha m := by
  have counted (seqno acked : Int) (ecnbit : Bool) :
      Averaged g alpha (l.counted seqno acked ecnbit) :=
    { before.record (e := .counted seqno acked ecnbit) rfl trivial with }
  cases act with
  | quiet act => exact act.averaged before
  | counted seqno acked ecnbit pos => exact counted seqno acked ecnbit
  | alphaUpdate seqno acked ecnbit pos passed =>
    exact (counted seqno acked ecnbit).alphaUpdate seqno

/-! ### Fractions -/

/-- What was counted in a window bounds what was marked in it. -/
theorem fraction_inRange {entries : List Entry} (inRange : ∀ e ∈ entries, e.InRange) :
    ∀ f ∈ fractions entries, 0 ≤ f ∧ f ≤ 1 := by
  intro f member
  obtain ⟨e, listed, same⟩ := List.mem_filterMap.mp member
  have sound := inRange e listed
  cases e with
  | alphaUpdate seqno marked total alpha =>
    obtain ⟨counted, marked_nonneg, marked_le, -, -⟩ := sound
    have positive : (0 : ℚ) < total := by exact_mod_cast (show 0 < total by omega)
    simp only [Entry.fraction, if_pos (show total > 0 by omega), Option.some.injEq] at same
    rw [← same]
    exact ⟨div_nonneg (by exact_mod_cast marked_nonneg) positive.le,
      (div_le_one positive).mpr (by exact_mod_cast marked_le)⟩
  | sent | counted | slowedDown | ecnReaction | recoveryExit | spuriousTimeout | rto => cases same

/-- How near an estimate is to the last fractions of a history: from wherever it was before, all
but the part `(1 - g) ^ n` of the way to `n` of them that were alike. -/
def Near (g : ℚ) (entries : List Entry) (alpha : ℚ) : Prop :=
  ∀ (old recent : List ℚ) (lo hi : ℚ), fractions entries = old ++ recent →
    (∀ f ∈ recent, lo ≤ f ∧ f ≤ hi) →
    lo - (1 - g) ^ recent.length * lo ≤ alpha ∧ alpha ≤ hi + (1 - g) ^ recent.length * (1 - hi)

theorem after_near {g alpha : ℚ} {entries : List Entry} (g_nonneg : 0 ≤ g) (g_le : g ≤ 1)
    (alpha_nonneg : 0 ≤ alpha) (alpha_le : alpha ≤ 1) (sound : ∀ e ∈ entries, e.InRange) :
    Near g entries (after g alpha (fractions entries)) := by
  intro old recent lo hi split alike
  have inRange := fraction_inRange sound
  rw [split] at inRange
  have before (f : ℚ) (member : f ∈ old) : 0 ≤ f ∧ f ≤ 1 :=
    inRange f (List.mem_append_left recent member)
  have nonneg : 0 ≤ after g alpha old :=
    le_after g_nonneg g_le alpha_nonneg fun f member => (before f member).1
  have le_one : after g alpha old ≤ 1 :=
    after_le g_nonneg g_le alpha_le fun f member => (before f member).2
  have weight : 0 ≤ (1 - g) ^ recent.length := pow_nonneg (by linarith) _
  have above := @after_sub_le ℚ _ g (after g alpha old) hi recent _ _ g_nonneg g_le
    fun f member => (alike f member).2
  have below := @le_after_sub ℚ _ g (after g alpha old) lo recent _ _ g_nonneg g_le
    fun f member => (alike f member).1
  have high := mul_le_mul_of_nonneg_left le_one weight
  have low := mul_nonneg weight nonneg
  rw [split, after_append]
  constructor
  · linarith
  · linarith

/-! ### Runs -/

/-- The estimate is the moving average of the marked fractions, whatever happens to the ACKs, and
every DCTCP cut takes half of the average that stood before it. So a few windows alike decide how
hard the sender reacts, whatever came before them. -/
theorem alpha_average {σ : Type} (S : Setup σ) (inputs : Nat → Input) (k : Nat) (a : Agent σ)
    (g_nonneg : 0 ≤ S.dctcpG) (g_le : S.dctcpG ≤ 1) (alpha_nonneg : 0 ≤ S.dctcpAlpha)
    (alpha_le : S.dctcpAlpha ≤ 1) (reached : agentAt S (fresh S) inputs k = .ok a) :
    (a.dctcpAlpha = after S.dctcpG S.dctcpAlpha (fractions a.entries) ∧
      Near S.dctcpG a.entries a.dctcpAlpha) ∧
      ∀ (earlier later : List Entry) (win cwnd : ℚ) (ssthresh : Int),
        a.entries = earlier ++ .slowedDown .dctcp win cwnd ssthresh :: later →
        Near S.dctcpG earlier (after S.dctcpG S.dctcpAlpha (fractions earlier)) ∧
          DctcpCut (after S.dctcpG S.dctcpAlpha (fractions earlier)) win cwnd ssthresh := by
  have initial : Averaged S.dctcpG S.dctcpAlpha (fresh S).toLedger :=
    ⟨rfl, History.justified_nil⟩
  have averaged : Averaged S.dctcpG S.dctcpAlpha a.toLedger :=
    agentAt_invariant initial (fun _ _ before act => act.averaged before) reached
  have start : (fresh S).toLedger.InRange := by
    refine ⟨?_, ?_, alpha_nonneg, alpha_le, ?_⟩
    · simp [fresh]
    · simp [fresh]
    · simp [fresh]
  have sound : a.toLedger.InRange :=
    agentAt_invariant start (fun _ _ before act => act.inRange g_nonneg g_le before) reached
  refine ⟨⟨averaged.estimate, ?_⟩, fun earlier later win cwnd ssthresh split => ?_⟩
  · rw [averaged.estimate]
    exact after_near g_nonneg g_le alpha_nonneg alpha_le sound.entries
  · have before (e : Entry) (member : e ∈ earlier) : e.InRange :=
      sound.entries e (split ▸ List.mem_append_left _ member)
    exact ⟨after_near g_nonneg g_le alpha_nonneg alpha_le before,
      averaged.cuts earlier _ later split rfl⟩

/-- Every ACK carries ECN-Echo. -/
def allMarked : List Stimulus :=
  [.advanceby 100, ackWithEcho 0, ackWithEcho 1, ackWithEcho 2, ackWithEcho 3, ackWithEcho 4,
    ackWithEcho 5, ackWithEcho 6, ackWithEcho 7]

theorem alpha_average_allMarked : ∃ a, afterScript allMarked = .ok a ∧
    fractions a.entries = [1, 1, 1, 1] ∧ a.dctcpAlpha = 14911 / 65536 ∧
    1 - (1 - 625 / 10000) ^ 4 * 1 ≤ a.dctcpAlpha := by
  obtain ⟨a, reached, found⟩ := DrivenRun.exists_of_any (x := afterScript allMarked)
    (p := fun a => decide (fractions a.entries = [1, 1, 1, 1]) &&
      decide (a.dctcpAlpha = 14911 / 65536)) (by decide +kernel)
  simp only [Bool.and_eq_true, decide_eq_true_eq] at found
  obtain ⟨⟨-, near⟩, -⟩ := alpha_average dctcpSetup (scripted allMarked) 9 a (by decide +kernel)
    (by decide +kernel) (by decide +kernel) (by decide +kernel) reached
  have all := near [] [1, 1, 1, 1] 1 1 found.1 (by simp)
  exact ⟨a, reached, found.1, found.2, all.1⟩

end Saps.Tcp
