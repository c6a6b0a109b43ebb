import Saps.Library.History
import Saps.Tcp.Refinement
import Saps.Tcp.SegmentBoard

/-!
# The barrier of the DCTCP estimate

An update of the estimate puts the barrier for the next one at `dctcp_maxseq`, the
highest number sent. A retransmission timeout overwrites both with `t_seqno_`, and
after an earlier timeout that number has been wound back.
-/
namespace Saps.Tcp

open History

/-- Every retransmission timeout found `t_seqno_` no lower than what had been sent. -/
def TimeoutsAtTop (entries : List Entry) : Prop :=
  ∀ tSeqno maxseq, .rto tSeqno maxseq ∈ entries → maxseq ≤ tSeqno

def SentUpTo (entries : List Entry) (top : Int) : Prop :=
  ∀ p, .sent p ∈ entries → p.seqno ≤ top

theorem SentUpTo.mono {entries : List Entry} {top higher : Int} (sent : SentUpTo entries top)
    (le : top ≤ higher) : SentUpTo entries higher :=
  fun p member => (sent p member).trans le

theorem SentUpTo.append {entries : List Entry} {top : Int} {x : Entry}
    (sent : SentUpTo entries top) (next : ∀ p, x = .sent p → p.seqno ≤ top) :
    SentUpTo (entries ++ [x]) top := by
  intro p member
  rcases List.mem_append.mp member with old | now
  · exact sent p old
  · exact next p (List.mem_singleton.mp now).symm

theorem TimeoutsAtTop.of_append {entries more : List Entry}
    (atTop : TimeoutsAtTop (entries ++ more)) : TimeoutsAtTop entries :=
  fun tSeqno maxseq member => atTop tSeqno maxseq (List.mem_append_left more member)

/-- Consecutive updates: the second comes for an ACK past all that was sent before the first. -/
def UpdatesApart (earlier : List Entry) (e : Entry) (between : List Entry) (x : Entry) : Prop :=
  ∀ seqno marked total alpha, e.IsUpdate → x = .alphaUpdate seqno marked total alpha →
    TimeoutsAtTop (earlier ++ between) → ∀ p, .sent p ∈ earlier → p.seqno < seqno

structure BarrierHeld (l : Ledger) : Prop where
  sent : SentUpTo l.entries l.maxseq
  covered : TimeoutsAtTop l.entries → SentUpTo l.entries l.dctcpMaxseq
  standing : Standing Entry.IsUpdate
    (fun earlier e later s => e.IsUpdate → TimeoutsAtTop (earlier ++ later) →
      SentUpTo earlier s.dctcpAlphaUpdateSeq) l.entries l
  spaced : Spaced Entry.IsUpdate UpdatesApart l.entries

namespace BarrierHeld

variable {l m : Ledger} {x : Entry}

theorem move (held : BarrierHeld l) (entries : m.entries = l.entries)
    (maxseq : m.maxseq = l.maxseq) (dctcpMaxseq : m.dctcpMaxseq = l.dctcpMaxseq)
    (barrier : m.dctcpAlphaUpdateSeq = l.dctcpAlphaUpdateSeq) : BarrierHeld m where
  sent := by
    rw [entries, maxseq]
    exact held.sent
  covered := by
    rw [entries, dctcpMaxseq]
    exact held.covered
  standing := by
    rw [entries]
    apply held.standing.move
    intro earlier e later bond
    rw [barrier]
    exact bond
  spaced := by
    rw [entries]
    exact held.spaced

/-- Any entry but an update, recorded with the barrier where it was or at a timeout's top. -/
theorem extend (held : BarrierHeld l) (entries : m.entries = l.entries ++ [x])
    (other : ¬ x.IsUpdate) (sent : SentUpTo (l.entries ++ [x]) m.maxseq)
    (covered : TimeoutsAtTop (l.entries ++ [x]) → SentUpTo (l.entries ++ [x]) m.dctcpMaxseq)
    (barrier : m.dctcpAlphaUpdateSeq = l.dctcpAlphaUpdateSeq ∨
      ∃ tSeqno, x = .rto tSeqno l.maxseq ∧ m.dctcpAlphaUpdateSeq = tSeqno) : BarrierHeld m where
  sent := entries ▸ sent
  covered := by
    rw [entries]
    exact covered
  standing := by
    rw [entries]
    refine held.standing.extend ?_ fun isUpdate => absurd isUpdate other
    intro earlier e later split _ bond isUpdate atTop
    rcases barrier with same | ⟨tSeqno, rfl, moved⟩
    · rw [same]
      rw [← List.append_assoc] at atTop
      exact bond isUpdate atTop.of_append
    · -- the timeout moved the barrier, but not below what had been sent
      have high : l.maxseq ≤ tSeqno := atTop tSeqno l.maxseq (by simp)
      have before : SentUpTo earlier l.maxseq :=
        fun p member => held.sent p (by simp [split, member])
      exact moved ▸ before.mono high
  spaced := by
    rw [entries]
    apply held.spaced.extend
    intro _ _ _ _ _ seqno marked total alpha _ update
    exact absurd (update ▸ trivial : x.IsUpdate) other

/-- An entry that is neither an update nor a timeout, and sends nothing. -/
theorem record (held : BarrierHeld l) (entries : m.entries = l.entries ++ [x])
    (maxseq : m.maxseq = l.maxseq) (dctcpMaxseq : m.dctcpMaxseq = l.dctcpMaxseq)
    (barrier : m.dctcpAlphaUpdateSeq = l.dctcpAlphaUpdateSeq) (other : ¬ x.IsUpdate)
    (silent : ∀ p, x ≠ .sent p) : BarrierHeld m := by
  have nothing (top : Int) : ∀ p, x = .sent p → p.seqno ≤ top := fun p now => absurd now (silent p)
  refine held.extend entries other ?_ ?_ (.inl barrier)
  · rw [maxseq]
    exact held.sent.append (nothing l.maxseq)
  · intro atTop
    rw [dctcpMaxseq]
    exact (held.covered atTop.of_append).append (nothing l.dctcpMaxseq)

theorem send (held : BarrierHeld l) (p : DataPacket) : BarrierHeld (l.sent true p) := by
  have raised : l.maxseq ≤ (l.sent true p).maxseq ∧ p.seqno ≤ (l.sent true p).maxseq := by
    simp only [Ledger.sent]
    split <;> omega
  have followed : l.dctcpMaxseq ≤ (l.sent true p).dctcpMaxseq ∧
      p.seqno ≤ (l.sent true p).dctcpMaxseq := by
    simp only [Ledger.sent, true_and]
    split <;> omega
  refine held.extend (x := .sent p) rfl (fun isUpdate => isUpdate) ?_ ?_ (.inl rfl)
  · apply (held.sent.mono raised.1).append
    rintro _ ⟨⟩
    exact raised.2
  · intro atTop
    apply ((held.covered atTop.of_append).mono followed.1).append
    rintro _ ⟨⟩
    exact followed.2

theorem expire (held : BarrierHeld l) (tSeqno : Int) : BarrierHeld (l.rto tSeqno) := by
  have nothing (top : Int) : ∀ p, Entry.rto tSeqno l.maxseq = .sent p → p.seqno ≤ top := by
    intro p now
    cases now
  refine held.extend (x := .rto tSeqno l.maxseq) rfl (fun isUpdate => isUpdate) ?_ ?_
    (.inr ⟨tSeqno, rfl, rfl⟩)
  · exact held.sent.append (nothing l.maxseq)
  · -- a timeout that found `t_seqno_` wound back leaves `dctcp_maxseq` below what was sent
    intro atTop
    have high : l.maxseq ≤ tSeqno := atTop tSeqno l.maxseq (by simp)
    exact (held.sent.mono high).append (nothing tSeqno)

theorem update (held : BarrierHeld l) {g : ℚ} {seqno : Int}
    (passed : l.dctcpAlphaUpdateSeq < seqno) : BarrierHeld (l.alphaUpdate g seqno) where
  sent := held.sent.append fun p now => by cases now
  covered atTop := (held.covered atTop.of_append).append fun p now => by cases now
  standing := by
    -- an update cancels the bonds of the older ones, and `dctcp_maxseq` covers its own
    apply held.standing.extend
    · intro _ _ _ _ going
      exact absurd trivial going
    · intro _ atTop
      exact held.covered atTop.of_append
  spaced := by
    apply held.spaced.extend
    intro earlier e later split free s marked total alpha isUpdate now atTop p member
    cases now
    have below := held.standing earlier e later split free isUpdate atTop p member
    omega

end BarrierHeld

theorem QuietAct.barrierHeld {l m : Ledger} (held : BarrierHeld l) (act : QuietAct true l m) :
    BarrierHeld m := by
  cases act with
  | sent p => exact held.send p
  | dupack | enterRecovery => exact held.move rfl rfl rfl rfl
  | rto tSeqno => exact held.expire tSeqno
  | slowedDown | ecnReaction | recoveryExit | spuriousTimeout =>
    exact held.record rfl rfl rfl rfl (fun isUpdate => isUpdate) (by simp)

theorem Act.barrierHeld {g : ℚ} {l m : Ledger} (held : BarrierHeld l) (act : Act true g l m) :
    BarrierHeld m := by
  have counted (seqno acked : Int) (ecnbit : Bool) : BarrierHeld (l.counted seqno acked ecnbit) :=
    held.record rfl rfl rfl rfl (fun isUpdate => isUpdate) (by simp)
  cases act with
  | quiet act => exact act.barrierHeld held
  | counted seqno acked ecnbit => exact counted seqno acked ecnbit
  | alphaUpdate seqno acked ecnbit pos passed =>
    exact (counted seqno acked ecnbit).update passed

variable {σ : Type}

/-- The estimate is updated at most once per window of data: all that had been sent by an update is
below the number of the ACK of the next one, unless a timeout has taken the barrier back. -/
theorem alphaUpdate_oncePerWindow (S : Setup σ) (start : Agent σ) (inputs : Nat → Input) (k : Nat)
    (a : Agent σ) (dctcp : S.dctcp = true) (new : start.entries = [])
    (reached : agentAt S start inputs k = .ok a) (earlier between later : List Entry)
    (first m t second n u : Int) (alpha beta : ℚ)
    (history : a.entries = earlier ++ .alphaUpdate first m t alpha ::
      (between ++ .alphaUpdate second n u beta :: later))
    (next : ∀ e ∈ between, ¬ e.IsUpdate)
    (timeouts : ∀ tSeqno maxseq, .rto tSeqno maxseq ∈ earlier ++ between → maxseq ≤ tSeqno) :
    ∀ p, .sent p ∈ earlier → p.seqno < second := by
  have initial : BarrierHeld start.toLedger := {
    sent := by simp [SentUpTo, new]
    covered := by simp [SentUpTo, new]
    standing := new ▸ standing_nil
    spaced := new ▸ spaced_nil }
  have held : BarrierHeld a.toLedger :=
    agentAt_invariant initial (fun _ _ before act => (dctcp ▸ act).barrierHeld before) reached
  exact held.spaced earlier _ between _ later history next second n u beta trivial rfl timeouts

/-! ### Two timeouts in a row -/

/-- No retransmission timeout that found `t_seqno_` below what had been sent. -/
def Entry.atTop : Entry → Bool
  | .rto tSeqno maxseq => decide (maxseq ≤ tSeqno)
  | _ => true

def Entry.sends (seqno : Int) : Entry → Bool
  | .sent p => decide (p.seqno = seqno)
  | _ => false

/-- Packets 0 to 8 are sent, and ACK 3 has moved the estimate after packet 6. -/
def windowOfEight : List Stimulus := [.advanceby 100, ackFor 0, ackFor 1, ackFor 2, ackFor 3]

/-- One timeout is harmless: it finds `t_seqno_` past everything sent. -/
theorem alphaUpdate_oncePerWindow_oneTimeout : ∃ a earlier between later alpha beta,
    afterScript (windowOfEight ++ [.rtxExpires, ackFor 8, ackFor 9, ackFor 10]) = .ok a ∧
      a.entries = earlier ++ .alphaUpdate 3 0 2 alpha ::
        (between ++ .alphaUpdate 10 0 7 beta :: later) ∧
      .rto 9 8 ∈ between ∧ ∀ p, .sent p ∈ earlier → p.seqno < 10 := by
  obtain ⟨a, reached, found⟩ := DrivenRun.exists_of_any
    (x := afterScript (windowOfEight ++ [.rtxExpires, ackFor 8, ackFor 9, ackFor 10]))
    (p := fun a => decide (a.entries = a.entries.take 12 ++ .alphaUpdate 3 0 2 0 ::
        (entriesBetween a 13 24 ++ .alphaUpdate 10 0 7 0 :: a.entries.drop 25)) &&
      (entriesBetween a 13 24).all (fun e => decide (¬ e.IsUpdate)) &&
      (a.entries.take 12 ++ entriesBetween a 13 24).all Entry.atTop &&
      decide (.rto 9 8 ∈ entriesBetween a 13 24))
    (by decide +kernel)
  simp only [Bool.and_eq_true, decide_eq_true_eq, List.all_eq_true] at found
  obtain ⟨⟨⟨split, next⟩, atTop⟩, expired⟩ := found
  refine ⟨a, _, _, _, 0, 0, reached, split, expired, ?_⟩
  refine alphaUpdate_oncePerWindow dctcpSetup (fresh dctcpSetup) _ _ a rfl rfl reached _ _ _
    3 0 2 10 0 7 0 0 split next ?_
  intro tSeqno maxseq member
  simpa [Entry.atTop] using atTop _ member

/-- The second timeout finds `t_seqno_` at 5, and ACK 6 moves the estimate again
although packet 6 was sent before the update on ACK 3. -/
theorem secondTimeout_lowersBarrier : ∃ a earlier between later alpha beta p,
    afterScript (windowOfEight ++ [.rtxExpires, .rtxExpires, ackFor 6]) = .ok a ∧
      a.entries = earlier ++ .alphaUpdate 3 0 2 alpha ::
        (between ++ .alphaUpdate 6 0 3 beta :: later) ∧
      (∀ e ∈ between, ¬ e.IsUpdate) ∧ .sent p ∈ earlier ∧ ¬ p.seqno < 6 := by
  obtain ⟨a, reached, found⟩ := DrivenRun.exists_of_any
    (x := afterScript (windowOfEight ++ [.rtxExpires, .rtxExpires, ackFor 6]))
    (p := fun a => decide (a.entries = a.entries.take 12 ++ .alphaUpdate 3 0 2 0 ::
        (entriesBetween a 13 22 ++ .alphaUpdate 6 0 3 0 :: a.entries.drop 23)) &&
      (entriesBetween a 13 22).all (fun e => decide (¬ e.IsUpdate)) &&
      (a.entries.take 12).any (Entry.sends 6))
    (by decide +kernel)
  simp only [Bool.and_eq_true, decide_eq_true_eq, List.all_eq_true, List.any_eq_true] at found
  obtain ⟨⟨split, next⟩, e, member, late⟩ := found
  cases e with
  | sent p =>
    have six : p.seqno = 6 := by simpa [Entry.sends] using late
    exact ⟨a, _, _, _, 0, 0, p, reached, split, next, member, by omega⟩
  | _ => cases late

end Saps.Tcp
