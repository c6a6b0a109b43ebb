import Saps.Tcp.EstimatorRange
import Saps.Tcp.Transfer

/-!
# What the sender sends

The transfer as the sender's functions see it: most of them leave it alone, and
`output()`, `send_one()` and the loop of `send_much()` go through it act by act.
-/
namespace Saps.Tcp

open Transfer

variable {σ : Type} {S : Setup σ} {a b : Agent σ} {stimulus : Stimulus}

/-- Agent `b` comes from agent `a` by acts of the transfer. -/
abbrev Moves (S : Setup σ) (stimulus : Stimulus) (a b : Agent σ) : Prop :=
  Transfer.Acts S stimulus a.transfer b.transfer

abbrev Sends (S : Setup σ) (a b : Agent σ) : Prop := SendActs S a.transfer b.transfer

theorem Moves.of_eq (same : b.transfer = a.transfer) : Moves S stimulus a b :=
  Transfer.Acts.of_eq same

/-! ### What the transfer does not see -/

@[simp] theorem sentPackets_sent (entries : List Entry) (p : DataPacket) :
    sentPackets (entries ++ [.sent p]) = sentPackets entries ++ [p] := by
  simp [sentPackets]

theorem sentPackets_other (entries : List Entry) {e : Entry} (other : ∀ p, e ≠ .sent p) :
    sentPackets (entries ++ [e]) = sentPackets entries := by
  cases e with
  | sent p => exact absurd rfl (other p)
  | counted | alphaUpdate | slowedDown | ecnReaction | recoveryExit | spuriousTimeout | rto =>
    simp [sentPackets]

theorem record_transfer {e : Entry} (other : ∀ p, e ≠ .sent p) :
    (a.record e).transfer = a.transfer := by
  simp only [Agent.transfer, Agent.record, Ledger.record, sentPackets_other a.entries other]

@[simp] theorem slowdown_transfer (how : Close) : (slowdown S how a).transfer = a.transfer := by
  simp only [Agent.transfer, slowdown, Ledger.record]
  rw [sentPackets_other a.entries (by simp)]

@[simp] theorem opencwnd_transfer : (opencwnd S a).transfer = a.transfer := by
  obtain ⟨window, same⟩ := @opencwnd_frame σ S a
  rw [same]
  rfl

@[simp] theorem endBackoff_transfer (ack : Ack) : (endBackoff ack a).transfer = a.transfer := by
  simp only [endBackoff]
  split <;> rfl

@[simp] theorem sampleTimestamp_transfer (ack : Ack) (now : ℚ) :
    (sampleTimestamp S ack now a).transfer = a.transfer := by
  simp only [sampleTimestamp]
  split_ifs
  · rw [endBackoff_transfer]
    rfl
  · rfl
  · rfl

@[simp] theorem sampleSegment_transfer (ack : Ack) (now : ℚ) :
    (sampleSegment S ack now a).transfer = a.transfer := by
  have ended : ({ endBackoff ack a with rttActive := false } : Agent σ).transfer = a.transfer :=
    endBackoff_transfer ack
  simp only [sampleSegment]
  split_ifs
  · exact ended
  · exact ended
  · rfl

@[simp] theorem leaveQuickStartWindow_transfer :
    (leaveQuickStartWindow a).transfer = a.transfer := by
  simp only [leaveQuickStartWindow]
  split <;> rfl

@[simp] theorem openOnAck_transfer (ack : Ack) : (openOnAck S ack a).transfer = a.transfer := by
  simp only [openOnAck]
  split
  · exact opencwnd_transfer
  · rfl

@[simp] theorem followEcnBurst_transfer (ack : Ack) :
    (followEcnBurst ack a).transfer = a.transfer := by
  simp only [followEcnBurst]
  split_ifs <;> rfl

@[simp] theorem estimate_transfer (ack : Ack) : (estimate S ack a).transfer = a.transfer := by
  have counted (b : Agent σ) : (countAck ack b).transfer = b.transfer :=
    record_transfer (a := b) (e := .counted ack.seqno (ackedBytes ack b) ack.ecnecho) (by simp)
  have moved (b : Agent σ) : (moveAlpha S ack.seqno b).transfer = b.transfer :=
    record_transfer (a := b) (e := .alphaUpdate ack.seqno b.dctcpMarked b.dctcpTotal
      (moveAlpha S ack.seqno b).dctcpAlpha) (by simp)
  simp only [estimate, updateDctcpAlpha]
  split_ifs
  · rw [moved, counted]
    rfl
  · rw [counted]
    rfl
  · rfl

@[simp] theorem checkCongestionFB_transfer : (checkCongestionFB S a).transfer = a.transfer := by
  simp only [checkCongestionFB]
  split_ifs <;> rfl

@[simp] theorem overruleFrto_transfer (noFrto : Bool) :
    (overruleFrto noFrto a).transfer = a.transfer := by
  simp only [overruleFrto]
  split <;> rfl

/-! ### Sending one packet -/

theorem countSent_outputs {p : DataPacket} (c : Transfer σ) (databytes : Int) (now : ℚ)
    {seqno curseq : Int} (asked : Bool) (number : p.seqno = seqno)
    (size : p.size = S.size ∨ p.size = S.size + headersize S ∨ p.size = S.tcpipBaseHdrSize)
    (data : curseq = c.curseq ∨ seqno = 0 ∧ c.maxseq = -1 ∧ curseq = c.curseq + 1)
    (may : asked = true → S.qsEnabled = true)
    (same : a.transfer = { c with curseq, qsRequested := c.qsRequested || asked }) :
    Outputs S seqno c (countSent S p databytes now a).transfer := by
  have counted : (countSent S p databytes now a).transfer = { a.transfer with
      rtxPending := true
      maxseq := if p.seqno > a.transfer.maxseq then p.seqno else a.transfer.maxseq
      sent := a.transfer.sent ++ [p] } := by
    simp only [Agent.transfer, countSent, Agent.record, Ledger.record, sentPackets_sent]
    rfl
  rw [counted, same, number]
  exact .handed p number size curseq data asked may

theorem requestQuickStart_transfer : ∃ asked : Bool, (asked = true → S.qsEnabled = true) ∧
    (requestQuickStart S a).transfer =
      { a.transfer with qsRequested := a.transfer.qsRequested || asked } := by
  simp only [requestQuickStart]
  split
  next request => exact ⟨true, fun _ => request.1, by simp [Agent.transfer]⟩
  next => exact ⟨false, fun asked => absurd asked Bool.false_ne_true, by simp⟩

theorem output_outputs (seqno : Int) (reason : Reason) (now : ℚ) :
    Outputs S seqno a.transfer (output S seqno reason now a).transfer := by
  simp only [output]
  generalize cleared : (if carriesCwr S seqno a then { a with congAction := false } else a) = e
  have same : e.transfer = a.transfer := by
    rw [← cleared]
    split <;> rfl
  rw [← same]
  by_cases first : seqno = 0
  · simp only [if_pos first]
    split_ifs with syn aborted aborted
    -- the SYN takes the first number, and too many SYNs give the connection up
    · exact .aborted aborted.2.1
    · obtain ⟨asked, may, requested⟩ := @requestQuickStart_transfer σ S (startSyn S e)
      refine countSent_outputs e.transfer 0 now asked rfl ?_ ?_ may requested
      · exact .inr (.inr rfl)
      · simp only [Agent.transfer, startSyn]
        split_ifs with fresh
        · exact .inr ⟨first, fresh, rfl⟩
        · exact .inl rfl
    · exact absurd aborted.1 syn
    · obtain ⟨asked, may, requested⟩ := @requestQuickStart_transfer σ S e
      exact countSent_outputs e.transfer S.size now asked rfl (.inl rfl) (.inl rfl) may requested
  · simp only [if_neg first]
    refine countSent_outputs e.transfer S.size now false rfl ?_ (.inl rfl)
      (fun asked => absurd asked Bool.false_ne_true) ?_
    · split
      · exact .inr (.inl rfl)
      · exact .inl rfl
    · rw [Bool.or_false]

theorem sendOne_sends (now : ℚ) : Sends S a (sendOne S now a) := by
  simp only [sendOne]
  split
  next due =>
    have out := output_outputs (S := S) (a := a) a.tSeqno .normal now
    have same : (output S a.tSeqno .normal now a).tSeqno = a.tSeqno := out.tSeqno
    rw [same]
    exact .single (.new due.2.1 (fun _ => due.1) (out.withSeq (a.tSeqno + 1)))
  next => exact .refl

/-! ### The sending loop -/

theorem transmit_outputs (seqno : Int) (reason : Reason) (now : ℚ) :
    Outputs S seqno { a.transfer with tSeqno := if a.tSeqno ≤ seqno then seqno + 1 else a.tSeqno }
      (transmit S seqno reason now a).transfer := by
  have out := output_outputs (S := S) (a := a) seqno reason now
  have same : (output S seqno reason now a).tSeqno = a.tSeqno := out.tSeqno
  simp only [transmit, same]
  exact out.withSeq (if a.tSeqno ≤ seqno then seqno + 1 else a.tSeqno)

/-- A window that no advertised window from 0 on is below. -/
def Bounded (S : Setup σ) (win : Int) : Prop := 0 ≤ S.wnd → (win : ℚ) ≤ S.wnd

theorem toInt_nonpos {q : ℚ} (negative : q < 0) : toInt q ≤ 0 := by
  have num : q.num < 0 := Rat.num_neg.mpr negative
  rw [toInt, ← Int.neg_nonneg, ← Int.neg_tdiv]
  exact Int.tdiv_nonneg (by omega) (Int.natCast_nonneg _)

theorem window_bounded : Bounded S (window S a) := by
  intro nonneg
  simp only [window]
  split_ifs with frto forced below
  · exact forced.le
  · exact toInt_le nonneg
  · rcases lt_or_ge a.cwnd 0 with negative | positive
    · have cut : (toInt a.cwnd : ℚ) ≤ 0 := by exact_mod_cast toInt_nonpos negative
      exact cut.trans nonneg
    · exact (toInt_le positive).trans below.le
  · exact toInt_le nonneg

theorem Bounded.allowed {win seqno highestAck : Int} (bounded : Bounded S win)
    (within : seqno ≤ highestAck + win) : Allowed S seqno highestAck := by
  intro nonneg
  have cast : (seqno : ℚ) ≤ highestAck + win := by exact_mod_cast within
  have := bounded nonneg
  linarith

theorem wnd_bounded : Bounded S (toInt S.wnd) := toInt_le

/-- A turn of the loop picks the next number, or a hole of the scoreboard. -/
theorem pickSegment_some {win seqno : Int} (picked : (pickSegment S win a).segment = some seqno) :
    (seqno = a.tSeqno ∧ a.tSeqno < a.curseq ∧
        a.tSeqno ≤ a.highestAck + (if a.fastrecov then toInt S.wnd else win) ∧
        pickSegment S win a = ⟨{ a with
          scb := (S.board.getNextRetran a.scb).2
          tSeqno := a.tSeqno + 1 }, some a.tSeqno, win⟩) ∨
      ∃ c : Agent σ, seqno = hole S a.transfer ∧ hole S a.transfer ≠ -1 ∧
        hole S a.transfer ≤ a.highestAck + toInt S.wnd ∧
        c = { a with
          scb := S.board.markRetran (hole S a.transfer) (S.board.getNextRetran a.scb).2 } ∧
        pickSegment S win a = ⟨c, some (hole S a.transfer), window S c⟩ := by
  rw [pickSegment] at picked ⊢
  dsimp only at picked ⊢
  generalize (if a.fastrecov = true then toInt S.wnd else win) = room at picked ⊢
  split_ifs at picked with none due due
  · cases picked
    rw [if_pos none, if_pos due]
    exact .inl ⟨rfl, due.2, due.1, rfl⟩
  · cases picked
    rw [if_neg none, if_pos due]
    exact .inr ⟨_, rfl, none, due.2, rfl, rfl⟩

theorem pickSegment_none {win : Int} (picked : (pickSegment S win a).segment = none) :
    (pickSegment S win a).agent = { a with scb := (S.board.getNextRetran a.scb).2 } := by
  rw [pickSegment] at picked ⊢
  dsimp only at picked ⊢
  generalize (if a.fastrecov = true then toInt S.wnd else win) = room at picked ⊢
  split_ifs at picked with none due due
  · rw [if_pos none, if_neg due]
  · rw [if_neg none, if_neg due]

theorem pickSegment_sends {win seqno : Int} (reason : Reason) (now : ℚ) (bounded : Bounded S win)
    (picked : (pickSegment S win a).segment = some seqno) :
    Sends S a (transmit S seqno reason now (pickSegment S win a).agent) ∧
      Bounded S (pickSegment S win a).win := by
  rcases pickSegment_some picked with ⟨rfl, data, room, same⟩ | ⟨c, rfl, found, room, marked, same⟩
  · rw [same]
    have out := @transmit_outputs σ S { a with
      scb := (S.board.getNextRetran a.scb).2, tSeqno := a.tSeqno + 1 } a.tSeqno reason now
    rw [if_neg (by simp)] at out
    refine ⟨.tail (.single .look) (.new data ?_ out), bounded⟩
    split at room
    · exact wnd_bounded.allowed room
    · exact bounded.allowed room
  · rw [same]
    have out := @transmit_outputs σ S c (hole S a.transfer) reason now
    rw [marked] at out ⊢
    exact ⟨.single (.hole found (wnd_bounded.allowed room) out), window_bounded⟩

theorem sendLoop_sends {force : Bool} {reason : Reason} {now : ℚ} {turns : Nat}
    {npacket win : Int} (bounded : Bounded S win)
    (sent : sendLoop S force reason now turns npacket win a = .ok b) : Sends S a b := by
  -- one packet a turn, then the rest of the turns
  induction turns generalizing npacket win a with
  | zero => cases sent
  | succ turns ih =>
    simp only [sendLoop] at sent
    split at sent
    next =>
      split at sent
      next =>
        cases segment : (pickSegment S win a).segment with
        | none =>
          simp only [segment] at sent
          cases sent
          rw [pickSegment_none segment]
          exact .single .look
        | some seqno =>
          obtain ⟨transmitted, bounded⟩ := pickSegment_sends reason now bounded segment
          simp only [segment] at sent
          split_ifs at sent with paced
          · cases sent
            exact transmitted.tail (.pace (.inr paced))
          · cases sent
            exact transmitted
          · exact transmitted.trans (ih bounded sent)
      next paced =>
        -- with an overhead the packet waits for the delayed-send timer
        split_ifs at sent
        · cases sent
          exact .refl
        · exact ih bounded sent
        · cases sent
          exact .single (.pace (.inl fun none => paced (.inl none)))
    next =>
      cases sent
      exact .refl

theorem sendMuch_sends {turns : Nat} {force : Bool} {reason : Reason} {now : ℚ}
    (sent : sendMuch S turns force reason now a = .ok b) : Sends S a b := by
  simp only [sendMuch] at sent
  split_ifs at sent
  · cases sent
    exact .refl
  · exact sendLoop_sends window_bounded sent

end Saps.Tcp
