import Saps.Tcp.TransferRefinement

/-!
# What leaves the windows alone

Sending, timing and bookkeeping do not move the congestion window. What does is
growth on a new ACK, `slowdown()`, and the options that stay off here.
-/
namespace Saps.Tcp

variable {σ : Type} {S : Setup σ} {a b : Agent σ}

/-- The windows, and what decides how they move. -/
structure Windows where
  cwnd : ℚ
  ssthresh : Int
  decreaseNum : ℚ
  wndInit : ℚ
  wndInitOption : WndInitOption
  frto : Int
  qsWindow : Int
  qsCwnd : Int

def Agent.windows (a : Agent σ) : Windows where
  cwnd := a.cwnd
  ssthresh := a.ssthresh
  decreaseNum := a.decreaseNum
  wndInit := a.wndInit
  wndInitOption := a.wndInitOption
  frto := a.frto
  qsWindow := a.qsWindow
  qsCwnd := a.qsCwnd

/-! ### ACKs -/

@[simp] theorem resetRtxTimer_windows (mild backoff : Bool) :
    (resetRtxTimer S mild backoff a).windows = a.windows := by
  cases mild <;> cases backoff <;> rfl

@[simp] theorem newtimer_windows (ack : Ack) : (newtimer ack a).windows = a.windows := by
  simp only [newtimer]
  split <;> rfl

@[simp] theorem backOffEcn_windows : (backOffEcn S a).windows = a.windows := by
  simp only [backOffEcn]
  split_ifs <;> rfl

@[simp] theorem endBackoff_windows (ack : Ack) : (endBackoff ack a).windows = a.windows := by
  simp only [endBackoff]
  split <;> rfl

@[simp] theorem sampleTimestamp_windows (ack : Ack) (now : ℚ) :
    (sampleTimestamp S ack now a).windows = a.windows := by
  simp only [sampleTimestamp]
  split_ifs
  · rw [endBackoff_windows]
    rfl
  · rfl
  · rfl

@[simp] theorem sampleSegment_windows (ack : Ack) (now : ℚ) :
    (sampleSegment S ack now a).windows = a.windows := by
  have ended : ({ endBackoff ack a with rttActive := false } : Agent σ).windows = a.windows :=
    endBackoff_windows ack
  simp only [sampleSegment]
  split_ifs
  · exact ended
  · exact ended
  · rfl

private theorem reflect_windows (ack : Ack) (now : ℚ) (b : Agent σ) :
    (let b := { b with
      dupacks := 0, lastAck := ack.seqno, prevHighestAck := b.highestAck, highestAck := ack.seqno }
    let b := if b.tSeqno < b.lastAck + 1 then { b with tSeqno := b.lastAck + 1 } else b
    if ack.noTs then b else sampleSegment S ack now (sampleTimestamp S ack now b)).windows =
      b.windows := by
  dsimp only
  generalize reflected : (if b.tSeqno < ack.seqno + 1 then _ else _ : Agent σ) = e
  have same : e.windows = b.windows := by
    rw [← reflected]
    split <;> rfl
  split
  · exact same
  · rw [sampleSegment_windows, sampleTimestamp_windows, same]

@[simp] theorem newack_windows (ack : Ack) (now : ℚ) :
    (newack S ack now a).windows = a.windows := by
  by_cases fix : S.timerfix = true
  · have same := reflect_windows (S := S) ack now a
    simp only [newack, if_pos fix]
    generalize (if ack.noTs = true then _ else _ : Agent σ) = e at same ⊢
    exact (newtimer_windows (a := e) ack).trans same
  · have same := reflect_windows (S := S) ack now (newtimer ack a)
    simp only [newack, if_neg fix]
    generalize (if ack.noTs = true then _ else _ : Agent σ) = e at same ⊢
    exact same.trans (newtimer_windows ack)

@[simp] theorem followEcnBurst_windows (ack : Ack) :
    (followEcnBurst ack a).windows = a.windows := by
  simp only [followEcnBurst]
  split_ifs <;> rfl

@[simp] theorem closeIfDone_windows : (closeIfDone a).windows = a.windows := by
  simp only [closeIfDone]
  split <;> rfl

@[simp] theorem estimate_windows (ack : Ack) : (estimate S ack a).windows = a.windows := by
  simp only [estimate, updateDctcpAlpha]
  split_ifs <;> rfl

@[simp] theorem updateBoard_windows (ack : Ack) : (updateBoard S ack a).windows = a.windows := rfl

/-! ### Sending -/

@[simp] theorem output_windows (seqno : Int) (reason : Reason) (now : ℚ) :
    (output S seqno reason now a).windows = a.windows := by
  have requested (b : Agent σ) : (requestQuickStart S b).windows = b.windows := by
    simp only [requestQuickStart]
    split <;> rfl
  have counted (p : DataPacket) (databytes : Int) (b : Agent σ) :
      (countSent S p databytes now b).windows = b.windows := rfl
  simp only [output]
  generalize cleared : (if carriesCwr S seqno a then { a with congAction := false } else a) = e
  have same : e.windows = a.windows := by
    rw [← cleared]
    split <;> rfl
  by_cases first : seqno = 0
  · simp only [if_pos first]
    split_ifs
    -- too many SYNs send nothing
    · exact same
    · exact (counted _ _ _).trans ((requested _).trans same)
    · exact same
    · exact (counted _ _ _).trans ((requested _).trans same)
  · simp only [if_neg first]
    exact (counted _ _ _).trans same

@[simp] theorem sendOne_windows (now : ℚ) : (sendOne S now a).windows = a.windows := by
  simp only [sendOne]
  split
  · exact output_windows a.tSeqno .normal now
  · rfl

@[simp] theorem pickSegment_windows (win : Int) :
    (pickSegment S win a).agent.windows = a.windows := by
  simp only [pickSegment]
  split_ifs <;> rfl

@[simp] theorem transmit_windows (seqno : Int) (reason : Reason) (now : ℚ) :
    (transmit S seqno reason now a).windows = a.windows :=
  output_windows seqno reason now

theorem sendMuch_windows {turns : Nat} {force : Bool} {reason : Reason} {now : ℚ}
    (sent : sendMuch S turns force reason now a = .ok b) : b.windows = a.windows :=
  sendMuch_invariant (I := fun c => c.windows = a.windows)
    (fun _ win same => (pickSegment_windows win).trans same)
    (fun _ seqno same => (transmit_windows seqno reason now).trans same)
    (fun _ same => same) rfl sent

/-! ### Fast recovery and timeouts -/

@[simp] theorem enterFastRecovery_windows (pipe : Int) :
    (enterFastRecovery S pipe a).windows = a.windows :=
  resetRtxTimer_windows (S := S) (a := a) true false

@[simp] theorem resendHole_windows (now : ℚ) : (resendHole S now a).windows = a.windows :=
  output_windows _ .partialAck now

@[simp] theorem partialAckAction_windows (now : ℚ) :
    (partialAckAction S now a).windows = a.windows := by
  simp only [partialAckAction, resendHole_windows]
  split <;> rfl

theorem recvPartial_windows (ack : Ack) (now : ℚ) :
    (recvPartial S ack now a).windows = a.windows := by
  have advanced : (updateBoard S ack { a with highestAck := ack.seqno }).windows = a.windows := rfl
  simp only [recvPartial]
  split_ifs
  · exact (partialAckAction_windows now).trans advanced
  · exact (newtimer_windows ack).trans ((partialAckAction_windows now).trans advanced)
  · exact newtimer_windows ack

theorem recvRecovering_windows (ack : Ack) (now : ℚ) :
    (recvRecovering S ack now a).windows = a.windows := by
  simp only [recvRecovering]
  split_ifs
  · simp only [exitRecovery]
    exact (closeIfDone_windows).trans (newack_windows ack now)
  · exact recvPartial_windows ack now
  · rfl
  · rfl
  · rfl

@[simp] theorem checkCongestionFB_windows : (checkCongestionFB S a).windows = a.windows := by
  simp only [checkCongestionFB]
  split_ifs <;> rfl

@[simp] theorem beginTimeout_windows : (beginTimeout S a).windows = a.windows := by
  simp only [beginTimeout, rerouteOnTimeout]
  split_ifs <;> rfl

end Saps.Tcp
