import Saps.Tcp.Refinement

/-!
# What leaves FlowBender alone

Only a counted ACK, FlowBender's own epoch and a retransmission timeout touch the TTL
and the counters it turns on. Everything else that the handlers do leaves them alone.
-/
namespace Saps.Tcp

variable {σ : Type} {S : Setup σ} {a b : Agent σ}

/-! ### The timer and the window -/

@[simp] theorem setRtxTimer_flowBender : (setRtxTimer a).toFlowBender = a.toFlowBender := rfl

@[simp] theorem resetRtxTimer_flowBender (mild backoff : Bool) :
    (resetRtxTimer S mild backoff a).toFlowBender = a.toFlowBender := by
  cases mild <;> cases backoff <;> rfl

@[simp] theorem newtimer_flowBender (ack : Ack) :
    (newtimer ack a).toFlowBender = a.toFlowBender := by
  simp only [newtimer]
  split <;> rfl

@[simp] theorem opencwnd_flowBender : (opencwnd S a).toFlowBender = a.toFlowBender := by
  obtain ⟨window, same⟩ := @opencwnd_frame σ S a
  rw [same]

@[simp] theorem slowdown_flowBender (how : Close) :
    (slowdown S how a).toFlowBender = a.toFlowBender := rfl

/-! ### New ACKs -/

@[simp] theorem backOffEcn_flowBender : (backOffEcn S a).toFlowBender = a.toFlowBender := by
  simp only [backOffEcn]
  split_ifs <;> rfl

@[simp] theorem ecn_flowBender (seqno : Int) : (ecn S seqno a).toFlowBender = a.toFlowBender := by
  simp only [ecn]
  split
  · simp [Agent.record]
  · rfl

@[simp] theorem endBackoff_flowBender (ack : Ack) :
    (endBackoff ack a).toFlowBender = a.toFlowBender := by
  simp only [endBackoff]
  split <;> rfl

@[simp] theorem sampleTimestamp_flowBender (ack : Ack) (now : ℚ) :
    (sampleTimestamp S ack now a).toFlowBender = a.toFlowBender := by
  simp only [sampleTimestamp]
  split_ifs <;> simp

@[simp] theorem sampleSegment_flowBender (ack : Ack) (now : ℚ) :
    (sampleSegment S ack now a).toFlowBender = a.toFlowBender := by
  simp only [sampleSegment]
  split_ifs <;> simp

@[simp] theorem newack_flowBender (ack : Ack) (now : ℚ) :
    (newack S ack now a).toFlowBender = a.toFlowBender := by
  simp only [newack]
  split_ifs <;> simp

@[simp] theorem leaveQuickStartWindow_flowBender :
    (leaveQuickStartWindow a).toFlowBender = a.toFlowBender := by
  simp only [leaveQuickStartWindow]
  split <;> rfl

@[simp] theorem openOnAck_flowBender (ack : Ack) :
    (openOnAck S ack a).toFlowBender = a.toFlowBender := by
  simp only [openOnAck]
  split <;> simp

@[simp] theorem followEcnBurst_flowBender (ack : Ack) :
    (followEcnBurst ack a).toFlowBender = a.toFlowBender := by
  simp only [followEcnBurst]
  split_ifs <;> rfl

@[simp] theorem closeIfDone_flowBender : (closeIfDone a).toFlowBender = a.toFlowBender := by
  simp only [closeIfDone]
  split <;> rfl

@[simp] theorem followFrto_flowBender : (followFrto S a).toFlowBender = a.toFlowBender := by
  simp only [followFrto]
  split_ifs <;> rfl

@[simp] theorem recvNewackHelper_flowBender (ack : Ack) (now : ℚ) :
    (recvNewackHelper S ack now a).toFlowBender = a.toFlowBender := by
  simp [recvNewackHelper]

@[simp] theorem beginAck_flowBender (ack : Ack) :
    (beginAck S ack a).toFlowBender = a.toFlowBender := by
  have ended : (endQuickStart S a).toFlowBender = a.toFlowBender := by
    simp only [endQuickStart]
    split_ifs <;> rfl
  have processed (c : Agent σ) : (processQuickStart S ack c).toFlowBender = c.toFlowBender := by
    simp only [processQuickStart]
    cases ack.qsAppRate with
    | none => rfl
    | some appRate =>
      dsimp only
      split <;> rfl
  simp only [beginAck]
  split_ifs
  · rw [processed, ended]
  · exact ended
  · exact processed a
  · rfl

/-! ### Sending -/

@[simp] theorem requestQuickStart_flowBender :
    (requestQuickStart S a).toFlowBender = a.toFlowBender := by
  simp only [requestQuickStart]
  split <;> rfl

@[simp] theorem countSent_flowBender (p : DataPacket) (databytes : Int) (now : ℚ) :
    (countSent S p databytes now a).toFlowBender = a.toFlowBender := rfl

@[simp] theorem output_flowBender (seqno : Int) (reason : Reason) (now : ℚ) :
    (output S seqno reason now a).toFlowBender = a.toFlowBender := by
  simp only [output]
  split_ifs <;> simp [startSyn]

@[simp] theorem sendOne_flowBender (now : ℚ) :
    (sendOne S now a).toFlowBender = a.toFlowBender := by
  simp only [sendOne]
  split_ifs <;> simp

@[simp] theorem lossQuickStart_flowBender (now : ℚ) :
    (lossQuickStart S now a).1.toFlowBender = a.toFlowBender := by
  simp only [lossQuickStart]
  split_ifs <;> simp

@[simp] theorem pickSegment_flowBender (win : Int) :
    (pickSegment S win a).agent.toFlowBender = a.toFlowBender := by
  simp only [pickSegment]
  split_ifs <;> rfl

@[simp] theorem transmit_flowBender (seqno : Int) (reason : Reason) (now : ℚ) :
    (transmit S seqno reason now a).toFlowBender = a.toFlowBender := by
  simp [transmit]

theorem sendMuch_flowBender {turns : Nat} {force : Bool} {reason : Reason} {now : ℚ}
    (sent : sendMuch S turns force reason now a = .ok b) : b.toFlowBender = a.toFlowBender :=
  sendMuch_invariant (I := fun c => c.toFlowBender = a.toFlowBender)
    (fun _ win same => (pickSegment_flowBender win).trans same)
    (fun _ seqno same => (transmit_flowBender seqno reason now).trans same)
    (fun _ same => same) rfl sent

/-! ### Duplicate and partial ACKs -/

@[simp] theorem enterFastRecovery_flowBender (pipe : Int) :
    (enterFastRecovery S pipe a).toFlowBender = a.toFlowBender := by
  simp [enterFastRecovery]

@[simp] theorem recoverAfterEcn_flowBender (now : ℚ) :
    (recoverAfterEcn S now a).toFlowBender = a.toFlowBender := by
  simp only [recoverAfterEcn]
  split <;> simp

@[simp] theorem sackAction_flowBender (now : ℚ) :
    (sackAction S now a).toFlowBender = a.toFlowBender := by
  simp only [sackAction]
  generalize (if S.oldCode then _ else _ : Int) = pipe
  have lost := @lossQuickStart_flowBender σ S
    (enterFastRecovery S pipe { a with recover := a.maxseq }) now
  rw [enterFastRecovery_flowBender] at lost
  split
  next left => simpa [left] using lost
  next left => simpa [left] using lost

@[simp] theorem dupackAction_flowBender (now : ℚ) :
    (dupackAction S now a).toFlowBender = a.toFlowBender := by
  simp only [dupackAction]
  split_ifs <;> simp

@[simp] theorem resendHole_flowBender (now : ℚ) :
    (resendHole S now a).toFlowBender = a.toFlowBender := by
  simp [resendHole]

@[simp] theorem partialAckAction_flowBender (now : ℚ) :
    (partialAckAction S now a).toFlowBender = a.toFlowBender := by
  simp only [partialAckAction]
  split <;> simp

@[simp] theorem countDupack_flowBender (now : ℚ) :
    (countDupack S now a).toFlowBender = a.toFlowBender := by
  simp only [countDupack]
  split_ifs <;> simp

@[simp] theorem judgeTimeout_flowBender (ack : Ack) :
    (judgeTimeout S ack a).toFlowBender = a.toFlowBender := by
  simp only [judgeTimeout]
  split_ifs <;> rfl

@[simp] theorem updateBoard_flowBender (ack : Ack) :
    (updateBoard S ack a).toFlowBender = a.toFlowBender := rfl

@[simp] theorem recvNormal_flowBender (ack : Ack) (now : ℚ) :
    (recvNormal S ack now a).toFlowBender = a.toFlowBender := by
  simp only [recvNormal, recvNew]
  split_ifs <;> simp

@[simp] theorem exitRecovery_flowBender (ack : Ack) (now : ℚ) :
    (exitRecovery S ack now a).toFlowBender = a.toFlowBender := by
  simp [exitRecovery, Agent.record]

@[simp] theorem recvPartial_flowBender (ack : Ack) (now : ℚ) :
    (recvPartial S ack now a).toFlowBender = a.toFlowBender := by
  simp only [recvPartial]
  split_ifs <;> simp

@[simp] theorem recvRecovering_flowBender (ack : Ack) (now : ℚ) :
    (recvRecovering S ack now a).toFlowBender = a.toFlowBender := by
  simp only [recvRecovering]
  split_ifs <;> simp

/-! ### After a timeout -/

@[simp] theorem shrinkInitialWindow_flowBender :
    (shrinkInitialWindow S a).toFlowBender = a.toFlowBender := by
  simp only [shrinkInitialWindow]
  split
  · split
    · rfl
    · split <;> rfl
  · rfl

@[simp] theorem startFrto_flowBender : (startFrto S a).toFlowBender = a.toFlowBender := by
  simp only [startFrto]
  split <;> rfl

@[simp] theorem closeOnTimeout_flowBender :
    (closeOnTimeout S a).toFlowBender = a.toFlowBender := by
  simp only [closeOnTimeout]
  split_ifs <;> simp

@[simp] theorem closeWindow_flowBender : (closeWindow S a).toFlowBender = a.toFlowBender := by
  simp only [closeWindow, resetRtxTimer_flowBender]
  split <;> simp [saveWindow]

@[simp] theorem overruleFrto_flowBender (noFrto : Bool) :
    (overruleFrto noFrto a).toFlowBender = a.toFlowBender := by
  simp only [overruleFrto]
  split <;> rfl

end Saps.Tcp
