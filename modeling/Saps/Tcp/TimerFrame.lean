import Saps.Tcp.Refinement

/-!
# What touches the round-trip estimate

The timer's state moves with the segment that is timed, with samples, and where the
sender backs off or stops doing so. Growth, cuts and the bookkeeping leave it alone.
-/
namespace Saps.Tcp

variable {σ : Type} {S : Setup σ} {a b : Agent σ}

/-! ### The window -/

@[simp] theorem newtimer_roundTrip (ack : Ack) :
    (newtimer ack a).toRoundTrip = a.toRoundTrip := by
  simp only [newtimer]
  split <;> rfl

@[simp] theorem opencwnd_roundTrip : (opencwnd S a).toRoundTrip = a.toRoundTrip := by
  obtain ⟨window, same⟩ := @opencwnd_frame σ S a
  rw [same]

@[simp] theorem slowdown_roundTrip (how : Close) :
    (slowdown S how a).toRoundTrip = a.toRoundTrip := rfl

@[simp] theorem leaveQuickStartWindow_roundTrip :
    (leaveQuickStartWindow a).toRoundTrip = a.toRoundTrip := by
  simp only [leaveQuickStartWindow]
  split <;> rfl

@[simp] theorem openOnAck_roundTrip (ack : Ack) :
    (openOnAck S ack a).toRoundTrip = a.toRoundTrip := by
  simp only [openOnAck]
  split <;> simp

@[simp] theorem followEcnBurst_roundTrip (ack : Ack) :
    (followEcnBurst ack a).toRoundTrip = a.toRoundTrip := by
  simp only [followEcnBurst]
  split_ifs <;> rfl

@[simp] theorem closeIfDone_roundTrip : (closeIfDone a).toRoundTrip = a.toRoundTrip := by
  simp only [closeIfDone]
  split <;> rfl

@[simp] theorem followFrto_roundTrip : (followFrto S a).toRoundTrip = a.toRoundTrip := by
  simp only [followFrto]
  split_ifs <;> rfl

@[simp] theorem judgeTimeout_roundTrip (ack : Ack) :
    (judgeTimeout S ack a).toRoundTrip = a.toRoundTrip := by
  simp only [judgeTimeout]
  split_ifs <;> rfl

@[simp] theorem beginAck_roundTrip (ack : Ack) :
    (beginAck S ack a).toRoundTrip = a.toRoundTrip := by
  have ended : (endQuickStart S a).toRoundTrip = a.toRoundTrip := by
    simp only [endQuickStart]
    split_ifs <;> rfl
  have processed (c : Agent σ) : (processQuickStart S ack c).toRoundTrip = c.toRoundTrip := by
    simp only [processQuickStart]
    cases ack.qsAppRate with
    | none => rfl
    | some appRate =>
      dsimp only
      split <;> rfl
  simp only [beginAck]
  split_ifs
  · rw [processed, ended]
  · exact ended
  · exact processed a
  · rfl

@[simp] theorem estimate_roundTrip (ack : Ack) :
    (estimate S ack a).toRoundTrip = a.toRoundTrip := by
  simp only [estimate, updateDctcpAlpha]
  split_ifs <;> rfl

@[simp] theorem updateBoard_roundTrip (ack : Ack) :
    (updateBoard S ack a).toRoundTrip = a.toRoundTrip := rfl

/-! ### Sending -/

@[simp] theorem requestQuickStart_roundTrip :
    (requestQuickStart S a).toRoundTrip = a.toRoundTrip := by
  simp only [requestQuickStart]
  split <;> rfl

@[simp] theorem pickSegment_roundTrip (win : Int) :
    (pickSegment S win a).agent.toRoundTrip = a.toRoundTrip := by
  simp only [pickSegment]
  split_ifs <;> rfl

@[simp] theorem enterFastRecovery_roundTrip (pipe : Int) :
    (enterFastRecovery S pipe a).toRoundTrip =
      { a.toRoundTrip with rttActive := false } := rfl

/-! ### Timeouts -/

@[simp] theorem shrinkInitialWindow_roundTrip :
    (shrinkInitialWindow S a).toRoundTrip = a.toRoundTrip := by
  simp only [shrinkInitialWindow]
  split
  · split
    · rfl
    · split <;> rfl
  · rfl

@[simp] theorem startFrto_roundTrip : (startFrto S a).toRoundTrip = a.toRoundTrip := by
  simp only [startFrto]
  split <;> rfl

@[simp] theorem closeOnTimeout_roundTrip :
    (closeOnTimeout S a).toRoundTrip = a.toRoundTrip := by
  simp only [closeOnTimeout]
  split_ifs <;> simp

@[simp] theorem beginTimeout_roundTrip : (beginTimeout S a).toRoundTrip = a.toRoundTrip := by
  simp only [beginTimeout, rerouteOnTimeout]
  split_ifs <;> rfl

@[simp] theorem checkCongestionFB_roundTrip :
    (checkCongestionFB S a).toRoundTrip = a.toRoundTrip := by
  simp only [checkCongestionFB]
  split_ifs <;> rfl

@[simp] theorem overruleFrto_roundTrip (noFrto : Bool) :
    (overruleFrto noFrto a).toRoundTrip = a.toRoundTrip := by
  simp only [overruleFrto]
  split <;> rfl

end Saps.Tcp
