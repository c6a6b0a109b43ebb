import Saps.Tcp.Sack1

/-!
# The sender refines the feedback machine

Every stimulus that the sender handles changes its ledger by acts of the abstract
machine, and so does a whole run.
-/
namespace Saps.Tcp

variable {σ : Type} {S : Setup σ} {a b : Agent σ}

/-- Agent `b` comes from agent `a` by acts on the ledger. -/
abbrev Follows (S : Setup σ) (a b : Agent σ) : Prop :=
  Acts S.dctcp S.dctcpG a.toLedger b.toLedger

theorem ackedBytes_pos (ack : Ack) : 1 ≤ ackedBytes ack a := by
  simp only [ackedBytes]
  split <;> omega

/-- Every ACK is counted, and one that passes the barrier moves the estimate too. -/
theorem updateDctcpAlpha_act (ack : Ack) :
    Act S.dctcp S.dctcpG a.toLedger (updateDctcpAlpha S ack a).toLedger := by
  simp only [updateDctcpAlpha]
  split
  next passed => exact .alphaUpdate ack.seqno _ ack.ecnecho (ackedBytes_pos ack) passed
  next => exact .counted ack.seqno _ ack.ecnecho (ackedBytes_pos ack)

@[simp] theorem checkCongestionFB_ledger : (checkCongestionFB S a).toLedger = a.toLedger := by
  simp only [checkCongestionFB]
  split_ifs <;> rfl

/-! ### Sending -/

@[simp] theorem pickSegment_ledger (win : Int) :
    (pickSegment S win a).agent.toLedger = a.toLedger := by
  simp only [pickSegment]
  split_ifs <;> rfl

theorem transmit_quiet (seqno : Int) (reason : Reason) (now : ℚ) :
    Quiet S a (transmit S seqno reason now a) :=
  output_quiet seqno reason now

theorem sendMuch_quiet {turns : Nat} {force : Bool} {reason : Reason} {now : ℚ}
    (sent : sendMuch S turns force reason now a = .ok b) : Quiet S a b := by
  refine sendMuch_invariant (I := fun c => Quiet S a c) (fun c win before => ?_)
    (fun c seqno before => before.trans (transmit_quiet seqno reason now))
    (fun c before => before) .refl sent
  exact before.trans (QuietActs.of_eq (pickSegment_ledger win))

/-! ### Duplicate ACKs -/

@[simp] theorem enterFastRecovery_ledger (pipe : Int) :
    (enterFastRecovery S pipe a).toLedger = a.toLedger :=
  resetRtxTimer_ledger a true false

theorem recoverAfterEcn_quiet (now : ℚ) : Quiet S a (recoverAfterEcn S now a) := by
  simp only [recoverAfterEcn]
  refine .trans (.single .dupack) (.trans ?_ (output_quiet _ .dupack now))
  rw [enterFastRecovery_ledger]
  split
  · exact slowdown_quiet (a := { a with lastCwndAction := .dupack }) .half
  · exact .refl

theorem sackAction_quiet (now : ℚ) : Quiet S a (sackAction S now a) := by
  simp only [sackAction]
  generalize (if S.oldCode then _ else _ : Int) = pipe
  -- `recover_` moves up on entry; what follows depends on whether Quick-Start takes the loss
  have entered : Quiet S a (enterFastRecovery S pipe { a with recover := a.maxseq }) := by
    rw [Quiet, enterFastRecovery_ledger]
    exact .single .enterRecovery
  have lost := entered.trans (lossQuickStart_quiet (S := S) now)
  split
  next left => simpa [left] using lost
  next c left =>
    have continued : Quiet S a c := by simpa [left] using lost
    have cut := slowdown_quiet (S := S) (a := { c with lastCwndAction := .dupack }) .half
    exact continued.trans (.trans (.single .dupack) (cut.trans (output_quiet _ .dupack now)))

theorem dupackAction_quiet (now : ℚ) : Quiet S a (dupackAction S now a) := by
  simp only [dupackAction]
  split_ifs
  · exact sackAction_quiet now
  · exact recoverAfterEcn_quiet now
  · exact .refl
  · exact sackAction_quiet now

theorem resendHole_quiet (now : ℚ) : Quiet S a (resendHole S now a) := by
  simp only [resendHole]
  refine .trans (QuietActs.of_eq ?_) (output_quiet _ .partialAck now)
  rfl

theorem partialAckAction_quiet (now : ℚ) : Quiet S a (partialAckAction S now a) := by
  simp only [partialAckAction]
  refine .trans (.trans (QuietActs.of_eq ?_) (resendHole_quiet now)) (resendHole_quiet now)
  split <;> rfl

/-! ### The ACK handler -/

theorem recvNew_quiet (ack : Ack) (now : ℚ) : Quiet S a (recvNew S ack now a) := by
  have helped := recvNewackHelper_quiet (S := S) (a := { a with firstpartial := false }) ack now
  simp only [recvNew]
  split <;> exact helped

theorem countDupack_quiet (now : ℚ) : Quiet S a (countDupack S now a) := by
  simp only [countDupack]
  split_ifs
  · exact dupackAction_quiet (a := { a with dupacks := a.dupacks + 1 }) now
  · exact sendOne_quiet (a := { a with dupacks := a.dupacks + 1 }) now
  · exact .refl
  · exact .refl

theorem judgeTimeout_quiet (ack : Ack) : Quiet S a (judgeTimeout S ack a) := by
  simp only [judgeTimeout]
  split_ifs
  · exact spuriousTimeout_quiet
  · exact .refl
  · exact .refl

theorem recvNormal_quiet (ack : Ack) (now : ℚ) : Quiet S a (recvNormal S ack now a) := by
  simp only [recvNormal]
  split_ifs
  · exact recvNew_quiet ack now
  · exact .refl
  · exact .refl
  · exact (countDupack_quiet (a := updateBoard S ack a) now).trans (judgeTimeout_quiet ack)

theorem exitRecovery_quiet (ack : Ack) (now : ℚ) (passed : a.recover ≤ ack.seqno) :
    Quiet S a (exitRecovery S ack now a) := by
  refine .trans (.single (.recoveryExit ack.seqno passed)) (QuietActs.of_eq ?_)
  simp only [exitRecovery]
  rw [closeIfDone_ledger, newack_ledger]
  rfl

theorem recvPartial_quiet (ack : Ack) (now : ℚ) : Quiet S a (recvPartial S ack now a) := by
  have advanced : (updateBoard S ack { a with highestAck := ack.seqno }).toLedger = a.toLedger :=
    rfl
  simp only [recvPartial]
  split_ifs
  · exact partialAckAction_quiet (a := updateBoard S ack { a with highestAck := ack.seqno }) now
  · rw [Quiet, newtimer_ledger]
    exact partialAckAction_quiet (a := updateBoard S ack { a with highestAck := ack.seqno }) now
  · rw [Quiet, newtimer_ledger]
    exact QuietActs.of_eq advanced

theorem recvRecovering_quiet (ack : Ack) (now : ℚ) :
    Quiet S a (recvRecovering S ack now a) := by
  simp only [recvRecovering]
  -- full ACK, partial ACK, or one that acknowledges nothing new
  split_ifs with passed
  · exact exitRecovery_quiet (a := { a with pipe := a.pipe - 1 }) ack now passed
  · exact recvPartial_quiet (a := { a with pipe := a.pipe - 1 }) ack now
  · exact .refl
  · exact .refl
  · exact .refl

@[simp] theorem beginAck_ledger (ack : Ack) : (beginAck S ack a).toLedger = a.toLedger := by
  simp only [beginAck]
  split_ifs <;> simp

theorem beginAck_sequence (ack : Ack) : (beginAck S ack a).toSequence = a.toSequence := by
  have ended : (endQuickStart S a).toSequence = a.toSequence := by
    simp only [endQuickStart]
    split_ifs <;> rfl
  have processed (c : Agent σ) : (processQuickStart S ack c).toSequence = c.toSequence := by
    simp only [processQuickStart]
    cases ack.qsAppRate with
    | none => rfl
    | some appRate =>
      dsimp only
      split <;> rfl
  simp only [beginAck]
  split_ifs
  · rw [processed, ended]
  · exact ended
  · exact processed a
  · rfl

theorem estimate_follows (ack : Ack) : Follows S a (estimate S ack a) := by
  simp only [estimate]
  split
  · exact .single (updateDctcpAlpha_act (a := { a with nackpack := a.nackpack + 1 }) ack)
  · exact .refl

theorem hearFeedback_quiet (ack : Ack) : Quiet S (estimate S ack a) (hearFeedback S ack a) := by
  simp only [hearFeedback]
  split
  · exact ecn_quiet ack.seqno
  · exact .refl

/-- After the estimator has heard an ACK, the rest of its handling leaves the estimator alone. -/
theorem recv_quiet {turns : Nat} {ack : Ack} {now : ℚ}
    (current : ¬ ack.ts < (beginAck S ack a).lastreset)
    (received : recv S turns ack now a = .ok b) : Quiet S (estimate S ack (beginAck S ack a)) b := by
  have heard : Quiet S (estimate S ack (beginAck S ack a))
      (hearFeedback S ack (beginAck S ack a)) := hearFeedback_quiet ack
  -- both modes send at most once more after the ACK has been taken in
  have normal := heard.trans (recvNormal_quiet ack now)
  have recovering := heard.trans (recvRecovering_quiet ack now)
  simp only [recv] at received
  rw [if_neg current] at received
  split_ifs at received
  · exact recovering.trans (sendMuch_quiet received)
  · cases received
    exact recovering
  · exact normal.trans (sendMuch_quiet received)
  · cases received
    exact normal

theorem recv_follows {turns : Nat} {ack : Ack} {now : ℚ}
    (received : recv S turns ack now a = .ok b) : Follows S a b := by
  have begun : Follows S a (beginAck S ack a) := (QuietActs.of_eq (beginAck_ledger ack)).acts
  -- a stale ACK leaves before the estimator hears it
  by_cases stale : ack.ts < (beginAck S ack a).lastreset
  · simp only [recv] at received
    rw [if_pos stale] at received
    cases received
    exact begun
  · exact (begun.trans (estimate_follows ack)).trans (recv_quiet stale received).acts

/-! ### Timeouts -/

@[simp] theorem rerouteOnTimeout_ledger : (rerouteOnTimeout S a).toLedger = a.toLedger := by
  simp only [rerouteOnTimeout]
  split <;> rfl

@[simp] theorem shrinkInitialWindow_ledger :
    (shrinkInitialWindow S a).toLedger = a.toLedger := by
  simp only [shrinkInitialWindow]
  split
  · split
    · rfl
    · split <;> rfl
  · rfl

@[simp] theorem startFrto_ledger : (startFrto S a).toLedger = a.toLedger := by
  simp only [startFrto]
  split <;> rfl

/-- The ledger once the timeout counts as the last action. -/
private def timedOut (l : Ledger) : Ledger := { l with lastCwndAction := .timeout }

private theorem beginTimeout_timedOut :
    timedOut (beginTimeout S a).toLedger = a.toLedger.rto a.tSeqno := by
  simp only [beginTimeout]
  rw [rerouteOnTimeout_ledger]
  rfl

private theorem slowdown_timedOut (how : Close) (plain : how ≠ .dctcp) :
    QuietActs S.dctcp (timedOut a.toLedger) (timedOut (slowdown S how a).toLedger) := by
  rw [slowdown_ledger]
  exact .single (.slowedDown how _ _ _ (fun isDctcp => absurd isDctcp plain))

private theorem recover_covered {l : Ledger} (covered : l.recover = l.maxseq) :
    { l with recover := l.maxseq } = l := by
  cases l
  cases covered
  rfl

private theorem closeOnTimeout_timedOut (covered : a.recover = a.maxseq) :
    QuietActs S.dctcp (timedOut a.toLedger) (timedOut (closeOnTimeout S a).toLedger) := by
  have shrunk : (shrinkInitialWindow S { a with recover := a.maxseq }).toLedger = a.toLedger := by
    rw [shrinkInitialWindow_ledger]
    exact recover_covered covered
  simp only [closeOnTimeout]
  -- all three cuts are plain ones, and the source stores the timeout as the last action after them
  generalize shrinkInitialWindow S _ = c at shrunk
  rw [← shrunk]
  split_ifs
  · exact slowdown_timedOut { cwndOne := true, noOutstandingData := true } (by decide)
  · rw [startFrto_ledger]
    exact slowdown_timedOut { cwndOne := true } (by decide)
  · rw [startFrto_ledger]
    exact slowdown_timedOut (a := { c with nrexmit := c.nrexmit + 1, lastCwndAction := .timeout })
      { ssthreshHalf := true, cwndRestart := true } (by decide)

private theorem closeWindow_timedOut (covered : a.recover = a.maxseq) :
    QuietActs S.dctcp (timedOut a.toLedger) (closeWindow S a).toLedger := by
  have saved : (saveWindow S a).toLedger = a.toLedger := rfl
  simp only [closeWindow]
  rw [resetRtxTimer_ledger, ← saved]
  split
  · exact .refl
  · exact closeOnTimeout_timedOut (a := saveWindow S a) covered

theorem timeout_quiet : Quiet S a (closeWindow S (beginTimeout S a)) := by
  -- seen after the timeout is stored as the last action, `beginTimeout` is the one act `rto`
  have covered : (beginTimeout S a).recover = (beginTimeout S a).maxseq := by
    unfold beginTimeout
    rfl
  have expired : QuietActs S.dctcp a.toLedger (timedOut (beginTimeout S a).toLedger) := by
    rw [beginTimeout_timedOut]
    exact .single (.rto a.tSeqno)
  exact expired.trans (closeWindow_timedOut covered)

@[simp] theorem overruleFrto_ledger (noFrto : Bool) :
    (overruleFrto noFrto a).toLedger = a.toLedger := by
  simp only [overruleFrto]
  split <;> rfl

/-! ### Steps and runs -/

/-- A stimulus other than an ACK leaves the estimator alone. -/
theorem respond_quiet {i : Input} (noAck : ∀ ack, i.stimulus ≠ .ack ack)
    (answer : respond S i a = .ok b) : Quiet S a b := by
  simp only [respond] at answer
  cases stimulus : i.stimulus with
  | ack ack => exact absurd stimulus (noAck ack)
  | rtxExpires =>
    simp only [stimulus] at answer
    split at answer
    · obtain ⟨c, sent, done⟩ := DrivenRun.bind_eq_ok.mp answer
      cases done
      rw [Quiet, overruleFrto_ledger]
      exact (timeout_quiet (a := { a with rtxPending := false })).trans (sendMuch_quiet sent)
    · cases answer
  | delsndExpires =>
    simp only [stimulus] at answer
    split at answer
    · obtain ⟨c, sent, done⟩ := DrivenRun.bind_eq_ok.mp answer
      cases done
      rw [Quiet, overruleFrto_ledger]
      exact sendMuch_quiet (a := { a with delsndPending := false }) sent
    · cases answer
  | flBndrExpires =>
    simp only [stimulus] at answer
    split at answer
    · cases answer
      apply QuietActs.of_eq
      simp only [timeoutFlowBender]
      rw [overruleFrto_ledger, checkCongestionFB_ledger]
    · cases answer
  | sendmsg nbytes =>
    simp only [stimulus] at answer
    simp only [sendmsg] at answer
    have sent := sendMuch_quiet answer
    exact sent
  | advanceby delta =>
    simp only [stimulus] at answer
    simp only [advanceby] at answer
    split at answer
    all_goals
      have sent := sendMuch_quiet answer
      exact sent

theorem respond_follows {i : Input} (answer : respond S i a = .ok b) : Follows S a b := by
  by_cases acked : ∃ ack, i.stimulus = .ack ack
  · obtain ⟨ack, stimulus⟩ := acked
    simp only [respond] at answer
    simp only [stimulus] at answer
    exact recv_follows answer
  · exact (respond_quiet (fun ack stimulus => acked ⟨ack, stimulus⟩) answer).acts

theorem step_ok {i : Input} {o : Unit} (answer : step S i a = .ok (b, o)) :
    respond S i a = .ok b :=
  DrivenRun.map_unit_eq_ok.mp answer

/-- The invariant rule: what every act keeps holds throughout every run. -/
theorem agentAt_invariant {I : Ledger → Prop} {start : Agent σ} {inputs : Nat → Input}
    {k : Nat} (initial : I start.toLedger)
    (preserved : ∀ l m, I l → Act S.dctcp S.dctcpG l m → I m)
    (reached : agentAt S start inputs k = .ok b) : I b.toLedger :=
  DrivenRun.invariant (I := fun _ a => I a.toLedger) initial
    (fun _ _ _ _ before answer =>
      (respond_follows (step_ok answer)).invariant before preserved)
    reached

end Saps.Tcp
