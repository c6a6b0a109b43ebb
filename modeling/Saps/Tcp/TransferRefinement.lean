import Saps.Tcp.Transmission

/-!
# The sender refines the transfer

Every stimulus that the sender handles changes what it sends and which timers run
by acts of the abstract transfer, whatever the ACKs say and whatever the
scoreboard holds.
-/
namespace Saps.Tcp

open Transfer

variable {σ : Type} {S : Setup σ} {a b : Agent σ} {stimulus : Stimulus}

/-! ### Duplicate ACKs -/

/-- What stands when the duplicate ACK that enters fast recovery has updated the scoreboard. -/
structure Duplicate (S : Setup σ) (ack : Ack) (a c : Agent σ) : Prop where
  same : c.transfer = a.transfer.updateBoard S ack
  duplicate : ack.seqno = a.lastAck
  normal : a.fastrecov = false
  news : S.board.checkUpdate (a.transfer.updateBoard S ack).scb = true

theorem Duplicate.retransmit {ack : Ack} {c e : Agent σ} {recover : Int} (now : ℚ)
    (dup : Duplicate S ack a c)
    (point : recover = a.maxseq ∨ recover = a.recover ∧ a.highestAck ≤ a.recover)
    (entered : e.transfer = c.transfer.enterFastRecovery S recover) :
    Moves S (.ack ack) a (output S (e.lastAck + 1) .dupack now e) := by
  rw [dup.same] at entered
  have last : e.lastAck = a.lastAck := congrArg Transfer.lastAck entered
  have out := @output_outputs σ S e (e.lastAck + 1) .dupack now
  rw [entered] at out
  rw [last] at out ⊢
  exact .single (.fastRetransmit ack rfl dup.duplicate dup.normal dup.news recover point out)

theorem recoverAfterEcn_moves {ack : Ack} {c : Agent σ} (now : ℚ) (dup : Duplicate S ack a c)
    (inside : c.highestAck ≤ c.recover) : Moves S (.ack ack) a (recoverAfterEcn S now c) := by
  have highest : c.highestAck = a.highestAck := congrArg Transfer.highestAck dup.same
  have recover : c.recover = a.recover := congrArg Transfer.recover dup.same
  simp only [recoverAfterEcn]
  generalize cut : (if S.dctcp = true then slowdown S .half { c with lastCwndAction := .dupack }
    else { c with lastCwndAction := .dupack }) = e
  have same : e.transfer = c.transfer := by
    rw [← cut]
    split
    · exact slowdown_transfer .half
    · rfl
  have entered : (enterFastRecovery S (pipeEstimate S e) e).transfer =
      e.transfer.enterFastRecovery S e.recover := rfl
  rw [same] at entered
  refine dup.retransmit now (.inr ⟨?_, by omega⟩) entered
  exact (congrArg Transfer.recover same).trans recover

theorem sackAction_moves {ack : Ack} {c : Agent σ} (now : ℚ) (dup : Duplicate S ack a c) :
    Moves S (.ack ack) a (sackAction S now c) := by
  have maxseq : c.maxseq = a.maxseq := congrArg Transfer.maxseq dup.same
  simp only [sackAction]
  generalize (if S.oldCode then _ else _ : Int) = pipe
  have entered : (enterFastRecovery S pipe { c with recover := c.maxseq }).transfer =
      c.transfer.enterFastRecovery S c.maxseq := rfl
  generalize enterFastRecovery S pipe { c with recover := c.maxseq } = e at entered
  simp only [lossQuickStart]
  -- whichever way the window is cut, the lost segment goes out
  split_ifs
  · refine dup.retransmit (e := { slowdown S { cwndInit := true } e with qsWindow := 0 }) now
      (.inl maxseq) ?_
    rw [← entered]
    exact slowdown_transfer (S := S) (a := e) { cwndInit := true }
  · refine dup.retransmit (e := slowdown S .half { e with lastCwndAction := .dupack }) now
      (.inl maxseq) ?_
    rw [← entered]
    exact slowdown_transfer (S := S) (a := { e with lastCwndAction := .dupack }) .half

theorem dupackAction_moves {ack : Ack} {c : Agent σ} (now : ℚ) (dup : Duplicate S ack a c) :
    Moves S (.ack ack) a (dupackAction S now c) := by
  have updated : Moves S (.ack ack) a c := by
    rw [Moves, dup.same]
    exact .single (.update ack rfl)
  simp only [dupackAction]
  split_ifs with first ecn
  · exact sackAction_moves now dup
  · exact recoverAfterEcn_moves now dup (by simp only [not_or] at first; omega)
  · exact updated
  · exact sackAction_moves now dup

theorem countDupack_moves {ack : Ack} (now : ℚ) (duplicate : ack.seqno = a.lastAck)
    (normal : a.fastrecov = false) :
    Moves S (.ack ack) a (countDupack S now (updateBoard S ack a)) := by
  have updated : Moves S (.ack ack) a (updateBoard S ack a) := .single (.update ack rfl)
  simp only [countDupack]
  split_ifs with news
  · exact dupackAction_moves now ⟨rfl, duplicate, normal, news⟩
  · exact updated.trans (sendOne_sends (a := { updateBoard S ack a with
      dupacks := (updateBoard S ack a).dupacks + 1 }) now).acts
  · exact updated
  · exact updated

/-! ### New ACKs -/

theorem newtimer_transfer (ack : Ack) : ∃ pending : Bool,
    (pending = true ∨ a.tSeqno ≤ ack.seqno ∧ a.maxseq ≤ ack.seqno) ∧
      (newtimer ack a).transfer = { a.transfer with rtxPending := pending } := by
  simp only [newtimer]
  split
  next => exact ⟨true, .inl rfl, rfl⟩
  next idle => exact ⟨false, .inr (by simp only [not_or] at idle; omega), rfl⟩

/-- The part of `newack()` between the two places where the timer may be set. -/
private theorem reflect_transfer (ack : Ack) (now : ℚ) (b : Agent σ) :
    (let b := { b with
      dupacks := 0, lastAck := ack.seqno, prevHighestAck := b.highestAck, highestAck := ack.seqno }
    let b := if b.tSeqno < b.lastAck + 1 then { b with tSeqno := b.lastAck + 1 } else b
    if ack.noTs then b else sampleSegment S ack now (sampleTimestamp S ack now b)).transfer =
      b.transfer.newack ack.seqno b.rtxPending := by
  dsimp only
  generalize reflected : (if b.tSeqno < ack.seqno + 1 then _ else _ : Agent σ) = e
  have same : e.transfer = b.transfer.newack ack.seqno b.rtxPending := by
    rw [← reflected, Transfer.newack]
    split
    next below => exact congrArg (fun t => { b.transfer.newack ack.seqno b.rtxPending with
      tSeqno := t }) (if_pos below).symm
    next above => exact congrArg (fun t => { b.transfer.newack ack.seqno b.rtxPending with
      tSeqno := t }) (if_neg above).symm
  -- the samples change the estimate only
  split
  · exact same
  · rw [sampleSegment_transfer, sampleTimestamp_transfer, same]

theorem newack_transfer (ack : Ack) (now : ℚ) : ∃ pending : Bool,
    TimerKept S ack.seqno pending a.transfer ∧
      (newack S ack now a).transfer = a.transfer.newack ack.seqno pending := by
  by_cases fix : S.timerfix = true
  · have same := reflect_transfer (S := S) ack now a
    simp only [newack, if_pos fix]
    generalize (if ack.noTs = true then _ else _ : Agent σ) = e at same ⊢
    obtain ⟨pending, kept, timed⟩ := @newtimer_transfer σ e ack
    refine ⟨pending, kept.imp_right fun idle => ?_, ?_⟩
    -- there is always a number behind the one that was acknowledged
    · have behind : e.tSeqno = if a.tSeqno < ack.seqno + 1 then ack.seqno + 1 else a.tSeqno :=
        congrArg Transfer.tSeqno same
      split_ifs at behind <;> omega
    · rw [same] at timed
      exact timed
  · obtain ⟨pending, kept, timed⟩ := @newtimer_transfer σ a ack
    have same := reflect_transfer (S := S) ack now (newtimer ack a)
    simp only [newack, if_neg fix]
    generalize (if ack.noTs = true then _ else _ : Agent σ) = e at same ⊢
    refine ⟨pending, kept.imp_right fun idle => ⟨by simpa using fix, idle.2⟩, ?_⟩
    have timer : (newtimer ack a).rtxPending = pending := congrArg Transfer.rtxPending timed
    rw [timed, timer] at same
    exact same

theorem closeIfDone_moves {ack : Ack} : Moves S (.ack ack) a (closeIfDone a) := by
  simp only [closeIfDone]
  split
  next done => exact .single (.finish ack rfl done.1)
  next => exact .refl

theorem spuriousTimeout_transfer :
    (spuriousTimeout S a).transfer = { a.transfer with recover := a.highestAck - 1 } := by
  simp only [Agent.transfer, spuriousTimeout, Agent.record, Ledger.record]
  rw [sentPackets_other a.entries (by simp)]

theorem followFrto_transfer : ∃ tSeqno recover,
    FollowsFrto a.highestAck a.transfer tSeqno recover ∧
      (followFrto S a).transfer = { a.transfer with tSeqno, recover } := by
  simp only [followFrto]
  split_ifs
  · exact ⟨_, _, .inl ⟨rfl, rfl⟩, rfl⟩
  · exact ⟨_, _, .inl ⟨rfl, rfl⟩, rfl⟩
  · exact ⟨_, _, .inr (.inl ⟨rfl, rfl⟩), rfl⟩
  · exact ⟨_, _, .inr (.inr ⟨rfl, rfl⟩), spuriousTimeout_transfer⟩
  · exact ⟨_, _, .inl ⟨rfl, rfl⟩, rfl⟩

/-- The part of an ACK's handling that comes after `newack()`. -/
theorem afterNewack_transfer (ack : Ack) :
    (followEcnBurst ack (openOnAck S ack (leaveQuickStartWindow a))).transfer = a.transfer := by
  simp

theorem clearBoard_moves {c : Agent σ}
    (cleared : c.transfer = { a.transfer with scb := S.board.clearScoreBoard a.scb }) :
    Moves S stimulus a c := by
  rw [Moves, cleared]
  exact .single .clear

theorem closeIfDone_transfer :
    (closeIfDone a).transfer = a.transfer ∨
      a.curseq - 1 ≤ a.highestAck ∧
        (closeIfDone a).transfer = { a.transfer with closed := true } := by
  simp only [closeIfDone]
  split
  next done => exact .inr ⟨done.1, rfl⟩
  next => exact .inl rfl

theorem recvNewackHelper_moves {ack : Ack} (now : ℚ) (new : a.lastAck < ack.seqno)
    (normal : a.fastrecov = false) : Moves S (.ack ack) a (recvNewackHelper S ack now a) := by
  obtain ⟨pending, kept, advanced⟩ := @newack_transfer σ S a ack now
  have arrived := (@afterNewack_transfer σ S (newack S ack now a) ack).trans advanced
  simp only [recvNewackHelper]
  generalize followEcnBurst ack (openOnAck S ack (leaveQuickStartWindow (newack S ack now a))) = b
    at arrived
  obtain ⟨tSeqno, recover, frto, followed⟩ := @followFrto_transfer σ S (closeIfDone b)
  rw [Moves, followed]
  -- closing the transfer changes neither what F-RTO reads nor what it writes
  rcases closeIfDone_transfer (a := b) with same | ⟨done, same⟩
  · have highest : (closeIfDone b).highestAck = ack.seqno :=
      congrArg Transfer.highestAck (same.trans arrived)
    rw [highest] at frto
    rw [same, arrived] at frto ⊢
    exact .single (.newack ack rfl new normal pending kept tSeqno recover frto)
  · have highest : (closeIfDone b).highestAck = ack.seqno :=
      (congrArg Transfer.highestAck same).trans (congrArg Transfer.highestAck arrived)
    have data : b.curseq = a.curseq := congrArg Transfer.curseq arrived
    have reflected : b.highestAck = ack.seqno := congrArg Transfer.highestAck arrived
    rw [highest] at frto
    rw [same, arrived] at frto ⊢
    refine .tail (.single (.newack ack rfl new normal pending kept tSeqno recover frto)) ?_
    rw [data, reflected] at done
    exact .finish ack rfl done

theorem recvNew_moves {ack : Ack} (now : ℚ) (new : a.lastAck < ack.seqno)
    (normal : a.fastrecov = false) : Moves S (.ack ack) a (recvNew S ack now a) := by
  have helped := recvNewackHelper_moves (S := S) (a := { a with firstpartial := false }) now new
    normal
  simp only [recvNew]
  split <;> exact helped.trans (clearBoard_moves rfl)

/-- What a new ACK leaves behind. -/
theorem recvNew_transfer (ack : Ack) (now : ℚ) : ∃ tSeqno recover closed pending,
    (recvNew S ack now a).transfer = { a.transfer.newack ack.seqno pending with
      tSeqno, recover, closed, scb := S.board.clearScoreBoard a.scb } := by
  obtain ⟨pending, -, advanced⟩ := @newack_transfer σ S { a with firstpartial := false } ack now
  have arrived := (@afterNewack_transfer σ S
    (newack S ack now { a with firstpartial := false }) ack).trans advanced
  have helped : ∃ tSeqno recover closed,
      (recvNewackHelper S ack now { a with firstpartial := false }).transfer =
        { a.transfer.newack ack.seqno pending with tSeqno, recover, closed } := by
    simp only [recvNewackHelper]
    generalize followEcnBurst ack (openOnAck S ack (leaveQuickStartWindow
      (newack S ack now { a with firstpartial := false }))) = b at arrived
    obtain ⟨tSeqno, recover, -, followed⟩ := @followFrto_transfer σ S (closeIfDone b)
    refine ⟨tSeqno, recover, (closeIfDone b).closed, followed.trans ?_⟩
    rcases closeIfDone_transfer (a := b) with same | ⟨-, same⟩
    · have kept : (closeIfDone b).closed = b.closed := congrArg Transfer.closed same
      have old : b.closed = a.closed := congrArg Transfer.closed arrived
      rw [same, arrived, kept, old]
      rfl
    · have done : (closeIfDone b).closed = true := congrArg Transfer.closed same
      rw [same, arrived, done]
      rfl
  obtain ⟨tSeqno, recover, closed, helped⟩ := helped
  have board : (recvNewackHelper S ack now { a with firstpartial := false }).scb = a.scb :=
    congrArg Transfer.scb helped
  refine ⟨tSeqno, recover, closed, pending, ?_⟩
  have cleared := congrArg (fun c : Transfer σ => { c with
    scb := S.board.clearScoreBoard c.scb }) helped
  simp only [recvNew]
  split
  · exact cleared
  · exact cleared

theorem judgeTimeout_moves {ack : Ack} : Moves S stimulus a (judgeTimeout S ack a) := by
  simp only [judgeTimeout]
  split_ifs with sfrto
  · rw [Moves, spuriousTimeout_transfer]
    exact .single (.spuriousTimeout sfrto.1)
  · exact .single .goBack
  · exact .refl

theorem recvNormal_moves {ack : Ack} (now : ℚ) (normal : a.fastrecov = false) :
    Moves S (.ack ack) a (recvNormal S ack now a) := by
  simp only [recvNormal]
  split_ifs with new old
  · exact recvNew_moves now new normal
  · exact .refl
  · exact .refl
  · exact (countDupack_moves now (by omega) normal).trans judgeTimeout_moves

/-! ### Fast recovery -/

theorem exitRecovery_moves {ack : Ack} (now : ℚ) (recovering : a.fastrecov = true)
    (passed : a.recover ≤ ack.seqno) : Moves S (.ack ack) a (exitRecovery S ack now a) := by
  have left : ({ a.record (.recoveryExit ack.seqno) with recover := 0, fastrecov := false } :
      Agent σ).transfer = { a.transfer with recover := 0, fastrecov := false } :=
    congrArg (fun c : Transfer σ => { c with recover := 0, fastrecov := false })
      (record_transfer (a := a) (e := .recoveryExit ack.seqno) (by simp))
  simp only [exitRecovery]
  generalize ({ a.record (.recoveryExit ack.seqno) with recover := 0, fastrecov := false } :
    Agent σ) = b at left ⊢
  obtain ⟨pending, kept, advanced⟩ := @newack_transfer σ S b ack now
  rw [left] at kept advanced
  have acknowledged : Moves S (.ack ack) a (newack S ack now b) := by
    rw [Moves, advanced]
    exact .single (.exitRecovery ack rfl recovering passed pending kept)
  exact (acknowledged.trans closeIfDone_moves).trans (clearBoard_moves rfl)

theorem resendHole_moves (enabled : S.partialAck = true) (now : ℚ) :
    Moves S stimulus a (resendHole S now a) ∧
      (resendHole S now a).highestAck = a.highestAck ∧
      (resendHole S now a).recover = a.recover := by
  simp only [resendHole]
  -- the packet is sent between two calls of the scoreboard
  generalize (if (S.board.getNextUnacked a.nextPkt a.scb).1 > a.nextPkt then _ else _ : Int) = next
  generalize (if a.tSeqno < next then next else a.tSeqno) = tSeqno
  have out := @output_outputs σ S { a with
    scb := (S.board.getNextUnacked a.nextPkt a.scb).2
    nextPkt := next
    tSeqno } next .partialAck now
  exact ⟨.single (.resend (c := a.transfer) enabled next tSeqno _ _ out), out.highestAck,
    out.recover⟩

theorem partialAckAction_moves (enabled : S.partialAck = true) (now : ℚ) :
    Moves S stimulus a (partialAckAction S now a) ∧
      (partialAckAction S now a).highestAck = a.highestAck ∧
      (partialAckAction S now a).recover = a.recover := by
  simp only [partialAckAction]
  generalize started : (if a.nextPkt < a.highestAck + 1 then _ else _ : Agent σ) = b
  have same : b.transfer = a.transfer := by
    rw [← started]
    split <;> rfl
  obtain ⟨first, highest, recover⟩ := @resendHole_moves σ S b stimulus enabled now
  obtain ⟨second, highest', recover'⟩ :=
    @resendHole_moves σ S (resendHole S now b) stimulus enabled now
  rw [Moves, same] at first
  refine ⟨first.trans second, ?_, ?_⟩
  · exact (highest'.trans highest).trans (congrArg Transfer.highestAck same)
  · exact (recover'.trans recover).trans (congrArg Transfer.recover same)

theorem newtimer_moves (ack : Ack) (reflected : a.highestAck = ack.seqno)
    (short : ack.seqno < a.recover) : Moves S (.ack ack) a (newtimer ack a) := by
  obtain ⟨pending, kept, timed⟩ := @newtimer_transfer σ a ack
  rw [Moves, timed]
  exact .single (.newtimer ack rfl reflected short pending (kept.imp_right And.right))

theorem recvPartial_moves {ack : Ack} (now : ℚ) (recovering : a.fastrecov = true)
    (new : a.highestAck < ack.seqno) (short : ack.seqno < a.recover) :
    Moves S (.ack ack) a (recvPartial S ack now a) := by
  have advanced : Moves S (.ack ack) a (updateBoard S ack { a with highestAck := ack.seqno }) :=
    .single (.partialAck ack rfl recovering new short)
  simp only [recvPartial]
  split_ifs with enabled first
  · exact advanced.trans (partialAckAction_moves enabled now).1
  · obtain ⟨resent, highest, recover⟩ := @partialAckAction_moves σ S
      (updateBoard S ack { a with highestAck := ack.seqno }) (.ack ack) enabled now
    have timed := newtimer_moves ack (S := S) (a := { partialAckAction S now
      (updateBoard S ack { a with highestAck := ack.seqno }) with
        pipe := (partialAckAction S now
          (updateBoard S ack { a with highestAck := ack.seqno })).pipe + 1 }) highest
      (by rw [recover]; exact short)
    exact (advanced.trans resent).trans timed
  · exact advanced.trans (newtimer_moves ack (a := { updateBoard S ack { a with
      highestAck := ack.seqno } with pipe := a.pipe - 1 }) rfl short)

theorem recvRecovering_moves {ack : Ack} (now : ℚ) (recovering : a.fastrecov = true) :
    Moves S (.ack ack) a (recvRecovering S ack now a) := by
  simp only [recvRecovering]
  -- full ACK, partial ACK, or one that acknowledges nothing new
  split_ifs with passed new
  · exact exitRecovery_moves (a := { a with pipe := a.pipe - 1 }) now recovering passed
  · exact recvPartial_moves (a := { a with pipe := a.pipe - 1 }) now recovering new
      (not_le.mp passed)
  · exact .refl
  · exact .single (.update ack rfl)
  · exact .single (.update ack rfl)

/-! ### The ACK handler -/

theorem beginAck_moves {ack : Ack} : Moves S stimulus a (beginAck S ack a) := by
  have ended (b : Agent σ) : Moves S stimulus b (endQuickStart S b) := by
    simp only [endQuickStart]
    split_ifs <;> exact .single .leaveQuickStart
  have processed (b : Agent σ) (asked : b.qsRequested = true) :
      Moves S stimulus b (processQuickStart S ack b) := by
    simp only [processQuickStart]
    cases ack.qsAppRate with
    | none => exact .single (.answerQuickStart false asked)
    | some appRate =>
      dsimp only
      split
      · exact .single (.answerQuickStart true asked)
      · exact .single (.answerQuickStart false asked)
  simp only [beginAck]
  split_ifs with approved asked asked
  · exact (ended a).trans (processed _ asked)
  · exact ended a
  · exact processed a asked
  · exact .refl

theorem ecn_transfer (seqno : Int) : ∃ recover, (recover = a.recover ∨ recover = a.maxseq) ∧
    (ecn S seqno a).transfer = { a.transfer with recover } := by
  simp only [ecn]
  split
  · have recorded := record_transfer (a := a) (e := .ecnReaction seqno a.maxseq) (by simp)
    have reacted : ({ a.record (.ecnReaction seqno a.maxseq) with
        recover := a.maxseq, lastCwndAction := .ecn } : Agent σ).transfer =
          { a.transfer with recover := a.maxseq } :=
      congrArg (fun c : Transfer σ => { c with recover := a.maxseq }) recorded
    -- the cut and the backoff are not seen here
    have cut (b : Agent σ) (how : Close) : ({ slowdown S how (backOffEcn S b) with
        necnresponses := (slowdown S how (backOffEcn S b)).necnresponses + 1 } :
          Agent σ).transfer = b.transfer := by
      refine (slowdown_transfer (S := S) (a := backOffEcn S b) how).trans ?_
      simp only [backOffEcn]
      split_ifs <;> rfl
    exact ⟨a.maxseq, .inr rfl, (cut _ _).trans reacted⟩
  · exact ⟨a.recover, .inl rfl, rfl⟩

theorem hearFeedback_transfer (ack : Ack) : ∃ recover,
    (recover = a.recover ∨ recover = a.maxseq) ∧
      (hearFeedback S ack a).transfer = { a.transfer with recover } := by
  have estimated := @estimate_transfer σ S a ack
  have recover : (estimate S ack a).recover = a.recover := congrArg Transfer.recover estimated
  have maxseq : (estimate S ack a).maxseq = a.maxseq := congrArg Transfer.maxseq estimated
  simp only [hearFeedback]
  split
  · obtain ⟨point, known, reacted⟩ := @ecn_transfer σ S (estimate S ack a) ack.seqno
    rw [recover, maxseq] at known
    exact ⟨point, known, by rw [reacted, estimated]⟩
  · exact ⟨a.recover, .inl rfl, estimated⟩

theorem hearFeedback_moves (ack : Ack) : Moves S stimulus a (hearFeedback S ack a) := by
  obtain ⟨recover, rfl | rfl, heard⟩ := @hearFeedback_transfer σ S a ack
  · exact Moves.of_eq heard
  · rw [Moves, heard]
    exact .single .ecn

theorem recv_moves {turns : Nat} {ack : Ack} {now : ℚ}
    (received : recv S turns ack now a = .ok b) : Moves S (.ack ack) a b := by
  have begun : Moves S (.ack ack) a (beginAck S ack a) := beginAck_moves
  have heard := begun.trans (hearFeedback_moves ack)
  simp only [recv] at received
  split_ifs at received with stale recovering valid
  · cases received
    exact begun
  · exact (heard.trans (recvRecovering_moves now recovering)).trans (sendMuch_sends received).acts
  · cases received
    exact heard.trans (recvRecovering_moves now recovering)
  · exact (heard.trans (recvNormal_moves now (by simpa using recovering))).trans
      (sendMuch_sends received).acts
  · cases received
    exact heard.trans (recvNormal_moves now (by simpa using recovering))

/-! ### Timeouts -/

theorem beginTimeout_transfer : (beginTimeout S a).transfer = { a.transfer with
    lastAck := if a.highestAck > a.lastAck then a.highestAck else a.lastAck
    recover := a.maxseq
    fastrecov := false
    scb := S.board.clearScoreBoard a.scb } := by
  have rerouted (b : Agent σ) : (rerouteOnTimeout S b).transfer = b.transfer := by
    simp only [rerouteOnTimeout]
    split <;> rfl
  have begun := (rerouted { a.record (.rto a.tSeqno a.maxseq) with
    dctcpAlphaUpdateSeq := a.tSeqno, dctcpMaxseq := a.tSeqno }).trans
      (record_transfer (a := a) (e := .rto a.tSeqno a.maxseq) (by simp))
  exact congrArg (fun c : Transfer σ => { c with
    lastAck := if c.highestAck > c.lastAck then c.highestAck else c.lastAck
    recover := c.maxseq
    fastrecov := false
    scb := S.board.clearScoreBoard c.scb }) begun

theorem closeOnTimeout_transfer (covered : a.recover = a.maxseq) :
    (closeOnTimeout S a).transfer = a.transfer := by
  have frto (b : Agent σ) : (startFrto S b).transfer = b.transfer := by
    simp only [startFrto]
    split <;> rfl
  have shrunk : (shrinkInitialWindow S { a with recover := a.maxseq }).transfer = a.transfer := by
    have same : ({ a with recover := a.maxseq } : Agent σ).transfer = a.transfer :=
      congrArg (fun recover => { a.transfer with recover }) covered.symm
    rw [← same]
    simp only [shrinkInitialWindow]
    split
    · split
      · rfl
      · split <;> rfl
    · rfl
  simp only [closeOnTimeout]
  generalize shrinkInitialWindow S _ = c at shrunk
  rw [← shrunk]
  split_ifs
  · exact slowdown_transfer { cwndOne := true, noOutstandingData := true }
  · rw [frto]
    exact slowdown_transfer { cwndOne := true }
  · rw [frto]
    exact slowdown_transfer (a := { c with nrexmit := c.nrexmit + 1, lastCwndAction := .timeout })
      { ssthreshHalf := true, cwndRestart := true }

theorem closeWindow_transfer (covered : a.recover = a.maxseq) :
    (closeWindow S a).transfer = { a.transfer with
      tSeqno := a.highestAck + 1
      rtxPending := true
      qsApproved := false } := by
  have reset (b : Agent σ) (backoff : Bool) : (resetRtxTimer S false backoff b).transfer =
      { b.transfer with tSeqno := b.highestAck + 1, rtxPending := true } := by
    cases backoff <;> rfl
  have saved : (saveWindow S a).transfer = { a.transfer with qsApproved := false } := rfl
  simp only [closeWindow]
  generalize closed : (if (saveWindow S a).highestAck = (saveWindow S a).maxseq ∧
    ¬S.slowStartRestart = true then saveWindow S a else closeOnTimeout S (saveWindow S a)) = b
  have same : b.transfer = { a.transfer with qsApproved := false } := by
    rw [← closed]
    split
    · exact saved
    · exact (closeOnTimeout_transfer (a := saveWindow S a) covered).trans saved
  have highest : b.highestAck = a.highestAck := congrArg Transfer.highestAck same
  refine (reset b _).trans ?_
  rw [same, highest]

theorem timeout_transfer :
    (closeWindow S (beginTimeout S { a with rtxPending := false })).transfer = { a.transfer with
      tSeqno := a.highestAck + 1
      lastAck := if a.highestAck > a.lastAck then a.highestAck else a.lastAck
      recover := a.maxseq
      rtxPending := true
      fastrecov := false
      qsApproved := false
      scb := S.board.clearScoreBoard a.scb } := by
  have begun := @beginTimeout_transfer σ S { a with rtxPending := false }
  have covered : (beginTimeout S { a with rtxPending := false }).recover =
      (beginTimeout S { a with rtxPending := false }).maxseq :=
    (congrArg Transfer.recover begun).trans (congrArg Transfer.maxseq begun).symm
  have highest : (beginTimeout S { a with rtxPending := false }).highestAck = a.highestAck :=
    congrArg Transfer.highestAck begun
  rw [closeWindow_transfer covered, begun, highest]
  rfl

theorem timeout_moves :
    Moves S stimulus a (closeWindow S (beginTimeout S { a with rtxPending := false })) := by
  rw [Moves, timeout_transfer]
  exact .single .timeout

/-! ### Steps -/

theorem le_sendmsg {curseq nbytes size : Int} (more : -1 ≤ nbytes) (large : 1 < size) :
    curseq ≤ if nbytes = -1 ∧ curseq ≤ tcpMaxseq then tcpMaxseq
      else curseq + (nbytes.tdiv size + if nbytes.tmod size ≠ 0 then 1 else 0) := by
  split
  next endless => exact endless.2
  next =>
    rcases eq_or_lt_of_le more with rfl | nonneg
    -- one byte back is no packet back
    · have whole : (-1 : Int).tdiv size = 0 := by
        rw [Int.neg_tdiv, Int.tdiv_eq_zero_of_lt zero_le_one large, neg_zero]
      rw [whole]
      split <;> omega
    · have whole : 0 ≤ nbytes.tdiv size := Int.tdiv_nonneg (by omega) (by omega)
      split <;> omega

theorem respond_moves {i : Input} (answer : respond S i a = .ok b) : Moves S i.stimulus a b := by
  simp only [respond] at answer
  cases stimulus : i.stimulus with
  | ack ack =>
    simp only [stimulus] at answer
    exact recv_moves answer
  | rtxExpires =>
    simp only [stimulus] at answer
    split at answer
    next =>
      obtain ⟨c, sent, done⟩ := DrivenRun.bind_eq_ok.mp answer
      cases done
      rw [Moves, overruleFrto_transfer]
      exact timeout_moves.trans (sendMuch_sends sent).acts
    next => cases answer
  | delsndExpires =>
    simp only [stimulus] at answer
    split at answer
    next =>
      obtain ⟨c, sent, done⟩ := DrivenRun.bind_eq_ok.mp answer
      cases done
      rw [Moves, overruleFrto_transfer]
      exact .head .delsndExpires
        (sendMuch_sends (a := { a with delsndPending := false }) sent).acts
    next => cases answer
  | flBndrExpires =>
    simp only [stimulus] at answer
    split at answer
    next =>
      cases answer
      apply Moves.of_eq
      simp only [timeoutFlowBender]
      rw [overruleFrto_transfer, checkCongestionFB_transfer]
      rfl
    next => cases answer
  | sendmsg nbytes =>
    simp only [stimulus, sendmsg] at answer
    exact .head (.offer _ a.closed rfl id fun more large => le_sendmsg more large)
      (sendMuch_sends answer).acts
  | advanceby delta =>
    have more : (Stimulus.advanceby delta).Grows → 1 < S.size → a.curseq ≤ a.curseq + delta :=
      fun more _ => le_add_of_nonneg_right more
    simp only [stimulus, advanceby] at answer
    split at answer
    · exact .head (.offer _ false rfl (fun closed => absurd closed Bool.false_ne_true) more)
        (sendMuch_sends answer).acts
    · exact .head (.offer _ a.closed rfl id more) (sendMuch_sends answer).acts

end Saps.Tcp
