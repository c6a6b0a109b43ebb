import Mathlib.Logic.Relation
import Saps.Tcp.TimeoutRange
import Saps.Tcp.TimerFrame

/-!
# The timer over whole runs

Whatever a sender hears, its estimator is only ever asked for an update, a longer backing
off or the end of it. So what holds after any calls holds in every state of every run.
-/
namespace Saps.Tcp

open Relation

variable {σ : Type} {S : Setup σ} {a b : Agent σ} {P : RttCall → Prop}

/-- A step of the timer's state: a call of the kind `P`, or another segment that is timed. -/
inductive TimerStep (S : Setup σ) (P : RttCall → Prop) : RoundTrip → RoundTrip → Prop
  | call (r : RoundTrip) (call : RttCall) (allowed : P call) : TimerStep S P r (call.apply S r)
  | segment (r : RoundTrip) (rttActive : Bool) (rttSeq : Int) (rttTs tsEcho : ℚ) :
    TimerStep S P r { r with rttActive, rttSeq, rttTs, tsEcho }

/-- Agent `b` comes from agent `a` by such steps. -/
abbrev Retimes (S : Setup σ) (P : RttCall → Prop) (a b : Agent σ) : Prop :=
  ReflTransGen (TimerStep S P) a.toRoundTrip b.toRoundTrip

namespace Retimes

theorem of_eq (same : b.toRoundTrip = a.toRoundTrip) : Retimes S P a b := by
  rw [Retimes, same]

theorem segment {r : RoundTrip} (rttActive : Bool) (rttSeq : Int) (rttTs tsEcho : ℚ)
    (same : r = { a.toRoundTrip with rttActive, rttSeq, rttTs, tsEcho }) :
    ReflTransGen (TimerStep S P) a.toRoundTrip r := by
  rw [same]
  exact .single (.segment _ rttActive rttSeq rttTs tsEcho)

/-- What every step keeps is kept. -/
theorem invariant {I : RoundTrip → Prop} (retimes : Retimes S P a b) (initial : I a.toRoundTrip)
    (called : ∀ r call, P call → I r → I (call.apply S r))
    (timed : ∀ (r : RoundTrip) (rttActive : Bool) (rttSeq : Int) (rttTs tsEcho : ℚ), I r →
      I { r with rttActive, rttSeq, rttTs, tsEcho }) : I b.toRoundTrip := by
  have steps : ReflTransGen (TimerStep S P) a.toRoundTrip b.toRoundTrip := retimes
  generalize b.toRoundTrip = r at steps ⊢
  induction steps with
  | refl => exact initial
  | tail _ step ih =>
    cases step with
    | call call allowed => exact called _ call allowed ih
    | segment rttActive rttSeq rttTs tsEcho => exact timed _ rttActive rttSeq rttTs tsEcho ih

end Retimes

/-! ### Sending -/

theorem output_retimes (seqno : Int) (reason : Reason) (now : ℚ) :
    Retimes S P a (output S seqno reason now a) := by
  have counted (p : DataPacket) (databytes : Int) (b : Agent σ)
      (same : b.toRoundTrip = a.toRoundTrip) : Retimes S P a (countSent S p databytes now b) :=
    (Retimes.of_eq same).trans (Retimes.segment _ _ _ _ rfl)
  simp only [output]
  split_ifs
  -- either the connection was given up, or one packet goes out
  all_goals first
    | exact .of_eq rfl
    | exact counted _ _ _ (by simp [startSyn])

theorem sendOne_retimes (now : ℚ) : Retimes S P a (sendOne S now a) := by
  simp only [sendOne]
  split_ifs
  · exact output_retimes a.tSeqno .normal now
  · exact .refl

theorem lossQuickStart_retimes (now : ℚ) : Retimes S P a (lossQuickStart S now a).1 := by
  simp only [lossQuickStart]
  split_ifs
  · refine ReflTransGen.trans (Retimes.of_eq ?_) (output_retimes _ .dupack now)
    rfl
  · exact .refl

theorem sendMuch_retimes {turns : Nat} {force : Bool} {reason : Reason} {now : ℚ}
    (sent : sendMuch S turns force reason now a = .ok b) : Retimes S P a b := by
  refine sendMuch_invariant (I := fun c => Retimes S P a c) (fun c win before => ?_)
    (fun c seqno before => before.trans (output_retimes seqno reason now))
    (fun c before => before) .refl sent
  exact before.trans (Retimes.of_eq (pickSegment_roundTrip win))

/-! ### Fast recovery -/

theorem enterFastRecovery_retimes (pipe : Int) :
    Retimes S P a (enterFastRecovery S pipe a) :=
  Retimes.segment false _ _ _ (enterFastRecovery_roundTrip pipe)

theorem recoverAfterEcn_retimes (now : ℚ) : Retimes S P a (recoverAfterEcn S now a) := by
  simp only [recoverAfterEcn]
  refine ReflTransGen.trans ?_ (output_retimes _ .dupack now)
  refine ReflTransGen.trans (Retimes.of_eq ?_) (enterFastRecovery_retimes _)
  split <;> rfl

theorem sackAction_retimes (now : ℚ) : Retimes S P a (sackAction S now a) := by
  simp only [sackAction]
  generalize (if S.oldCode then _ else _ : Int) = pipe
  have entered : Retimes S P a (enterFastRecovery S pipe { a with recover := a.maxseq }) :=
    enterFastRecovery_retimes (a := { a with recover := a.maxseq }) pipe
  have lost := entered.trans (lossQuickStart_retimes (S := S) (P := P) now)
  split
  next left => simpa only [left] using lost
  next left =>
    simp only [left] at lost
    refine lost.trans (ReflTransGen.trans (Retimes.of_eq ?_) (output_retimes _ .dupack now))
    rfl

theorem dupackAction_retimes (now : ℚ) : Retimes S P a (dupackAction S now a) := by
  simp only [dupackAction]
  split_ifs
  · exact sackAction_retimes now
  · exact recoverAfterEcn_retimes now
  · exact .refl
  · exact sackAction_retimes now

theorem countDupack_retimes (now : ℚ) : Retimes S P a (countDupack S now a) := by
  simp only [countDupack]
  split_ifs
  · exact dupackAction_retimes (a := { a with dupacks := a.dupacks + 1 }) now
  · exact sendOne_retimes (a := { a with dupacks := a.dupacks + 1 }) now
  · exact .of_eq rfl
  · exact .refl

theorem partialAckAction_retimes (now : ℚ) : Retimes S P a (partialAckAction S now a) := by
  have resent (b : Agent σ) : Retimes S P b (resendHole S now b) := by
    simp only [resendHole]
    show ReflTransGen (TimerStep S P) b.toRoundTrip (output S _ .partialAck now _).toRoundTrip
    refine ReflTransGen.trans (Retimes.of_eq ?_) (output_retimes _ .partialAck now)
    rfl
  simp only [partialAckAction]
  refine ReflTransGen.trans (ReflTransGen.trans (Retimes.of_eq ?_) (resent _)) (resent _)
  split <;> rfl

/-! ### Samples -/

/-- Calls that no stimulus is needed for. -/
structure Spontaneous (P : RttCall → Prop) : Prop where
  backoff : P .backoff
  restart : P .restart

/-- An ACK measures what `P` allows: the time since its timestamp, or else since the segment that is
timed, if it acknowledges that. -/
def Measured (S : Setup σ) (P : RttCall → Prop) (ack : Ack) (now : ℚ) (a : Agent σ) : Prop :=
  if S.tsOption then P (.update (now - ack.tsEcho) now)
  else a.rttActive = true → a.rttSeq ≤ ack.seqno → P (.update (now - a.rttTs) now)

instance {lo hi : Int} {ack : Ack} {now : ℚ} :
    Decidable (Measured S (RttCall.Within S lo hi) ack now a) :=
  inferInstanceAs (Decidable (if S.tsOption then _ else _))

/-- The segment that is timed. -/
def Agent.timedSegment (a : Agent σ) : Bool × Int × ℚ := (a.rttActive, a.rttSeq, a.rttTs)

theorem Measured.congr {ack : Ack} {now : ℚ} (measured : Measured S P ack now a)
    (same : b.timedSegment = a.timedSegment) : Measured S P ack now b := by
  simp only [Agent.timedSegment, Prod.mk.injEq] at same
  rw [Measured, same.1, same.2.1, same.2.2]
  exact measured

theorem timedSegment_of_roundTrip (same : b.toRoundTrip = a.toRoundTrip) :
    b.timedSegment = a.timedSegment := by
  simp only [Agent.timedSegment, same]

@[simp] theorem endBackoff_timedSegment (ack : Ack) :
    (endBackoff ack a).timedSegment = a.timedSegment := by
  simp only [endBackoff]
  split <;> rfl

@[simp] theorem hearFeedback_timedSegment (ack : Ack) :
    (hearFeedback S ack a).timedSegment = a.timedSegment := by
  have backedOff (b : Agent σ) : (backOffEcn S b).timedSegment = b.timedSegment := by
    simp only [backOffEcn, rttBackoff]
    split_ifs <;> rfl
  have reacted (b : Agent σ) : (ecn S ack.seqno b).timedSegment = b.timedSegment := by
    simp only [ecn]
    split
    · exact backedOff { b.record (.ecnReaction ack.seqno b.maxseq) with
        recover := b.maxseq, lastCwndAction := .ecn }
    · rfl
  have estimated : (estimate S ack a).timedSegment = a.timedSegment :=
    timedSegment_of_roundTrip (estimate_roundTrip ack)
  simp only [hearFeedback]
  split
  · exact (reacted _).trans estimated
  · exact estimated

section Calls

variable (spontaneous : Spontaneous P)
include spontaneous

theorem backOffEcn_retimes : Retimes S P a (backOffEcn S a) := by
  simp only [backOffEcn]
  split_ifs
  · exact .single (.call _ .backoff spontaneous.backoff)
  · exact .of_eq rfl
  · exact .of_eq rfl

theorem ecn_retimes (seqno : Int) : Retimes S P a (ecn S seqno a) := by
  simp only [ecn]
  split
  · exact backOffEcn_retimes (a := { a.record (.ecnReaction seqno a.maxseq) with
      recover := a.maxseq, lastCwndAction := .ecn }) spontaneous
  · exact .of_eq rfl

theorem endBackoff_retimes (ack : Ack) : Retimes S P a (endBackoff ack a) := by
  simp only [endBackoff]
  split
  · exact .single (.call _ .restart spontaneous.restart)
  · exact .of_eq rfl

theorem sampleTimestamp_retimes {ack : Ack} {now : ℚ} (measured : Measured S P ack now a) :
    Retimes S P a (sampleTimestamp S ack now a) := by
  have sampled (ts : S.tsOption = true) :
      ReflTransGen (TimerStep S P) a.toRoundTrip
        (rttUpdate S (now - ack.tsEcho) now { a.toRoundTrip with tsEcho := ack.tsEcho }) := by
    rw [Measured, if_pos ts] at measured
    exact .tail (Retimes.segment _ _ _ ack.tsEcho rfl) (.call _ (.update _ now) measured)
  simp only [sampleTimestamp]
  split_ifs with ts
  · refine (sampled ts).trans ?_
    exact endBackoff_retimes (a := { a with
      toRoundTrip := rttUpdate S _ now { a.toRoundTrip with tsEcho := ack.tsEcho } })
      spontaneous ack
  · exact sampled ts
  · exact .of_eq rfl

theorem sampleSegment_retimes {ack : Ack} {now : ℚ} (measured : Measured S P ack now a) :
    Retimes S P a (sampleSegment S ack now a) := by
  have ended : Retimes S P a { endBackoff ack a with rttActive := false } :=
    ReflTransGen.trans (endBackoff_retimes spontaneous ack)
      (Retimes.segment false _ _ _ rfl)
  simp only [sampleSegment]
  split_ifs with due ts
  · exact ended
  · have sent : (endBackoff ack a).rttTs = a.rttTs :=
      congrArg (fun s => s.2.2) (endBackoff_timedSegment (a := a) ack)
    rw [Measured, if_neg ts] at measured
    refine .tail ended (.call _ (.update (now - (endBackoff ack a).rttTs) now) ?_)
    rw [sent]
    exact measured due.1 due.2
  · exact .of_eq rfl

/-- With timestamps the segment that is timed is not looked at, and without them they are not. -/
theorem samples_retimes {ack : Ack} {now : ℚ} (measured : Measured S P ack now a) :
    Retimes S P a (sampleSegment S ack now (sampleTimestamp S ack now a)) := by
  refine (sampleTimestamp_retimes spontaneous measured).trans
    (sampleSegment_retimes spontaneous ?_)
  by_cases ts : S.tsOption = true
  · rw [Measured, if_pos ts] at measured ⊢
    exact measured
  · have same : sampleTimestamp S ack now a = a := if_neg ts
    rw [same]
    exact measured

private theorem reflect_retimes {ack : Ack} {now : ℚ} (b : Agent σ)
    (measured : Measured S P ack now b) : Retimes S P b
      (let b := { b with
        dupacks := 0
        lastAck := ack.seqno
        prevHighestAck := b.highestAck
        highestAck := ack.seqno }
      let b := if b.tSeqno < b.lastAck + 1 then { b with tSeqno := b.lastAck + 1 } else b
      if ack.noTs then b else sampleSegment S ack now (sampleTimestamp S ack now b)) := by
  dsimp only
  generalize reflected : (if b.tSeqno < ack.seqno + 1 then _ else _ : Agent σ) = e
  have same : e.toRoundTrip = b.toRoundTrip := by
    rw [← reflected]
    split <;> rfl
  split
  · exact .of_eq same
  · exact (Retimes.of_eq same).trans
      (samples_retimes spontaneous (measured.congr (timedSegment_of_roundTrip same)))

theorem newack_retimes {ack : Ack} {now : ℚ} (measured : Measured S P ack now a) :
    Retimes S P a (newack S ack now a) := by
  by_cases fix : S.timerfix = true
  · have reflected := reflect_retimes spontaneous a measured
    simp only [newack, if_pos fix]
    generalize (if ack.noTs = true then _ else _ : Agent σ) = e at reflected ⊢
    exact reflected.trans (Retimes.of_eq (newtimer_roundTrip (a := e) ack))
  · have restarted := timedSegment_of_roundTrip (newtimer_roundTrip (a := a) ack)
    have reflected := reflect_retimes spontaneous (newtimer ack a) (measured.congr restarted)
    simp only [newack, if_neg fix]
    generalize (if ack.noTs = true then _ else _ : Agent σ) = e at reflected ⊢
    exact (Retimes.of_eq (newtimer_roundTrip ack)).trans reflected

theorem recvNewackHelper_retimes {ack : Ack} {now : ℚ} (measured : Measured S P ack now a) :
    Retimes S P a (recvNewackHelper S ack now a) := by
  refine (newack_retimes spontaneous measured).trans (Retimes.of_eq ?_)
  simp [recvNewackHelper]

/-! ### Handlers -/

theorem recvNormal_retimes {ack : Ack} {now : ℚ} (measured : Measured S P ack now a) :
    Retimes S P a (recvNormal S ack now a) := by
  have judged : Retimes S P a
      (judgeTimeout S ack (countDupack S now (updateBoard S ack a))) :=
    ReflTransGen.trans (countDupack_retimes (a := updateBoard S ack a) now)
      (Retimes.of_eq (judgeTimeout_roundTrip ack))
  have heard := recvNewackHelper_retimes (a := { a with firstpartial := false }) spontaneous
    measured
  simp only [recvNormal, recvNew]
  split_ifs
  · exact heard
  · exact heard
  · exact .refl
  · exact .refl
  · exact judged

theorem recvPartial_retimes (ack : Ack) (now : ℚ) : Retimes S P a (recvPartial S ack now a) := by
  have resent : Retimes S P a
      (partialAckAction S now (updateBoard S ack { a with highestAck := ack.seqno })) :=
    partialAckAction_retimes (a := updateBoard S ack { a with highestAck := ack.seqno }) now
  have restarted (b : Agent σ) (heard : Retimes S P a b) :
      Retimes S P a { newtimer ack b with tBackoff := 1, firstpartial := true } :=
    (heard.trans (Retimes.of_eq (newtimer_roundTrip ack))).tail
      (.call _ .restart spontaneous.restart)
  simp only [recvPartial]
  split_ifs
  · exact resent
  · refine restarted _ ?_
    exact resent
  · refine restarted _ ?_
    exact .of_eq rfl

theorem recvRecovering_retimes {ack : Ack} {now : ℚ} (measured : Measured S P ack now a) :
    Retimes S P a (recvRecovering S ack now a) := by
  simp only [recvRecovering]
  split_ifs
  · simp only [exitRecovery]
    show ReflTransGen (TimerStep S P) a.toRoundTrip
      (closeIfDone (newack S ack now _)).toRoundTrip
    rw [closeIfDone_roundTrip]
    refine ReflTransGen.trans (Retimes.of_eq ?_) (newack_retimes spontaneous measured)
    rfl
  · exact recvPartial_retimes (a := { a with pipe := a.pipe - 1 }) spontaneous ack now
  · exact .of_eq rfl
  · exact .of_eq rfl
  · exact .of_eq rfl

theorem hearFeedback_retimes (ack : Ack) : Retimes S P a (hearFeedback S ack a) := by
  have estimated : Retimes S P a (estimate S ack a) := .of_eq (estimate_roundTrip ack)
  simp only [hearFeedback]
  split
  · exact estimated.trans (ecn_retimes spontaneous ack.seqno)
  · exact estimated

theorem recv_retimes {turns : Nat} {ack : Ack} {now : ℚ} (measured : Measured S P ack now a)
    (answer : recv S turns ack now a = .ok b) : Retimes S P a b := by
  have begun : Retimes S P a (beginAck S ack a) := .of_eq (beginAck_roundTrip ack)
  have heard : Retimes S P a (hearFeedback S ack (beginAck S ack a)) :=
    begun.trans (hearFeedback_retimes spontaneous ack)
  have still : Measured S P ack now (hearFeedback S ack (beginAck S ack a)) := by
    refine measured.congr ((hearFeedback_timedSegment ack).trans ?_)
    exact timedSegment_of_roundTrip (beginAck_roundTrip ack)
  have normal := heard.trans (recvNormal_retimes spontaneous still)
  have recovering := heard.trans (recvRecovering_retimes spontaneous still)
  simp only [recv] at answer
  split_ifs at answer
  -- an ACK of a previous incarnation
  · cases answer
    exact begun
  · exact recovering.trans (sendMuch_retimes answer)
  · cases answer
    exact recovering
  · exact normal.trans (sendMuch_retimes answer)
  · cases answer
    exact normal

theorem closeWindow_retimes : Retimes S P a (closeWindow S a) := by
  have reset (backoff : Bool) (b : Agent σ) : Retimes S P b (resetRtxTimer S false backoff b) := by
    cases backoff with
    | true =>
      exact (ReflTransGen.single (.call _ .backoff spontaneous.backoff)).tail
        (.segment _ false _ _ _)
    | false => exact .single (.segment _ false _ _ _)
  simp only [closeWindow]
  refine ReflTransGen.trans (Retimes.of_eq ?_) (reset _ _)
  split
  · rfl
  · exact closeOnTimeout_roundTrip

theorem respond_retimes {i : Input}
    (measured : ∀ ack, i.stimulus = .ack ack → Measured S P ack i.now a)
    (answer : respond S i a = .ok b) : Retimes S P a b := by
  simp only [respond] at answer
  cases stimulus : i.stimulus with
  | ack ack =>
    simp only [stimulus] at answer
    exact recv_retimes spontaneous (measured ack stimulus) answer
  | rtxExpires =>
    simp only [stimulus, timeoutRtx] at answer
    split_ifs at answer
    obtain ⟨c, sent, done⟩ := DrivenRun.bind_eq_ok.mp answer
    cases done
    have begun : Retimes S P a (beginTimeout S { a with rtxPending := false }) :=
      .of_eq (beginTimeout_roundTrip)
    have closed := begun.trans (closeWindow_retimes spontaneous)
    exact (closed.trans (sendMuch_retimes sent)).trans (Retimes.of_eq (overruleFrto_roundTrip _))
  | delsndExpires =>
    simp only [stimulus, timeoutDelsnd] at answer
    split_ifs at answer
    obtain ⟨c, sent, done⟩ := DrivenRun.bind_eq_ok.mp answer
    cases done
    exact (sendMuch_retimes (a := { a with delsndPending := false }) sent).trans
      (Retimes.of_eq (overruleFrto_roundTrip _))
  | flBndrExpires =>
    simp only [stimulus, timeoutFlowBender] at answer
    split_ifs at answer
    cases answer
    exact .of_eq ((overruleFrto_roundTrip _).trans checkCongestionFB_roundTrip)
  | sendmsg nbytes =>
    simp only [stimulus, sendmsg] at answer
    refine ReflTransGen.trans (Retimes.of_eq ?_) (sendMuch_retimes answer)
    rfl
  | advanceby delta =>
    simp only [stimulus, advanceby] at answer
    refine ReflTransGen.trans (Retimes.of_eq ?_) (sendMuch_retimes answer)
    split <;> rfl

/-! ### Runs -/

/-- Whatever the sender heard, its estimator has gone through such steps since it was set up. -/
theorem agentAt_retimes {inputs : Nat → Input} {k : Nat}
    (measured : ∀ j b ack, agentAt S (fresh S) inputs j = .ok b →
      (inputs j).stimulus = .ack ack → Measured S P ack (inputs j).now b)
    (reached : agentAt S (fresh S) inputs k = .ok a) : Retimes S P (fresh S) a := by
  induction k generalizing a with
  | zero =>
    cases reached
    exact .refl
  | succ k ih =>
    obtain ⟨b, o, before, answer⟩ := DrivenRun.stateAt_succ_iff.mp reached
    have responded := DrivenRun.map_unit_eq_ok.mp answer
    exact (ih before).trans
      (respond_retimes spontaneous (fun ack heard => measured k b ack before heard) responded)

end Calls

theorem BackedOff.call {r : RoundTrip} (backedOff : BackedOff S r) (rfc2988 : S.rfc2988 = true)
    (positive : 0 < S.minrto) (call : RttCall) : BackedOff S (call.apply S r) := by
  cases call with
  | update tao now => exact ⟨backedOff.power, backedOff.bound⟩
  | backoff => exact backedOff.backoff rfc2988 positive
  | restart => exact .first rfl

/-- A timeout that no sample has moved yet is the initial one. -/
structure Punctual (S : Setup σ) (lo hi : Int) (r : RoundTrip) : Prop where
  trusted : Trusted S lo hi r
  one_le : 1 ≤ r.tBackoff
  rtxcur : r.tRtxcur = S.rtxcurInit ∨ InTime S lo hi r

namespace Punctual

variable {lo hi : Int} {r : RoundTrip}

theorem call (estimating : S.Estimating lo hi) (punctual : Punctual S lo hi r) (call : RttCall)
    (within : call.Within S lo hi) : Punctual S lo hi (call.apply S r) where
  trusted := punctual.trusted.apply estimating within
  one_le := call.one_le_apply punctual.one_le
  rtxcur := by
    by_cases updates : call.updates = true
    · exact .inr (RttCall.apply_inTime estimating punctual.trusted within (.inl updates))
    · have same : (call.apply S r).tRtxcur = r.tRtxcur := by
        cases call with
        | update tao now => exact absurd rfl updates
        | backoff => exact rttBackoff_tRtxcur
        | restart => rfl
      rw [InTime, same]
      exact punctual.rtxcur

theorem segment (punctual : Punctual S lo hi r) (rttActive : Bool) (rttSeq : Int)
    (rttTs tsEcho : ℚ) : Punctual S lo hi { r with rttActive, rttSeq, rttTs, tsEcho } where
  trusted := by
    rcases punctual.trusted with none | estimated
    · exact .inl none
    · exact .inr { estimated with }
  one_le := punctual.one_le
  rtxcur := punctual.rtxcur

end Punctual

/-- In every state of every run the factor is a power of two within its bound, and the timer is set
between its floor and its ceiling. As long as the round trips measured stay in a range, the
estimated timeout does so too once there is one, and the timer is not set to less. -/
theorem agentAt_timer (S : Setup σ) (inputs : Nat → Input) (k : Nat) (a : Agent σ)
    (rfc2988 : S.rfc2988 = true) (positive : 0 < S.minrto) (room : 2 * S.tcpTick ≤ S.maxrto)
    (reached : agentAt S (fresh S) inputs k = .ok a) :
    ((∃ e : Nat, a.tBackoff = 2 ^ e) ∧
        (a.tBackoff : ℚ) ≤ max 64 (2 * S.maxrto / S.minrto)) ∧
      (2 * S.tcpTick ≤ rttTimeout S a.toRoundTrip ∧ rttTimeout S a.toRoundTrip ≤ S.maxrto) ∧
      ∀ lo hi : Int, S.Estimating lo hi →
        (∀ j b ack, agentAt S (fresh S) inputs j = .ok b → (inputs j).stimulus = .ack ack →
          Measured S (RttCall.Within S lo hi) ack (inputs j).now b) →
        a.tRtxcur = S.rtxcurInit ∨ InTime S lo hi a.toRoundTrip ∧
          min S.maxrto ((lo + 1) * S.tcpTick) ≤ rttTimeout S a.toRoundTrip := by
  have backedOff : BackedOff S a.toRoundTrip := by
    have any : Retimes S (fun _ => True) (fresh S) a := by
      refine agentAt_retimes ⟨trivial, trivial⟩ (fun j b ack _ _ => ?_) reached
      rw [Measured]
      split
      · trivial
      · exact fun _ _ => trivial
    refine any.invariant (.first rfl) (fun r call _ before => ?_)
      fun r rttActive rttSeq rttTs tsEcho before => ⟨before.power, before.bound⟩
    exact before.call rfc2988 positive call
  refine ⟨⟨backedOff.power, backedOff.bound⟩, rttTimeout_range rfc2988 room, ?_⟩
  intro lo hi estimating measured
  have initial : Punctual S lo hi (fresh S).toRoundTrip := by
    have none : Trusted S lo hi (fresh S).toRoundTrip :=
      estimateAfter_trusted estimating (fresh S).toRoundTrip [] (by simp)
    exact ⟨none, le_refl _, .inl rfl⟩
  have punctual : Punctual S lo hi a.toRoundTrip := by
    have within := agentAt_retimes ⟨trivial, trivial⟩ measured reached
    exact within.invariant initial
      (fun r call allowed before => before.call estimating call allowed)
      fun r rttActive rttSeq rttTs tsEcho before => before.segment rttActive rttSeq rttTs tsEcho
  refine punctual.rtxcur.imp_right fun inTime => ⟨inTime, ?_⟩
  have one := estimating.one_le
  have least : (0 : ℚ) ≤ (lo + 1) * S.tcpTick :=
    mul_nonneg (by exact_mod_cast (show 0 ≤ lo + 1 by omega)) estimating.tick.le
  exact (min_le_min_left _ inTime.1).trans (le_rttTimeout punctual.one_le (least.trans inTime.1))

/-- Round trips of three milliseconds, then one of five. -/
def timedScript : List (ℚ × Stimulus) :=
  [(0, .advanceby 5), (3 / 1000, ackFor 0), (6 / 1000, ackFor 1), (11 / 1000, ackFor 3)]

def timedInputs (k : Nat) : Input :=
  let (now, stimulus) := timedScript.getD k (1, .advanceby 0)
  { now, stimulus, turns := 20 }

def timedAcks : List Ack := [{ seqno := 0 }, { seqno := 1 }, { seqno := 3 }]

theorem timedInputs_measured (j : Nat) (b : Agent SackedSegments) (ack : Ack)
    (before : agentAt dctcpSetup (fresh dctcpSetup) timedInputs j = .ok b)
    (heard : (timedInputs j).stimulus = .ack ack) :
    Measured dctcpSetup (RttCall.Within dctcpSetup 1 5) ack (timedInputs j).now b := by
  by_cases early : j < 4
  · have known : ∀ i < 4, (timedInputs i).stimulus = .advanceby 5 ∨
        ∃ sent ∈ timedAcks, (timedInputs i).stimulus = .ack sent := by
      decide +kernel
    have checked : ∀ i < 4, ∀ sent ∈ timedAcks, (timedInputs i).stimulus = .ack sent →
        ∀ c ∈ (agentAt dctcpSetup (fresh dctcpSetup) timedInputs i).toOption,
          Measured dctcpSetup (RttCall.Within dctcpSetup 1 5) sent (timedInputs i).now c := by
      decide +kernel
    rcases known j early with idle | ⟨sent, listed, same⟩
    · rw [idle] at heard
      cases heard
    · obtain rfl : sent = ack := Stimulus.ack.inj (same.symm.trans heard)
      exact checked j early sent listed heard b (by simp [before, Except.toOption])
  · have idle : (timedInputs j).stimulus = .advanceby 0 := by
      have past : timedScript[j]? = none := List.getElem?_eq_none (not_lt.mp early)
      simp [timedInputs, past]
    rw [idle] at heard
    cases heard

/-- The timeout is at nine ticks after round trips of three and of five. -/
theorem agentAt_timer_timed :
    ∃ a, agentAt dctcpSetup (fresh dctcpSetup) timedInputs 4 = .ok a ∧ a.tRtxcur = 9 / 1000 ∧
      InTime dctcpSetup 1 5 a.toRoundTrip := by
  obtain ⟨a, reached, timeout⟩ := DrivenRun.exists_of_any
    (x := agentAt dctcpSetup (fresh dctcpSetup) timedInputs 4)
    (p := fun a => decide (a.tRtxcur = 9 / 1000)) (by decide +kernel)
  obtain ⟨-, -, follows⟩ := agentAt_timer dctcpSetup timedInputs 4 a rfl (by decide +kernel)
    (by decide +kernel) reached
  rw [decide_eq_true_eq] at timeout
  rcases follows 1 5 dctcpSetup_estimating timedInputs_measured with first | ⟨inTime, -⟩
  · have initial : dctcpSetup.rtxcurInit = 1 / 100 := rfl
    rw [timeout, initial] at first
    norm_num at first
  · exact ⟨a, reached, timeout, inTime⟩

end Saps.Tcp
