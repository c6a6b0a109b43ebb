import Saps.Tcp.Window
import Saps.Tcp.Feedback

/-!
# How the sender reacts to ACKs and congestion signals

`ecn`, `newack`, `recv_newack_helper`, `spurious_timeout` and the Quick-Start
functions of `TcpAgent`, up to the point where packets are sent.
-/
namespace Saps.Tcp

variable {σ : Type} (S : Setup σ)

/-- At a window of one packet the second marked ACK in a row backs the timer off. -/
def backOffEcn (a : Agent σ) : Agent σ :=
  if a.cwnd ≤ 1 then
    if a.ecnBackoff then { a with toRoundTrip := rttBackoff S a.toRoundTrip }
    else { a with ecnBackoff := true }
  else { a with ecnBackoff := false }

/-- `ecn()`, called before `highest_ack_` reflects the current ACK. -/
def ecn (seqno : Int) (a : Agent σ) : Agent σ :=
  -- no reaction to an ECN-Echo from before the last one, unless a timeout came between
  if seqno > a.recover ∨ a.lastCwndAction = .timeout then
    let a := { a.record (.ecnReaction seqno a.maxseq) with
      recover := a.maxseq
      lastCwndAction := .ecn }
    let a := slowdown S (if S.dctcp then .dctcp else .half) (backOffEcn S a)
    { a with necnresponses := a.necnresponses + 1 }
  else a

/-- Backoff does not end on an ECN-Echo that arrives at a window of one packet. -/
def endBackoff (ack : Ack) (a : Agent σ) : Agent σ :=
  if ¬a.ect ∨ ¬a.ecnBackoff ∨ ¬ack.ecnecho then { a with tBackoff := 1, ecnBackoff := false }
  else a

/-- The timestamp sample of `newack()`. -/
def sampleTimestamp (ack : Ack) (now : ℚ) (a : Agent σ) : Agent σ :=
  if S.tsOption then
    let a := { a with tsEcho := ack.tsEcho }
    let a := { a with toRoundTrip := rttUpdate S (now - ack.tsEcho) now a.toRoundTrip }
    if S.tsResetRTO then endBackoff ack a else a
  else a

/-- The sample of the segment that is being timed. -/
def sampleSegment (ack : Ack) (now : ℚ) (a : Agent σ) : Agent σ :=
  if a.rttActive ∧ ack.seqno ≥ a.rttSeq then
    let a := endBackoff ack a
    let a := { a with rttActive := false }
    if S.tsOption then a
    else { a with toRoundTrip := rttUpdate S (now - a.rttTs) now a.toRoundTrip }
  else a

def newack (ack : Ack) (now : ℚ) (a : Agent σ) : Agent σ :=
  let a := if S.timerfix then a else newtimer ack a
  let a := { a with
    dupacks := 0
    lastAck := ack.seqno
    -- the F-RTO tests look back at the ACK before this one
    prevHighestAck := a.highestAck
    highestAck := ack.seqno }
  let a := if a.tSeqno < a.lastAck + 1 then { a with tSeqno := a.lastAck + 1 } else a
  let a := if ack.noTs then a else sampleSegment S ack now (sampleTimestamp S ack now a)
  let a := if S.timerfix then newtimer ack a else a
  { a with awnd := a.awnd * (1 - S.wndTh) + S.wndTh * a.cwnd }

def networkLimited (a : Agent σ) : Bool := decide (a.tSeqno > a.prevHighestAck + window S a)

/-- `spurious_timeout()`: the windows and `recover_` go back to before the timeout. -/
def spuriousTimeout (a : Agent σ) : Agent σ :=
  { a.record .spuriousTimeout with
    frto := 0
    cwnd :=
      if S.spuriousResponse = 2 then a.ssthresh
      else if S.spuriousResponse = 3 then 1
      else (a.tSeqno - a.prevHighestAck : Int)
    ssthresh := a.pipePrev
    recover := a.highestAck - 1 }

def leaveQuickStartWindow (a : Agent σ) : Agent σ :=
  if a.qsWindow ≠ 0 ∧ a.highestAck ≥ a.qsWindow then { a with qsWindow := 0 } else a

/-- With `old_ecn_` the window also opens on the later ACKs of an ECN-Echo burst. -/
def openOnAck (ack : Ack) (a : Agent σ) : Agent σ :=
  if (¬a.ect ∨ ¬ack.ecnecho ∨ (S.oldEcn ∧ a.ecnBurst)) ∧
      (¬S.controlIncrease ∨ networkLimited S a) then opencwnd S a
  else a

def followEcnBurst (ack : Ack) (a : Agent σ) : Agent σ :=
  if a.ect then
    { a with
      ecnBackoff := a.ecnBackoff && ack.ecnecho
      ecnBurst := ack.ecnecho }
  -- the first ACK that echoes the handshake turns ECN on
  else if ack.ecnecho ∧ ¬ack.congAction then { a with ect := true }
  else a

/-- `finish()` runs a Tcl procedure and leaves the agent alone. -/
def closeIfDone (a : Agent σ) : Agent σ :=
  if a.highestAck ≥ a.curseq - 1 ∧ ¬a.closed then { a with closed := true } else a

/-- The F-RTO steps on the first and the second new ACK after a timeout. -/
def followFrto (a : Agent σ) : Agent σ :=
  if a.frto = 1 then
    if ((a.recover + 1 : Int) : ℚ) ≥ a.highestAck + S.wnd ∨ a.recover + 1 ≥ a.curseq then
      { a with frto := 0 }
    else if a.highestAck = a.recover then { a with frto := 0 }
    -- go on with new data and wait for the next ACK to judge the timeout
    else { a with tSeqno := a.recover + 1, frto := 2 }
  else if a.frto = 2 then spuriousTimeout S a
  else a

def recvNewackHelper (ack : Ack) (now : ℚ) (a : Agent σ) : Agent σ :=
  let a := leaveQuickStartWindow (newack S ack now a)
  let a := followEcnBurst ack (openOnAck S ack a)
  followFrto S (closeIfDone a)

/-! ### Quick-Start -/

/-- Leaving Quick-Start shrinks the window to what was used. -/
def endQuickStart (a : Agent σ) : Agent σ :=
  let a := { a with qsApproved := false, qsCwnd := 0, qsWindow := a.maxseq }
  let newCwnd : Int := a.maxseq - a.lastAck
  if newCwnd > 1 ∧ (newCwnd : ℚ) < a.cwnd then
    if (newCwnd : ℚ) < initialWindow S a then { a with cwnd := initialWindow S a }
    else { a with cwnd := newCwnd }
  else a

def processQuickStart (ack : Ack) (a : Agent σ) : Agent σ :=
  let a := { a with qsRequested := false, qsApproved := false }
  -- no answer that fits the request means that it was denied
  match ack.qsAppRate with
  | none => a
  | some appRate =>
    if appRate > initialWindow S a then { a with qsCwnd := appRate, qsApproved := true } else a

/-! ### What the ledger sees -/

/-- Agent `b` comes from agent `a` without touching the estimator. -/
abbrev Quiet (a b : Agent σ) : Prop := QuietActs S.dctcp a.toLedger b.toLedger

variable {S} {a : Agent σ}

theorem slowdown_cut : DctcpCut a.dctcpAlpha (windowd S a) (slowdown S .dctcp a).cwnd
    (slowdown S .dctcp a).ssthresh :=
  ⟨rfl, rfl⟩

theorem slowdown_quiet (how : Close) : Quiet S a (slowdown S how a) := by
  rw [Quiet, slowdown_ledger]
  apply Relation.ReflTransGen.single
  apply QuietAct.slowedDown
  -- only a cut by both DCTCP bits is bound to the estimate
  rintro rfl
  exact slowdown_cut

@[simp] theorem backOffEcn_ledger : (backOffEcn S a).toLedger = a.toLedger := by
  simp only [backOffEcn]
  split_ifs <;> rfl

theorem ecn_quiet (seqno : Int) : Quiet S a (ecn S seqno a) := by
  simp only [ecn]
  split
  next due =>
    apply (Relation.ReflTransGen.single (.ecnReaction seqno due)).trans
    refine .trans (QuietActs.of_eq ?_) (slowdown_quiet _)
    rw [backOffEcn_ledger]
    rfl
  next => exact .refl

@[simp] theorem endBackoff_ledger (ack : Ack) : (endBackoff ack a).toLedger = a.toLedger := by
  simp only [endBackoff]
  split <;> rfl

@[simp] theorem sampleTimestamp_ledger (ack : Ack) (now : ℚ) :
    (sampleTimestamp S ack now a).toLedger = a.toLedger := by
  simp only [sampleTimestamp]
  split_ifs <;> simp

@[simp] theorem sampleSegment_ledger (ack : Ack) (now : ℚ) :
    (sampleSegment S ack now a).toLedger = a.toLedger := by
  simp only [sampleSegment]
  split_ifs <;> simp

@[simp] theorem newack_ledger (ack : Ack) (now : ℚ) :
    (newack S ack now a).toLedger = a.toLedger := by
  simp only [newack]
  split_ifs <;> simp

@[simp] theorem leaveQuickStartWindow_ledger :
    (leaveQuickStartWindow a).toLedger = a.toLedger := by
  simp only [leaveQuickStartWindow]
  split <;> rfl

@[simp] theorem openOnAck_ledger (ack : Ack) : (openOnAck S ack a).toLedger = a.toLedger := by
  simp only [openOnAck]
  split <;> simp

@[simp] theorem followEcnBurst_ledger (ack : Ack) :
    (followEcnBurst ack a).toLedger = a.toLedger := by
  simp only [followEcnBurst]
  split_ifs <;> rfl

@[simp] theorem closeIfDone_ledger : (closeIfDone a).toLedger = a.toLedger := by
  simp only [closeIfDone]
  split <;> rfl

theorem spuriousTimeout_quiet : Quiet S a (spuriousTimeout S a) :=
  .single (.spuriousTimeout _)

theorem followFrto_quiet : Quiet S a (followFrto S a) := by
  simp only [followFrto]
  split_ifs
  · exact .refl
  · exact .refl
  · exact .refl
  · exact spuriousTimeout_quiet
  · exact .refl

theorem recvNewackHelper_quiet (ack : Ack) (now : ℚ) :
    Quiet S a (recvNewackHelper S ack now a) := by
  refine .trans (QuietActs.of_eq ?_) followFrto_quiet
  simp

@[simp] theorem endQuickStart_ledger : (endQuickStart S a).toLedger = a.toLedger := by
  simp only [endQuickStart]
  split_ifs <;> rfl

@[simp] theorem processQuickStart_ledger (ack : Ack) :
    (processQuickStart S ack a).toLedger = a.toLedger := by
  simp only [processQuickStart]
  cases ack.qsAppRate with
  | none => rfl
  | some appRate =>
    dsimp only
    split <;> rfl

end Saps.Tcp
