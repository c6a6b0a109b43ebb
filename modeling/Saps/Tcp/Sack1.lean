import Saps.Tcp.Output
import Saps.Library.DrivenRun
import Saps.Library.NearestEven

/-!
# The SACK sender

`Sack1TcpAgent`: its ACK handler, its timeouts, fast recovery and the loop that
sends, and the runs of a sender under ACKs, timers and the application.
-/
namespace Saps.Tcp

variable {σ : Type} (S : Setup σ)

/-- Why a step of a run does not exist. -/
inductive Fault
  /-- The loop of `send_much()` was granted too few turns. -/
  | sending
  /-- The timer that should expire is not pending. -/
  | timerIdle
deriving DecidableEq, Repr

/-- `acked_bytes`, in packets; one for an ACK that acknowledges nothing new. -/
def ackedBytes (ack : Ack) (a : Agent σ) : Int :=
  if ack.seqno - a.highestAck ≤ 0 then 1 else ack.seqno - a.highestAck

def countAck (ack : Ack) (a : Agent σ) : Agent σ :=
  let acked := ackedBytes ack a
  { a.record (.counted ack.seqno acked ack.ecnecho) with
    dctcpTotal := a.dctcpTotal + acked
    totalAckPkts := a.totalAckPkts + acked
    dctcpMarked := if ack.ecnecho then a.dctcpMarked + acked else a.dctcpMarked
    markedAckPktsF := if ack.ecnecho then a.markedAckPktsF + acked else a.markedAckPktsF }

/-- The barrier was passed: the marked fraction goes into the estimate and the counts restart. -/
def moveAlpha (seqno : Int) (a : Agent σ) : Agent σ :=
  let tempAlpha : ℚ := if a.dctcpTotal > 0 then a.dctcpMarked / a.dctcpTotal else 0
  let alpha := (1 - S.dctcpG) * a.dctcpAlpha + S.dctcpG * tempAlpha
  { a.record (.alphaUpdate seqno a.dctcpMarked a.dctcpTotal alpha) with
    dctcpAlphaUpdateSeq := a.dctcpMaxseq
    dctcpAlpha := alpha
    dctcpMarked := 0
    dctcpTotal := 0 }

/-- `update_dctcp_alpha()`, called before `highest_ack_` reflects the ACK. -/
def updateDctcpAlpha (ack : Ack) (a : Agent σ) : Agent σ :=
  let a := countAck ack a
  if ack.seqno > a.dctcpAlphaUpdateSeq then moveAlpha S ack.seqno a else a

/-- The double nearest to `q`, within the range of the exponents. -/
def double (q : ℚ) : ℚ := NearestEven.nearest 53 q

/-- FlowBender's epoch: enough congested ones in a row change the TTL, and with it the path. -/
def checkCongestionFB (a : Agent σ) : Agent σ :=
  let fractionMarked : ℚ :=
    if a.totalAckPkts > 0 then double (a.markedAckPktsF / a.totalAckPkts) else 0
  let a :=
    if a.totalAckPkts > 0 ∧ fractionMarked > S.flowBenderT then
      if a.numRTTsCongested + 1 ≥ S.flowBenderN then
        { a with defttl := a.defttl + 1, numRTTsCongested := 0 }
      else { a with numRTTsCongested := a.numRTTsCongested + 1 }
    else { a with numRTTsCongested := 0 }
  { a with totalAckPkts := 0, markedAckPktsF := 0, flBndrPending := true }

/-! ### Sending -/

/-- What a turn of the loop found to send, and the window it goes on with. -/
structure Pick (σ : Type) where
  agent : Agent σ
  segment : Option Int
  win : Int

/-- A hole of the scoreboard if there is one, else the next segment in sequence. -/
def pickSegment (win : Int) (a : Agent σ) : Pick σ :=
  let (hole, scb) := S.board.getNextRetran a.scb
  let a := { a with scb }
  if hole = -1 then
    -- in fast recovery the pipe limits new data, and only the advertised window here
    let room := if a.fastrecov then toInt S.wnd else win
    if a.tSeqno ≤ a.highestAck + room ∧ a.tSeqno < a.curseq then
      ⟨{ a with tSeqno := a.tSeqno + 1 }, some a.tSeqno, win⟩
    else ⟨a, none, win⟩
  else if a.recover > 0 ∧ hole ≤ a.highestAck + toInt S.wnd then
    let a := { a with scb := S.board.markRetran hole a.scb }
    ⟨a, some hole, window S a⟩
  else ⟨a, none, win⟩

/-- The pipe is open and there is application data to send. -/
def maySend (win : Int) (a : Agent σ) : Bool :=
  (if a.fastrecov then decide (a.pipe < toInt a.cwnd) else decide (a.tSeqno ≤ a.lastAck + win)) &&
    decide (a.lastAck + 1 < a.curseq)

def transmit (seqno : Int) (reason : Reason) (now : ℚ) (a : Agent σ) : Agent σ :=
  let a := output S seqno reason now a
  { a with
    tSeqno := if a.tSeqno ≤ seqno then seqno + 1 else a.tSeqno
    pipe := a.pipe + 1 }

/-- The loop of `send_much()`, for the given number of turns. -/
def sendLoop (force : Bool) (reason : Reason) (now : ℚ) :
    Nat → Int → Int → Agent σ → Except Fault (Agent σ)
  | 0, _, _, _ => .error .sending
  | turns + 1, npacket, win, a =>
    if maySend win a then
      if S.overhead = 0 ∨ force then
        let pick := pickSegment S win a
        match pick.segment with
        | none => .ok pick.agent
        | some seqno =>
          let a := transmit S seqno reason now pick.agent
          -- Quick-Start paces its packets with the delayed-send timer
          if a.qsApproved then .ok { a with delsndPending := true }
          else if S.maxburst ≠ 0 ∧ npacket + 1 = S.maxburst then .ok a
          else sendLoop force reason now turns (npacket + 1) pick.win a
      -- with an overhead every packet waits for the timer
      else if ¬a.delsndPending then .ok { a with delsndPending := true }
      else if S.maxburst ≠ 0 ∧ npacket = S.maxburst then .ok a
      else sendLoop force reason now turns npacket win a
    else .ok a

def sendMuch (turns : Nat) (force : Bool) (reason : Reason) (now : ℚ) (a : Agent σ) :
    Except Fault (Agent σ) :=
  if ¬force ∧ a.delsndPending then .ok a
  else sendLoop S force reason now turns 0 (window S a) a

/-! ### Duplicate ACKs and fast recovery -/

/-- The packets that have not left the pipe when fast recovery begins. -/
def pipeEstimate (a : Agent σ) : Int :=
  if S.singledup ∧ S.limTransmitFix then a.maxseq - a.highestAck - 1
  else a.maxseq - a.highestAck - numdupacks S a.cwnd

def enterFastRecovery (pipe : Int) (a : Agent σ) : Agent σ :=
  let a := resetRtxTimer S true false a
  { a with
    pipe
    fastrecov := true
    scb := S.board.markRetran (a.highestAck + 1) a.scb }

/-- The window was already cut for ECN in this window of data. -/
def recoverAfterEcn (now : ℚ) (a : Agent σ) : Agent σ :=
  let a := { a with lastCwndAction := .dupack }
  -- a plain sender has been cut by `ecn()` already; DCTCP cut less than by half
  let a := if S.dctcp then slowdown S .half a else a
  let a := enterFastRecovery S (pipeEstimate S a) a
  output S (a.lastAck + 1) .dupack now a

def sackAction (now : ℚ) (a : Agent σ) : Agent σ :=
  let a := { a with recover := a.maxseq }
  let pipe := if S.oldCode then toInt a.cwnd - numdupacks S a.cwnd else pipeEstimate S a
  let a := enterFastRecovery S pipe a
  match lossQuickStart S now a with
  | (a, true) => a
  | (a, false) =>
    let a := slowdown S .half { a with lastCwndAction := .dupack }
    output S (a.lastAck + 1) .dupack now a

def dupackAction (now : ℚ) (a : Agent σ) : Agent σ :=
  let recovered := a.highestAck > a.recover
  if recovered ∨ (¬S.bugFix ∧ ¬S.ecn) ∨ (S.bugfixSs ∧ a.highestAck = 0) then
    sackAction S now a
  else if S.ecn ∧ a.lastCwndAction = .ecn then recoverAfterEcn S now a
  -- no second fast retransmit in one window of data
  else if S.bugFix then a
  else sackAction S now a

/-- One of the two packets sent for a partial ACK. -/
def resendHole (now : ℚ) (a : Agent σ) : Agent σ :=
  let (getNext, scb) := S.board.getNextUnacked a.nextPkt a.scb
  let a := { a with
    scb
    nextPkt := if getNext > a.nextPkt then getNext else a.nextPkt }
  let a := { a with tSeqno := if a.tSeqno < a.nextPkt then a.nextPkt else a.tSeqno }
  let a := output S a.nextPkt .partialAck now a
  { a with scb := S.board.markRetran a.nextPkt a.scb, nextPkt := a.nextPkt + 1 }

def partialAckAction (now : ℚ) (a : Agent σ) : Agent σ :=
  let a :=
    if a.nextPkt < a.highestAck + 1 then { a with nextPkt := a.highestAck + 1 } else a
  resendHole S now (resendHole S now a)

/-- Whether a SACK block of the ACK covers numbers between `seqlo` and `seqhi`. -/
def isSacked (ack : Ack) (seqlo seqhi : Int) : Bool :=
  ack.sackArea.any fun (sleft, sright) =>
    decide (sright > seqlo ∧ sright ≤ seqhi) || decide (sleft ≥ seqlo ∧ sleft < seqhi) ||
      decide (sleft < seqlo ∧ sright > seqhi)

/-! ### The ACK handler -/

def recvNew (ack : Ack) (now : ℚ) (a : Agent σ) : Agent σ :=
  let a := recvNewackHelper S ack now { a with firstpartial := false }
  let a := { a with timeout := false, scb := S.board.clearScoreBoard a.scb }
  if a.lastAck = 0 ∧ S.delayGrowth then { a with cwnd := initialWindow S a } else a

def updateBoard (ack : Ack) (a : Agent σ) : Agent σ :=
  { a with scb := S.board.updateScoreBoard a.highestAck ack a.scb }

def countDupack (now : ℚ) (a : Agent σ) : Agent σ :=
  if S.board.checkUpdate a.scb then
    let a := { a with dupacks := a.dupacks + 1 }
    -- the third duplicate ACK enters fast recovery, the ones before may let new data out
    if a.dupacks = numdupacks S a.cwnd then dupackAction S now a
    else if a.dupacks < numdupacks S a.cwnd ∧ S.singledup then sendOne S now a
    else a
  else a

/-- SACK-based F-RTO: the timeout was spurious if only data sent before it is acknowledged. -/
def judgeTimeout (ack : Ack) (a : Agent σ) : Agent σ :=
  if S.sfrtoEnabled ∧ a.frto = 2 then
    if S.board.isChanged a.scb ∧ ¬isSacked ack a.recover a.maxseq then spuriousTimeout S a
    -- a genuine timeout goes back to what was lost
    else { a with tSeqno := a.highestAck + 1, cwnd := a.frto, frto := 0, dupacks := 0 }
  else a

def recvNormal (ack : Ack) (now : ℚ) (a : Agent σ) : Agent σ :=
  if ack.seqno > a.lastAck then recvNew S ack now a
  else if ack.seqno < a.lastAck then a
  else if ¬a.timeout then judgeTimeout S ack (countDupack S now (updateBoard S ack a))
  else a

/-- An ACK at or past `recover_` ends fast recovery. -/
def exitRecovery (ack : Ack) (now : ℚ) (a : Agent σ) : Agent σ :=
  let a := { a.record (.recoveryExit ack.seqno) with recover := 0, fastrecov := false }
  let a := closeIfDone (newack S ack now a)
  { a with timeout := false, scb := S.board.clearScoreBoard a.scb }

def recvPartial (ack : Ack) (now : ℚ) (a : Agent σ) : Agent σ :=
  let a := updateBoard S ack { a with highestAck := ack.seqno }
  if S.partialAck then
    let a := partialAckAction S now a
    -- gives back what the ACK took from the pipe
    let a := { a with pipe := a.pipe + 1 }
    -- only the first partial ACK restarts the timer
    if a.firstpartial then a
    else { newtimer ack a with tBackoff := 1, firstpartial := true }
  else { newtimer ack { a with pipe := a.pipe - 1 } with tBackoff := 1 }

def recvRecovering (ack : Ack) (now : ℚ) (a : Agent σ) : Agent σ :=
  -- every ACK says that a packet has left the pipe
  let a := { a with pipe := a.pipe - 1 }
  if ack.seqno ≥ a.recover then exitRecovery S ack now a
  else if ack.seqno > a.highestAck then recvPartial S ack now a
  else if ¬a.timeout then
    let a := updateBoard S ack a
    if S.board.checkUpdate a.scb ∧ a.dupacks > 0 then { a with dupacks := a.dupacks + 1 } else a
  else a

def beginAck (ack : Ack) (a : Agent σ) : Agent σ :=
  let a := if a.qsApproved ∧ ack.seqno > a.lastAck then endQuickStart S a else a
  if a.qsRequested then processQuickStart S ack a else a

def estimate (ack : Ack) (a : Agent σ) : Agent σ :=
  let a := { a with nackpack := a.nackpack + 1 }
  if S.dctcp then updateDctcpAlpha S ack a else a

/-- The congestion feedback of an ACK, before the ACK is checked for staleness. -/
def hearFeedback (ack : Ack) (a : Agent σ) : Agent σ :=
  let a := estimate S ack a
  if ack.ecnecho ∧ S.ecn then ecn S ack.seqno a else a

def recv (turns : Nat) (ack : Ack) (now : ℚ) (a : Agent σ) : Except Fault (Agent σ) :=
  let a := beginAck S ack a
  -- an ACK of a previous incarnation of the connection is dropped
  if ack.ts < a.lastreset then .ok a
  else
    let a := hearFeedback S ack a
    let validAck := ack.seqno ≥ a.lastAck
    if ¬a.fastrecov then
      let a := recvNormal S ack now a
      if (validAck ∨ S.aggressiveMaxburst) ∧ a.dupacks = 0 then sendMuch S turns false .normal now a
      else .ok a
    else
      let a := recvRecovering S ack now a
      if validAck ∨ S.aggressiveMaxburst then sendMuch S turns false .normal now a
      else .ok a

/-! ### Timeouts -/

def rerouteOnTimeout (a : Agent σ) : Agent σ :=
  if S.flowBender then
    { a with
      defttl := a.defttl + 1
      numRTTsCongested := 0
      totalAckPkts := 0
      markedAckPktsF := 0
      flBndrPending := true }
  else a

/-- The part of `Sack1TcpAgent::timeout` before it calls `TcpAgent::timeout`. -/
def beginTimeout (a : Agent σ) : Agent σ :=
  let a := { a.record (.rto a.tSeqno a.maxseq) with
    -- the barrier restarts at the next number to send, which may have been sent before
    dctcpAlphaUpdateSeq := a.tSeqno
    dctcpMaxseq := a.tSeqno }
  let a := rerouteOnTimeout S a
  { a with
    dupacks := 0
    fastrecov := false
    timeout := true
    lastAck := if a.highestAck > a.lastAck then a.highestAck else a.lastAck
    recover := a.maxseq
    scb := S.board.clearScoreBoard a.scb }

/-- The first packet was lost, so no larger initial window is used. -/
def shrinkInitialWindow (a : Agent σ) : Agent σ :=
  if a.highestAck = -1 then
    match a.wndInitOption with
    | .draft => { a with wndInitOption := .static }
    | .static => if a.wndInit > 1 ∧ S.bugfixSs then { a with wndInit := 1 } else a
  else a

def startFrto (a : Agent σ) : Agent σ :=
  if S.frtoEnabled ∨ S.sfrtoEnabled then { a with frto := 1 } else a

def closeOnTimeout (a : Agent σ) : Agent σ :=
  let a := shrinkInitialWindow S { a with recover := a.maxseq }
  -- nothing is outstanding, so nothing was lost
  if a.highestAck = a.maxseq ∧ S.restartBugfix then
    slowdown S { cwndOne := true, noOutstandingData := true } a
  -- in recovery from a recent ECN `ssthresh_` is not cut again
  else if a.highestAck < a.recover ∧ a.lastCwndAction = .ecn then
    startFrto S (slowdown S { cwndOne := true } a)
  else
    let a := { a with nrexmit := a.nrexmit + 1, lastCwndAction := .timeout }
    startFrto S (slowdown S { ssthreshHalf := true, cwndRestart := true } a)

/-- The window before the timeout, for the Eifel response. -/
def saveWindow (a : Agent σ) : Agent σ :=
  let a := { a with frto := 0 }
  { a with
    pipePrev := if window S a > a.ssthresh then window S a else a.ssthresh
    cwnd := if a.cwnd < 1 then 1 else a.cwnd
    qsApproved := false }

/-- `TcpAgent::timeout` up to the point where it sends again. -/
def closeWindow (a : Agent σ) : Agent σ :=
  let a := saveWindow S a
  let a :=
    if a.highestAck = a.maxseq ∧ ¬S.slowStartRestart then a else closeOnTimeout S a
  let backoff := !(decide (a.highestAck = a.maxseq) && S.restartBugfix)
  let a := resetRtxTimer S false backoff a
  { a with lastCwndAction := .timeout }

/-- F-RTO is not allowed if a fast recovery was underway. -/
def overruleFrto (noFrto : Bool) (a : Agent σ) : Agent σ :=
  if noFrto then { a with frto := 0 } else a

def timeoutRtx (turns : Nat) (now : ℚ) (a : Agent σ) : Except Fault (Agent σ) := do
  let b ← sendMuch S turns false .timeout now (closeWindow S (beginTimeout S a))
  pure (overruleFrto a.fastrecov b)

def timeoutDelsnd (turns : Nat) (now : ℚ) (a : Agent σ) : Except Fault (Agent σ) := do
  let b ← sendMuch S turns true .timeout now a
  pure (overruleFrto a.fastrecov b)

def timeoutFlowBender (a : Agent σ) : Agent σ :=
  overruleFrto a.fastrecov (checkCongestionFB S a)

/-! ### The application -/

def tcpMaxseq : Int := 1073741824

def sendmsg (turns : Nat) (nbytes : Int) (now : ℚ) (a : Agent σ) : Except Fault (Agent σ) :=
  let curseq :=
    -- -1 stands for an endless transfer
    if nbytes = -1 ∧ a.curseq ≤ tcpMaxseq then tcpMaxseq
    else a.curseq + (nbytes.tdiv S.size + if nbytes.tmod S.size ≠ 0 then 1 else 0)
  sendMuch S turns false .normal now { a with curseq }

def advanceby (turns : Nat) (delta : Int) (now : ℚ) (a : Agent σ) : Except Fault (Agent σ) :=
  let a := { a with curseq := a.curseq + delta }
  let a := if delta > 0 then { a with closed := false } else a
  sendMuch S turns false .normal now a

/-! ### Runs -/

inductive Stimulus
  | ack (ack : Ack)
  | rtxExpires
  | delsndExpires
  | flBndrExpires
  | sendmsg (nbytes : Int)
  | advanceby (delta : Int)
deriving DecidableEq, Repr

/-- A stimulus at a time, with the turns that the loop of `send_much()` may take. -/
structure Input where
  now : ℚ
  stimulus : Stimulus
  turns : Nat
deriving DecidableEq, Repr

def respond (i : Input) (a : Agent σ) : Except Fault (Agent σ) :=
  match i.stimulus with
  | .ack ack => recv S i.turns ack i.now a
  | .rtxExpires =>
    if a.rtxPending then timeoutRtx S i.turns i.now { a with rtxPending := false }
    else .error .timerIdle
  | .delsndExpires =>
    if a.delsndPending then timeoutDelsnd S i.turns i.now { a with delsndPending := false }
    else .error .timerIdle
  | .flBndrExpires =>
    if a.flBndrPending then .ok (timeoutFlowBender S { a with flBndrPending := false })
    else .error .timerIdle
  | .sendmsg nbytes => sendmsg S i.turns nbytes i.now a
  | .advanceby delta => advanceby S i.turns delta i.now a

def step (i : Input) (a : Agent σ) : Except Fault (Agent σ × Unit) :=
  (respond S i a).map (·, ())

/-- The agent before input `k` of a run. -/
def agentAt (start : Agent σ) (inputs : Nat → Input) (k : Nat) : Except Fault (Agent σ) :=
  DrivenRun.stateAt (step S) start inputs k

/-- The agent as its constructor and `reset()` leave it. -/
def fresh : Agent σ where
  recover := 0
  maxseq := -1
  lastCwndAction := .none
  dctcpMaxseq := 0
  dctcpAlphaUpdateSeq := 0
  dctcpMarked := 0
  dctcpTotal := 0
  dctcpAlpha := S.dctcpAlpha
  entries := []
  tSeqno := 0
  curseq := 0
  highestAck := -1
  prevHighestAck := -1
  lastAck := -1
  dupacks := 0
  closed := false
  lastreset := 0
  synConnects := 0
  cwnd := if S.syn ∧ S.delayGrowth then 1
    else match S.wndInitOption with
      | .static => S.wndInit
      | .draft => if S.size ≤ 1095 then 4 else if S.size < 2190 then 3 else 2
  ssthresh := if S.maxSsthresh > 0 ∧ S.maxSsthresh < toInt S.wnd then S.maxSsthresh
    else toInt S.wnd
  count := 0
  fcnt := 0
  awnd := S.wndInit / 2
  wUsed := 0
  firstDecrease := true
  decreaseNum := S.decreaseNum
  wndInit := S.wndInit
  wndInitOption := S.wndInitOption
  hstcpCwndLast := 0
  hstcpIncreaseLast := 0
  frto := 0
  pipePrev := 0
  congAction := false
  ecnBurst := false
  ecnBackoff := false
  ect := false
  tRtt := 0
  tSrtt := toInt (S.srttInit / S.tcpTick) <<< S.srttBits
  tRttvar := toInt (S.rttvarInit / S.tcpTick) <<< S.rttvarBits
  tBackoff := 1
  tRtxcur := S.rtxcurInit
  rttActive := false
  rttSeq := -1
  rttTs := 0
  tsPeer := 0
  tsEcho := 0
  rtxPending := false
  delsndPending := false
  flBndrPending := false
  timeout := false
  fastrecov := false
  pipe := -1
  nextPkt := 0
  firstpartial := false
  scb := S.board.empty
  qsRequested := false
  qsApproved := false
  qsWindow := 0
  qsCwnd := 0
  defttl := S.defttl
  markedAckPktsF := 0
  totalAckPkts := 0
  numRTTsCongested := 0
  ndatapack := 0
  ndatabytes := 0
  nackpack := 0
  nrexmit := 0
  nrexmitpack := 0
  nrexmitbytes := 0
  necnresponses := 0
  ncwndcuts := 0
  ncwndcuts1 := 0

/-! ### The turns of the sending loop -/

variable {S} {a b : Agent σ}

/-- What each packet of the loop keeps, and the delayed-send timer, the whole loop keeps. -/
theorem sendLoop_invariant {I : Agent σ → Prop} {force : Bool} {reason : Reason} {now : ℚ}
    {turns : Nat} {npacket win : Int} (picked : ∀ c win, I c → I (pickSegment S win c).agent)
    (transmitted : ∀ c seqno, I c → I (transmit S seqno reason now c))
    (paced : ∀ c, I c → I { c with delsndPending := true }) (initial : I a)
    (sent : sendLoop S force reason now turns npacket win a = .ok b) : I b := by
  -- one packet a turn, then the rest of the turns
  induction turns generalizing npacket win a with
  | zero => cases sent
  | succ turns ih =>
    simp only [sendLoop] at sent
    by_cases may : maySend win a
    · by_cases immediate : S.overhead = 0 ∨ force
      · rw [if_pos may, if_pos immediate] at sent
        have looked := picked a win initial
        cases segment : (pickSegment S win a).segment with
        | none =>
          simp only [segment] at sent
          cases sent
          exact looked
        | some seqno =>
          have out := transmitted _ seqno looked
          simp only [segment] at sent
          split_ifs at sent
          · cases sent
            exact paced _ out
          · cases sent
            exact out
          · exact ih out sent
      · -- with an overhead the packet waits for the delayed-send timer
        rw [if_pos may, if_neg immediate] at sent
        split_ifs at sent
        · cases sent
          exact initial
        · exact ih initial sent
        · cases sent
          exact paced a initial
    · rw [if_neg may] at sent
      cases sent
      exact initial

theorem sendMuch_invariant {I : Agent σ → Prop} {turns : Nat} {force : Bool} {reason : Reason}
    {now : ℚ} (picked : ∀ c win, I c → I (pickSegment S win c).agent)
    (transmitted : ∀ c seqno, I c → I (transmit S seqno reason now c))
    (paced : ∀ c, I c → I { c with delsndPending := true }) (initial : I a)
    (sent : sendMuch S turns force reason now a = .ok b) : I b := by
  simp only [sendMuch] at sent
  split_ifs at sent
  · cases sent
    exact initial
  · exact sendLoop_invariant picked transmitted paced initial sent

/-- A loop that has come to its end ends in the same way if it may take more turns. -/
theorem sendLoop_more {force : Bool} {reason : Reason} {now : ℚ} {turns more : Nat}
    {npacket win : Int} (le : turns ≤ more)
    (sent : sendLoop S force reason now turns npacket win a = .ok b) :
    sendLoop S force reason now more npacket win a = .ok b := by
  induction turns generalizing more npacket win a with
  | zero => cases sent
  | succ turns ih =>
    obtain ⟨more, rfl⟩ : ∃ m, more = m + 1 := Nat.exists_eq_succ_of_ne_zero (by omega)
    simp only [sendLoop] at sent ⊢
    -- the turn itself is the same, and only the rest of the loop has more turns
    by_cases may : maySend win a
    · by_cases paced : S.overhead = 0 ∨ force
      · rw [if_pos may, if_pos paced] at sent ⊢
        cases segment : (pickSegment S win a).segment with
        | none => simpa only [segment] using sent
        | some seqno =>
          simp only [segment] at sent ⊢
          split_ifs at sent ⊢
          · exact sent
          · exact sent
          · exact ih (by omega) sent
      · rw [if_pos may, if_neg paced] at sent ⊢
        split_ifs at sent ⊢
        · exact sent
        · exact ih (by omega) sent
        · exact sent
    · rw [if_neg may] at sent ⊢
      exact sent

theorem sendMuch_more {force : Bool} {reason : Reason} {now : ℚ} {turns more : Nat}
    (le : turns ≤ more) (sent : sendMuch S turns force reason now a = .ok b) :
    sendMuch S more force reason now a = .ok b := by
  simp only [sendMuch] at sent ⊢
  split_ifs at sent ⊢
  · exact sent
  · exact sendLoop_more le sent

/-- A handler's answer does not depend on the turns granted, as long as they suffice. -/
theorem respond_more {i : Input} {more : Nat} (le : i.turns ≤ more)
    (answer : respond S i a = .ok b) : respond S { i with turns := more } a = .ok b := by
  simp only [respond] at answer ⊢
  cases stimulus : i.stimulus with
  | ack ack =>
    simp only [stimulus, recv] at answer ⊢
    split_ifs at answer ⊢
    all_goals first
      | exact answer
      | exact sendMuch_more le answer
  | rtxExpires =>
    simp only [stimulus, timeoutRtx] at answer ⊢
    split_ifs at answer ⊢
    obtain ⟨c, sent, done⟩ := DrivenRun.bind_eq_ok.mp answer
    exact DrivenRun.bind_eq_ok.mpr ⟨c, sendMuch_more le sent, done⟩
  | delsndExpires =>
    simp only [stimulus, timeoutDelsnd] at answer ⊢
    split_ifs at answer ⊢
    obtain ⟨c, sent, done⟩ := DrivenRun.bind_eq_ok.mp answer
    exact DrivenRun.bind_eq_ok.mpr ⟨c, sendMuch_more le sent, done⟩
  | flBndrExpires => simpa only [stimulus] using answer
  | sendmsg nbytes =>
    simp only [stimulus, sendmsg] at answer ⊢
    exact sendMuch_more le answer
  | advanceby delta =>
    simp only [stimulus, advanceby] at answer ⊢
    exact sendMuch_more le answer

/-- A run is the same for every grant of turns that lets it go on. -/
theorem agentAt_more {start : Agent σ} {inputs : Nat → Input} {more : Nat → Nat} {k : Nat}
    (le : ∀ j, (inputs j).turns ≤ more j) (reached : agentAt S start inputs k = .ok a) :
    agentAt S start (fun j => { inputs j with turns := more j }) k = .ok a := by
  induction k generalizing a with
  | zero => exact reached
  | succ k ih =>
    obtain ⟨s, o, before, answer⟩ := DrivenRun.stateAt_succ_iff.mp reached
    have responded := respond_more (le k) (DrivenRun.map_unit_eq_ok.mp answer)
    exact DrivenRun.stateAt_succ_iff.mpr ⟨s, o, ih before, DrivenRun.map_unit_eq_ok.mpr responded⟩

end Saps.Tcp
