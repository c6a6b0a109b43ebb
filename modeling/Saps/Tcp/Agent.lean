import Mathlib.Data.Rat.Defs
import Mathlib.Algebra.Order.Ring.Rat

/-!
# Data of the TCP sender

The fields of `TcpAgent` and `Sack1TcpAgent` that the congestion control reads
and writes. Doubles are exact rationals, but for the fraction that FlowBender compares
with its threshold, and `int`s are unbounded. A flag that the source only tests against
zero is a boolean.
-/
namespace Saps.Tcp

/-- `wnd_option_`: how the window grows outside slow start. -/
inductive WndOption
  | perWindow
  | standard
  | constantRate
  | awndSquared
  | awndLinear
  | rttLinear
  | binomial
  | highSpeed
deriving DecidableEq, Repr

/-- `wnd_init_option_`: a static initial window, or the one of the Internet draft. -/
inductive WndInitOption
  | static
  | draft
deriving DecidableEq, Repr

/-- `last_cwnd_action_`; `none` is the 0 that `reset()` stores. -/
inductive CwndAction
  | none
  | dupack
  | timeout
  | ecn
deriving DecidableEq, Repr

/-- The bits of `slowdown(int how)`. -/
structure Close where
  ssthreshHalf : Bool := false
  cwndHalf : Bool := false
  cwndRestart : Bool := false
  cwndInit : Bool := false
  cwndOne : Bool := false
  threeQuarterSsthresh : Bool := false
  cwndHalfWay : Bool := false
  cwndHalfWithMin : Bool := false
  tcpIdle : Bool := false
  noOutstandingData : Bool := false
  ssthreshDctcp : Bool := false
  cwndDctcp : Bool := false
deriving DecidableEq, Repr

/-- `CLOSE_CWND_DCTCP|CLOSE_SSTHRESH_DCTCP`. -/
def Close.dctcp : Close := { cwndDctcp := true, ssthreshDctcp := true }

/-- `CLOSE_SSTHRESH_HALF|CLOSE_CWND_HALF`. -/
def Close.half : Close := { ssthreshHalf := true, cwndHalf := true }

/-- Why `output()` sends a packet. -/
inductive Reason
  | normal
  | timeout
  | dupack
  | partialAck
deriving DecidableEq, Repr

/-- What `output()` writes into the headers of a packet. -/
structure DataPacket where
  seqno : Int
  reason : Reason
  size : Int
  ts : ℚ
  tsEcho : ℚ
  ect : Bool
  ecnecho : Bool
  congAction : Bool
deriving DecidableEq, Repr

/-- What the sender reads from an ACK. `qsAppRate` is the `app_rate` of a
Quick-Start response whose headers pass the checks of `processQuickStart()`. -/
structure Ack where
  seqno : Int
  ts : ℚ := 0
  tsEcho : ℚ := 0
  ecnecho : Bool := false
  congAction : Bool := false
  noTs : Bool := false
  sackArea : List (Int × Int) := []
  qsAppRate : Option Int := none
deriving DecidableEq, Repr

/-- The variables bound on the agent from Tcl, with the library's defaults. -/
structure TcpConfig where
  wnd : ℚ := 1000000
  wndInit : ℚ := 2
  wndInitOption : WndInitOption := .static
  syn : Bool := true
  maxConnects : Int := -1
  wndOption : WndOption := .standard
  wndConst : ℚ := 4
  wndTh : ℚ := 2 / 1000
  decreaseNum : ℚ := 1 / 2
  increaseNum : ℚ := 1
  kParameter : ℚ := 0
  lParameter : ℚ := 1
  overhead : ℚ := 0
  ecn : Bool := false
  oldEcn : Bool := false
  dctcp : Bool := false
  dctcpAlpha : ℚ := 0
  dctcpG : ℚ := 625 / 10000
  bugfixSs : Bool := true
  size : Int := 1000
  tcpipBaseHdrSize : Int := 40
  tsOptionSize : Int := 10
  useHeaders : Bool := true
  bugFix : Bool := true
  tsOption : Bool := false
  tsResetRTO : Bool := false
  slowStartRestart : Bool := true
  restartBugfix : Bool := true
  tcpTick : ℚ := 1 / 1000
  maxrto : ℚ := 60
  minrto : ℚ := 1 / 100
  srttInit : ℚ := 0
  rttvarInit : ℚ := 12
  rtxcurInit : ℚ := 1 / 100
  srttBits : Nat := 3
  rttvarBits : Nat := 2
  rttvarExp : Nat := 2
  timerfix : Bool := true
  rfc2988 : Bool := true
  bootTime : ℚ := 0
  maxcwnd : Int := 0
  maxburst : Int := 0
  aggressiveMaxburst : Bool := true
  numdupacks : Int := 3
  numdupacksFrac : Int := -1
  singledup : Bool := true
  limTransmitFix : Bool := false
  precisionReduce : Bool := true
  oldCode : Bool := false
  partialAck : Bool := false
  delayGrowth : Bool := true
  setCWRonRetransmit : Bool := true
  controlIncrease : Bool := false
  lowWindow : ℚ := 38
  highWindow : ℚ := 83000
  highP : ℚ := 1 / 10000000
  highDecrease : ℚ := 1 / 10
  maxSsthresh : Int := 0
  cwndRange : Int := 0
  qsEnabled : Bool := false
  rateRequest : Int := 0
  qsRequestMode : Int := 1
  qsRtt : Int := 50
  qsThresh : Int := 4
  tcpQsRecovery : Bool := true
  frtoEnabled : Bool := false
  sfrtoEnabled : Bool := false
  spuriousResponse : Int := 1
  defttl : Int := 32
  flowBender : Bool := false
  flowBenderT : ℚ := 0
  flowBenderN : Int := 1

/-- The C library's real functions, which only the binomial and the high-speed
variants call. -/
structure Libm where
  pow : ℚ → ℚ → ℚ
  log : ℚ → ℚ
  exp : ℚ → ℚ

/-- `ScoreBoardRQ`, the reassembly queue of SACKed segments. -/
structure ScoreBoard (σ : Type) where
  empty : σ
  clearScoreBoard : σ → σ
  updateScoreBoard : Int → Ack → σ → σ
  checkUpdate : σ → Bool
  isChanged : σ → Bool
  getNextRetran : σ → Int × σ
  getNextUnacked : Int → σ → Int × σ
  markRetran : Int → σ → σ

/-- A sender's parameters, with the two libraries it is linked against. -/
structure Setup (σ : Type) extends TcpConfig where
  libm : Libm
  board : ScoreBoard σ

/-- What a handler did, in the order it did it; the sender itself keeps no such list. -/
inductive Entry
  /-- `output()` handed a packet to the network. -/
  | sent (p : DataPacket)
  /-- `update_dctcp_alpha()` counted an ACK for `acked` packets. -/
  | counted (seqno acked : Int) (ecnbit : Bool)
  /-- `update_dctcp_alpha()` moved the estimate to `alpha`. -/
  | alphaUpdate (seqno marked total : Int) (alpha : ℚ)
  /-- `slowdown(how)` found `windowd()` at `win` and left these windows. -/
  | slowedDown (how : Close) (win cwnd : ℚ) (ssthresh : Int)
  /-- `ecn()` cut the window for an ACK while `maxseq_` was `maxseq`. -/
  | ecnReaction (seqno maxseq : Int)
  /-- An ACK ended a fast recovery. -/
  | recoveryExit (seqno : Int)
  /-- `spurious_timeout()` took a retransmission timeout back. -/
  | spuriousTimeout
  /-- The retransmission timer expired with `t_seqno_` at `tSeqno`. -/
  | rto (tSeqno maxseq : Int)
deriving DecidableEq, Repr

/-- The state the congestion feedback turns on, with the history of what was done. -/
structure Ledger where
  recover : Int
  maxseq : Int
  lastCwndAction : CwndAction
  dctcpMaxseq : Int
  dctcpAlphaUpdateSeq : Int
  dctcpMarked : Int
  dctcpTotal : Int
  dctcpAlpha : ℚ
  entries : List Entry

structure Sequence where
  tSeqno : Int
  curseq : Int
  highestAck : Int
  prevHighestAck : Int
  lastAck : Int
  dupacks : Int
  closed : Bool
  lastreset : ℚ
  synConnects : Int

structure CongestionWindow where
  cwnd : ℚ
  ssthresh : Int
  count : Int
  fcnt : ℚ
  awnd : ℚ
  wUsed : Int
  firstDecrease : Bool
  decreaseNum : ℚ
  wndInit : ℚ
  wndInitOption : WndInitOption
  hstcpCwndLast : ℚ
  hstcpIncreaseLast : ℚ
  frto : Int
  pipePrev : Int
  congAction : Bool
  ecnBurst : Bool
  ecnBackoff : Bool
  ect : Bool

structure RoundTrip where
  tRtt : Int
  tSrtt : Int
  tRttvar : Int
  tBackoff : Int
  tRtxcur : ℚ
  rttActive : Bool
  rttSeq : Int
  rttTs : ℚ
  tsPeer : ℚ
  tsEcho : ℚ

/-- Which timers are `TIMER_PENDING`. -/
structure Timers where
  rtxPending : Bool
  delsndPending : Bool
  flBndrPending : Bool

structure Recovery (σ : Type) where
  timeout : Bool
  fastrecov : Bool
  pipe : Int
  nextPkt : Int
  firstpartial : Bool
  scb : σ

structure QuickStart where
  qsRequested : Bool
  qsApproved : Bool
  qsWindow : Int
  qsCwnd : Int

structure FlowBender where
  defttl : Int
  markedAckPktsF : Int
  totalAckPkts : Int
  numRTTsCongested : Int

structure Counters where
  ndatapack : Nat
  ndatabytes : Int
  nackpack : Nat
  nrexmit : Nat
  nrexmitpack : Nat
  nrexmitbytes : Int
  necnresponses : Nat
  ncwndcuts : Nat
  ncwndcuts1 : Nat

/-- The state of a `Sack1TcpAgent`. -/
structure Agent (σ : Type) extends Ledger, Sequence, CongestionWindow, RoundTrip, Timers,
    Recovery σ, QuickStart, FlowBender, Counters

variable {σ : Type}

def Ledger.record (e : Entry) (l : Ledger) : Ledger := { l with entries := l.entries ++ [e] }

def Agent.record (e : Entry) (a : Agent σ) : Agent σ :=
  { a with toLedger := a.toLedger.record e }

/-- A C cast from `double` to `int`. -/
def toInt (q : ℚ) : Int := q.num.tdiv q.den

end Saps.Tcp
