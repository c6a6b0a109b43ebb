import Saps.Tcp.Reaction

/-!
# Sending one packet

`TcpAgent::output` without its load balancing, which picks the uplink and
touches nothing here, and the functions that send a single packet.
-/
namespace Saps.Tcp

variable {σ : Type} (S : Setup σ)

def headersize : Int := S.tcpipBaseHdrSize + if S.tsOption then S.tsOptionSize else 0

/-- The rate that a Quick-Start request on the SYN asks for, in KBps. -/
def qsRequest (a : Agent σ) : Int :=
  let dataout := ((a.curseq - a.maxseq - 1) * (S.size + headersize S)).tdiv 1024
  if S.qsRequestMode = 1 ∧ S.qsRtt > 0 then
    let needed := (dataout * 1000).tdiv S.qsRtt
    let rate := if needed < S.rateRequest then needed else S.rateRequest
    if a.curseq - a.maxseq - 1 < S.qsThresh then 0 else rate
  else S.rateRequest

/-- CWR is reported once, on the next packet that may carry it. -/
def carriesCwr (seqno : Int) (a : Agent σ) : Bool :=
  a.congAction && (!decide (seqno < a.maxseq) || S.setCWRonRetransmit)

/-- What the initial SYN does to the agent. -/
def startSyn (a : Agent σ) : Agent σ :=
  { a with
    flBndrPending := a.flBndrPending || S.flowBender
    curseq := if a.maxseq = -1 then a.curseq + 1 else a.curseq
    synConnects := a.synConnects + 1 }

def requestQuickStart (a : Agent σ) : Agent σ :=
  if S.qsEnabled ∧ qsRequest S a > 0 then { a with qsRequested := true } else a

/-- The state after a packet with `databytes` of data was handed to the network. -/
def countSent (p : DataPacket) (databytes : Int) (now : ℚ) (a : Agent σ) : Agent σ :=
  let fresh := p.seqno > a.maxseq
  -- only new data is timed, one segment at a time
  let retimed := fresh ∧ ¬a.rttActive
  { a.record (.sent p) with
    ndatapack := a.ndatapack + 1
    ndatabytes := a.ndatabytes + databytes
    nrexmitpack := if fresh then a.nrexmitpack else a.nrexmitpack + 1
    nrexmitbytes := if fresh then a.nrexmitbytes else a.nrexmitbytes + databytes
    rttActive := a.rttActive || decide fresh
    rttSeq := if retimed ∧ p.seqno > a.rttSeq then p.seqno else a.rttSeq
    rttTs := if retimed ∧ p.seqno > a.rttSeq then now else a.rttTs
    rtxPending := true
    dctcpMaxseq := if S.dctcp ∧ p.seqno > a.dctcpMaxseq then p.seqno else a.dctcpMaxseq
    maxseq := if fresh then p.seqno else a.maxseq }

def output (seqno : Int) (reason : Reason) (now : ℚ) (a : Agent σ) : Agent σ :=
  let p : DataPacket := {
    seqno, reason
    size := if seqno = 0 then if S.syn then S.tcpipBaseHdrSize else S.size
      else if S.useHeaders then S.size + headersize S else S.size
    ts := now
    tsEcho := a.tsPeer
    -- the SYN asks for ECN with ECN-Echo, and DCTCP sends it ECN-capable
    ect := S.ecn && (seqno ≠ 0 || S.dctcp)
    ecnecho := S.ecn && seqno = 0
    congAction := carriesCwr S seqno a }
  let a := if carriesCwr S seqno a then { a with congAction := false } else a
  if seqno = 0 then
    let a := if S.syn then startSyn S a else a
    -- too many SYNs abort the connection and nothing is sent
    if S.syn ∧ S.maxConnects > 0 ∧ a.synConnects > S.maxConnects then
      { a with curseq := 0, rtxPending := true }
    else countSent S p (if S.syn then 0 else S.size) now (requestQuickStart S a)
  else countSent S p S.size now a

/-- A new packet on a first or second duplicate ACK, when the windows permit. -/
def sendOne (now : ℚ) (a : Agent σ) : Agent σ :=
  if (a.tSeqno : ℚ) ≤ a.highestAck + S.wnd ∧ a.tSeqno < a.curseq ∧
      (a.tSeqno : ℚ) ≤ a.highestAck + a.cwnd + a.dupacks then
    let a := output S a.tSeqno .normal now a
    { a with tSeqno := a.tSeqno + 1 }
  else a

/-- A loss in the Quick-Start window restarts slow start instead of fast recovery. -/
def lossQuickStart (now : ℚ) (a : Agent σ) : Agent σ × Bool :=
  if a.qsWindow ≠ 0 ∧ S.tcpQsRecovery then
    let a := slowdown S { cwndInit := true } a
    let a := { a with qsWindow := 0 }
    (output S (a.lastAck + 1) .dupack now a, true)
  else (a, false)

variable {S} {a : Agent σ}

theorem countSent_quiet (p : DataPacket) (databytes : Int) (now : ℚ) :
    Quiet S a (countSent S p databytes now a) :=
  .single (.sent p)

@[simp] theorem requestQuickStart_ledger : (requestQuickStart S a).toLedger = a.toLedger := by
  simp only [requestQuickStart]
  split <;> rfl

theorem output_quiet (seqno : Int) (reason : Reason) (now : ℚ) :
    Quiet S a (output S seqno reason now a) := by
  simp only [output]
  split_ifs
  -- either the connection was given up, or one packet goes out
  all_goals first
    | exact .refl
    | refine .trans (QuietActs.of_eq ?_) (countSent_quiet _ _ _)
      simp [startSyn]

theorem sendOne_quiet (now : ℚ) : Quiet S a (sendOne S now a) := by
  simp only [sendOne]
  split_ifs
  · exact output_quiet a.tSeqno .normal now
  · exact .refl

theorem lossQuickStart_quiet (now : ℚ) : Quiet S a (lossQuickStart S now a).1 := by
  simp only [lossQuickStart]
  split_ifs
  · apply (slowdown_quiet { cwndInit := true }).trans
    refine .trans (QuietActs.of_eq ?_) (output_quiet _ .dupack now)
    dsimp only
  · exact .refl

end Saps.Tcp
