import Mathlib.Logic.Relation
import Saps.Tcp.Connection

/-!
# A transfer as an abstract machine

What a sender may do to its sequence numbers, its timers and its scoreboard,
whatever its windows and its estimates look like. Every handler of the sender is
a path of such acts.
-/
namespace Saps.Tcp

variable {σ : Type}

/-- The state that decides what is sent and which timers run; `sent` is what the network was
handed so far. -/
structure Transfer (σ : Type) where
  tSeqno : Int
  curseq : Int
  highestAck : Int
  lastAck : Int
  lastreset : ℚ
  maxseq : Int
  recover : Int
  closed : Bool
  rtxPending : Bool
  delsndPending : Bool
  fastrecov : Bool
  qsRequested : Bool
  qsApproved : Bool
  scb : σ
  sent : List DataPacket

def Agent.transfer (a : Agent σ) : Transfer σ where
  tSeqno := a.tSeqno
  curseq := a.curseq
  highestAck := a.highestAck
  lastAck := a.lastAck
  lastreset := a.lastreset
  maxseq := a.maxseq
  recover := a.recover
  closed := a.closed
  rtxPending := a.rtxPending
  delsndPending := a.delsndPending
  fastrecov := a.fastrecov
  qsRequested := a.qsRequested
  qsApproved := a.qsApproved
  scb := a.scb
  sent := sentPackets a.entries

/-- The application calls its agent. -/
def Stimulus.isCall : Stimulus → Bool
  | .sendmsg _ | .advanceby _ => true
  | _ => false

/-- The application hands over more data, and takes none back. -/
def Stimulus.Grows : Stimulus → Prop
  | .sendmsg nbytes => -1 ≤ nbytes
  | .advanceby delta => 0 ≤ delta
  | _ => True

namespace Transfer

variable (S : Setup σ)

/-- One call of `output()` for `seqno`: a packet for the network, unless the SYNs were too many. -/
inductive Outputs (seqno : Int) (c : Transfer σ) : Transfer σ → Prop
  | handed (p : DataPacket) (number : p.seqno = seqno)
      (size : p.size = S.size ∨ p.size = S.size + headersize S ∨ p.size = S.tcpipBaseHdrSize)
      (curseq : Int)
      (data : curseq = c.curseq ∨ seqno = 0 ∧ c.maxseq = -1 ∧ curseq = c.curseq + 1)
      (asked : Bool) (may : asked = true → S.qsEnabled = true) :
      Outputs seqno c { c with
        curseq
        qsRequested := c.qsRequested || asked
        rtxPending := true
        maxseq := if seqno > c.maxseq then seqno else c.maxseq
        sent := c.sent ++ [p] }
  | aborted (limited : S.maxConnects > 0) :
      Outputs seqno c { c with curseq := 0, rtxPending := true }

/-- `window` promises nothing for an advertised window below zero, where C rounds up. -/
def Allowed (seqno highestAck : Int) : Prop := 0 ≤ S.wnd → (seqno : ℚ) ≤ highestAck + S.wnd

def hole (c : Transfer σ) : Int := (S.board.getNextRetran c.scb).1

/-- What the loop of `send_much()` and `send_one()` do. -/
inductive SendAct (c : Transfer σ) : Transfer σ → Prop
  | look : SendAct c { c with scb := (S.board.getNextRetran c.scb).2 }
  | new {d : Transfer σ} (data : c.tSeqno < c.curseq) (allowed : Allowed S c.tSeqno c.highestAck)
      (out : Outputs S c.tSeqno { c with tSeqno := c.tSeqno + 1 } d) : SendAct c d
  | hole {d : Transfer σ} (found : hole S c ≠ -1) (allowed : Allowed S (hole S c) c.highestAck)
      (out : Outputs S (hole S c) { c with
        tSeqno := if c.tSeqno ≤ hole S c then hole S c + 1 else c.tSeqno
        scb := S.board.markRetran (hole S c) (S.board.getNextRetran c.scb).2 } d) : SendAct c d
  | pace (slow : S.overhead ≠ 0 ∨ c.qsApproved = true) : SendAct c { c with delsndPending := true }

/-- `newack()`, with the timer it leaves behind. -/
def newack (seqno : Int) (pending : Bool) (c : Transfer σ) : Transfer σ :=
  { c with
    highestAck := seqno
    lastAck := seqno
    tSeqno := if c.tSeqno < seqno + 1 then seqno + 1 else c.tSeqno
    rtxPending := pending }

/-- What F-RTO may make of the next number and of `recover_` after a new ACK. -/
def FollowsFrto (seqno : Int) (c : Transfer σ) (tSeqno recover : Int) : Prop :=
  tSeqno = c.tSeqno ∧ recover = c.recover ∨
    tSeqno = c.recover + 1 ∧ recover = c.recover ∨
    tSeqno = c.tSeqno ∧ recover = seqno - 1

/-- When `newtimer()` may cancel the retransmission timer. -/
def TimerKept (seqno : Int) (pending : Bool) (c : Transfer σ) : Prop :=
  pending = true ∨ S.timerfix = false ∧ c.maxseq ≤ seqno

def updateBoard (ack : Ack) (c : Transfer σ) : Transfer σ :=
  { c with scb := S.board.updateScoreBoard c.highestAck ack c.scb }

/-- Fast recovery up to `recover`, with the segment that is sent again marked. -/
def enterFastRecovery (recover : Int) (c : Transfer σ) : Transfer σ :=
  { c with
    recover
    fastrecov := true
    rtxPending := true
    scb := S.board.markRetran (c.highestAck + 1) c.scb }

inductive Act (stimulus : Stimulus) (c : Transfer σ) : Transfer σ → Prop
  | sending {d : Transfer σ} (act : SendAct S c d) : Act stimulus c d
  | update (ack : Ack) (heard : stimulus = .ack ack) :
      Act stimulus c (updateBoard S ack c)
  | clear : Act stimulus c { c with scb := S.board.clearScoreBoard c.scb }
  /-- The duplicate ACK that enters fast recovery. -/
  | fastRetransmit {d : Transfer σ} (ack : Ack) (heard : stimulus = .ack ack)
      (duplicate : ack.seqno = c.lastAck) (normal : c.fastrecov = false)
      (news : S.board.checkUpdate (updateBoard S ack c).scb = true) (recover : Int)
      (point : recover = c.maxseq ∨ recover = c.recover ∧ c.highestAck ≤ c.recover)
      (out : Outputs S (c.lastAck + 1) (enterFastRecovery S recover (updateBoard S ack c)) d) :
      Act stimulus c d
  | newack (ack : Ack) (heard : stimulus = .ack ack) (new : c.lastAck < ack.seqno)
      (normal : c.fastrecov = false) (pending : Bool) (kept : TimerKept S ack.seqno pending c)
      (tSeqno recover : Int)
      (frto : FollowsFrto ack.seqno (c.newack ack.seqno pending) tSeqno recover) :
      Act stimulus c { c.newack ack.seqno pending with tSeqno, recover }
  | exitRecovery (ack : Ack) (heard : stimulus = .ack ack) (recovering : c.fastrecov = true)
      (passed : c.recover ≤ ack.seqno) (pending : Bool) (kept : TimerKept S ack.seqno pending c) :
      Act stimulus c { c.newack ack.seqno pending with recover := 0, fastrecov := false }
  | finish (ack : Ack) (heard : stimulus = .ack ack) (done : c.curseq - 1 ≤ c.highestAck) :
      Act stimulus c { c with closed := true }
  | partialAck (ack : Ack) (heard : stimulus = .ack ack) (recovering : c.fastrecov = true)
      (new : c.highestAck < ack.seqno) (short : ack.seqno < c.recover) :
      Act stimulus c { c with
        highestAck := ack.seqno
        scb := S.board.updateScoreBoard ack.seqno ack c.scb }
  | newtimer (ack : Ack) (heard : stimulus = .ack ack) (reflected : c.highestAck = ack.seqno)
      (short : ack.seqno < c.recover) (pending : Bool)
      (kept : pending = true ∨ c.maxseq ≤ ack.seqno) :
      Act stimulus c { c with rtxPending := pending }
  /-- The two packets that `partial_ack_` sends for a partial ACK. -/
  | resend {d : Transfer σ} (enabled : S.partialAck = true) (seqno tSeqno : Int) (before after : σ)
      (out : Outputs S seqno { c with tSeqno, scb := before } d) :
      Act stimulus c { d with scb := after }
  | goBack : Act stimulus c { c with tSeqno := c.highestAck + 1 }
  | spuriousTimeout (enabled : S.sfrtoEnabled = true) :
      Act stimulus c { c with recover := c.highestAck - 1 }
  | ecn : Act stimulus c { c with recover := c.maxseq }
  | leaveQuickStart : Act stimulus c { c with qsApproved := false }
  | answerQuickStart (approved : Bool) (asked : c.qsRequested = true) :
      Act stimulus c { c with qsRequested := false, qsApproved := approved }
  | timeout : Act stimulus c { c with
      tSeqno := c.highestAck + 1
      lastAck := if c.highestAck > c.lastAck then c.highestAck else c.lastAck
      recover := c.maxseq
      rtxPending := true
      fastrecov := false
      qsApproved := false
      scb := S.board.clearScoreBoard c.scb }
  | delsndExpires : Act stimulus c { c with delsndPending := false }
  | offer (curseq : Int) (closed : Bool) (called : stimulus.isCall = true)
      (still : closed = true → c.closed = true)
      (more : stimulus.Grows → 1 < S.size → c.curseq ≤ curseq) :
      Act stimulus c { c with curseq, closed }

/-- Any number of acts one after the other, all in answer to one stimulus. -/
abbrev Acts (stimulus : Stimulus) : Transfer σ → Transfer σ → Prop :=
  Relation.ReflTransGen (Act S stimulus)

abbrev SendActs : Transfer σ → Transfer σ → Prop := Relation.ReflTransGen (SendAct S)

variable {S} {c d : Transfer σ} {stimulus : Stimulus}

theorem Acts.of_eq (same : d = c) : Acts S stimulus c d := same ▸ .refl

theorem SendActs.acts (path : SendActs S c d) : Acts S stimulus c d :=
  Relation.ReflTransGen.mono (fun _ _ act => .sending act) _ _ path

/-- What every act keeps holds after any number of acts. -/
theorem Acts.invariant {I : Transfer σ → Prop} (initial : I c)
    (preserved : ∀ c d, I c → Act S stimulus c d → I d) (path : Acts S stimulus c d) : I d := by
  induction path with
  | refl => exact initial
  | tail _ act ih => exact preserved _ _ ih act

theorem SendActs.invariant {I : Transfer σ → Prop} (initial : I c)
    (preserved : ∀ c d, I c → SendAct S c d → I d) (path : SendActs S c d) : I d := by
  induction path with
  | refl => exact initial
  | tail _ act ih => exact preserved _ _ ih act

/-- `output()` does not know `t_seqno_`. -/
theorem Outputs.tSeqno {seqno : Int} (out : Outputs S seqno c d) : d.tSeqno = c.tSeqno := by
  cases out <;> rfl

theorem Outputs.highestAck {seqno : Int} (out : Outputs S seqno c d) :
    d.highestAck = c.highestAck := by
  cases out <;> rfl

theorem Outputs.recover {seqno : Int} (out : Outputs S seqno c d) : d.recover = c.recover := by
  cases out <;> rfl

theorem Outputs.fastrecov {seqno : Int} (out : Outputs S seqno c d) :
    d.fastrecov = c.fastrecov := by
  cases out <;> rfl

theorem Outputs.scb {seqno : Int} (out : Outputs S seqno c d) : d.scb = c.scb := by
  cases out <;> rfl

theorem Outputs.withSeq {seqno : Int} (out : Outputs S seqno c d) (tSeqno : Int) :
    Outputs S seqno { c with tSeqno } { d with tSeqno } := by
  cases out with
  | handed p number size curseq data asked may =>
    exact .handed (c := { c with tSeqno }) p number size curseq data asked may
  | aborted limited => exact .aborted (c := { c with tSeqno }) limited

end Transfer

end Saps.Tcp
