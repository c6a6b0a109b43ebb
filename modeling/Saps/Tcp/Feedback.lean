import Mathlib.Logic.Relation
import Saps.Tcp.Agent

/-!
# The congestion feedback as an abstract machine

What a sender may do to its ledger, whatever its windows, timers and queues look
like. Every handler of the sender is a path of such acts.
-/
namespace Saps.Tcp

namespace Ledger

variable (dctcp : Bool) (g : ℚ) (l : Ledger)

def sent (p : DataPacket) : Ledger :=
  { l.record (.sent p) with
    dctcpMaxseq := if dctcp ∧ p.seqno > l.dctcpMaxseq then p.seqno else l.dctcpMaxseq
    maxseq := if p.seqno > l.maxseq then p.seqno else l.maxseq }

def ecnReaction (seqno : Int) : Ledger :=
  { l.record (.ecnReaction seqno l.maxseq) with
    recover := l.maxseq
    lastCwndAction := .ecn }

def recoveryExit (seqno : Int) : Ledger := { l.record (.recoveryExit seqno) with recover := 0 }

def spuriousTimeout (recover : Int) : Ledger := { l.record .spuriousTimeout with recover }

def rto (tSeqno : Int) : Ledger :=
  { l.record (.rto tSeqno l.maxseq) with
    recover := l.maxseq
    lastCwndAction := .timeout
    dctcpMaxseq := tSeqno
    dctcpAlphaUpdateSeq := tSeqno }

def counted (seqno acked : Int) (ecnbit : Bool) : Ledger :=
  { l.record (.counted seqno acked ecnbit) with
    dctcpTotal := l.dctcpTotal + acked
    dctcpMarked := if ecnbit then l.dctcpMarked + acked else l.dctcpMarked }

/-- The fraction of marked packets that `update_dctcp_alpha()` calls `temp_alpha`. -/
def markedFraction : ℚ := if l.dctcpTotal > 0 then l.dctcpMarked / l.dctcpTotal else 0

def newAlpha : ℚ := (1 - g) * l.dctcpAlpha + g * l.markedFraction

def alphaUpdate (seqno : Int) : Ledger :=
  { l.record (.alphaUpdate seqno l.dctcpMarked l.dctcpTotal (l.newAlpha g)) with
    dctcpAlphaUpdateSeq := l.dctcpMaxseq
    dctcpAlpha := l.newAlpha g
    dctcpMarked := 0
    dctcpTotal := 0 }

end Ledger

/-- A DCTCP cut from `win`: the fraction `1 - alpha / 2` of it, with the two floors. -/
structure DctcpCut (alpha win cwnd : ℚ) (ssthresh : Int) : Prop where
  cwnd_eq : cwnd = if (1 - alpha / 2) * win < 1 then 1 else (1 - alpha / 2) * win
  ssthresh_eq : ssthresh = if toInt ((1 - alpha / 2) * win) < 2 then 2
    else toInt ((1 - alpha / 2) * win)

/-- The acts that leave the estimator alone. -/
inductive QuietAct (dctcp : Bool) (l : Ledger) : Ledger → Prop
  | sent (p : DataPacket) : QuietAct dctcp l (l.sent dctcp p)
  | slowedDown (how : Close) (win cwnd : ℚ) (ssthresh : Int)
      (cut : how = .dctcp → DctcpCut l.dctcpAlpha win cwnd ssthresh) :
      QuietAct dctcp l (l.record (.slowedDown how win cwnd ssthresh))
  | ecnReaction (seqno : Int) (due : l.recover < seqno ∨ l.lastCwndAction = .timeout) :
      QuietAct dctcp l (l.ecnReaction seqno)
  | dupack : QuietAct dctcp l { l with lastCwndAction := .dupack }
  | enterRecovery : QuietAct dctcp l { l with recover := l.maxseq }
  | recoveryExit (seqno : Int) (passed : l.recover ≤ seqno) :
      QuietAct dctcp l (l.recoveryExit seqno)
  | spuriousTimeout (recover : Int) : QuietAct dctcp l (l.spuriousTimeout recover)
  | rto (tSeqno : Int) : QuietAct dctcp l (l.rto tSeqno)

inductive Act (dctcp : Bool) (g : ℚ) (l : Ledger) : Ledger → Prop
  | quiet {m : Ledger} (act : QuietAct dctcp l m) : Act dctcp g l m
  | counted (seqno acked : Int) (ecnbit : Bool) (pos : 1 ≤ acked) :
      Act dctcp g l (l.counted seqno acked ecnbit)
  | alphaUpdate (seqno acked : Int) (ecnbit : Bool) (pos : 1 ≤ acked)
      (passed : l.dctcpAlphaUpdateSeq < seqno) :
      Act dctcp g l ((l.counted seqno acked ecnbit).alphaUpdate g seqno)

/-- Any number of acts one after the other. -/
abbrev Acts (dctcp : Bool) (g : ℚ) : Ledger → Ledger → Prop := Relation.ReflTransGen (Act dctcp g)

abbrev QuietActs (dctcp : Bool) : Ledger → Ledger → Prop :=
  Relation.ReflTransGen (QuietAct dctcp)

def Entry.IsUpdate : Entry → Prop
  | .alphaUpdate _ _ _ _ => True
  | _ => False

instance : DecidablePred Entry.IsUpdate
  | .alphaUpdate _ _ _ _ => .isTrue trivial
  | .sent _ | .counted _ _ _ | .slowedDown _ _ _ _ | .ecnReaction _ _ | .recoveryExit _
  | .spuriousTimeout | .rto _ _ => .isFalse id

section

variable {dctcp : Bool} {l m : Ledger}

theorem QuietActs.of_eq (same : m = l) : QuietActs dctcp l m := same ▸ .refl

theorem QuietActs.acts {g : ℚ} (path : QuietActs dctcp l m) : Acts dctcp g l m :=
  Relation.ReflTransGen.mono (fun _ _ act => .quiet act) _ _ path

/-- What every act keeps holds after any number of acts. -/
theorem Acts.invariant {g : ℚ} {I : Ledger → Prop} (initial : I l)
    (preserved : ∀ l m, I l → Act dctcp g l m → I m) (path : Acts dctcp g l m) : I m := by
  induction path with
  | refl => exact initial
  | tail _ act ih => exact preserved _ _ ih act

theorem QuietActs.invariant {I : Ledger → Prop} (initial : I l)
    (preserved : ∀ l m, I l → QuietAct dctcp l m → I m) (path : QuietActs dctcp l m) : I m := by
  induction path with
  | refl => exact initial
  | tail _ act ih => exact preserved _ _ ih act

end

end Saps.Tcp
