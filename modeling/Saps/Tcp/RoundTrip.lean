import Saps.Tcp.Agent

/-!
# The retransmission timer and the round-trip estimate

`rtt_init`, `rtt_timeout`, `rtt_update`, `rtt_backoff` and the functions that set
and clear the timer. A one-way sender never sets `use_rtt_`.
-/
namespace Saps.Tcp

variable {σ : Type} (S : Setup σ)

def rttInit (r : RoundTrip) : RoundTrip :=
  { r with
    tRtt := 0
    tSrtt := toInt (S.srttInit / S.tcpTick) <<< S.srttBits
    tRttvar := toInt (S.rttvarInit / S.tcpTick) <<< S.rttvarBits
    tRtxcur := S.rtxcurInit
    tBackoff := 1 }

/-- The value the timer is set to; the source ends the program on a negative one. -/
def rttTimeout (r : RoundTrip) : ℚ :=
  let backedOff :=
    -- RFC 2988 clamps to the minimum before it backs off
    if S.rfc2988 then
      if r.tRtxcur < S.minrto then S.minrto * r.tBackoff else r.tRtxcur * r.tBackoff
    else
      let timeout := r.tRtxcur * r.tBackoff
      if timeout < S.minrto then S.minrto else timeout
  let capped := if backedOff > S.maxrto then S.maxrto else backedOff
  if capped < 2 * S.tcpTick then 2 * S.tcpTick else capped

/-- `fmod`, the remainder that keeps the sign of the dividend. -/
def fmod (x y : ℚ) : ℚ := x - y * toInt (x / y)

/-- Assignment to a `register short`. -/
def toShort (n : Int) : Int := Int.bmod n (2 ^ 16)

def rttUpdate (tao now : ℚ) (r : RoundTrip) : RoundTrip :=
  let sample :=
    if S.tsOption then toInt (tao / S.tcpTick + 1 / 2)
    else toInt ((tao + fmod (now - tao + S.bootTime) S.tcpTick) / S.tcpTick)
  let tRtt := if sample < 1 then 1 else sample
  let (tSrtt, tRttvar) :=
    -- `t_srtt_` is 8 times the estimate, `t_rttvar_` 4 times its deviation
    if r.tSrtt ≠ 0 then
      let delta := toShort (tRtt - r.tSrtt >>> S.srttBits)
      let tSrtt := if r.tSrtt + delta ≤ 0 then 1 else r.tSrtt + delta
      let delta := if delta < 0 then toShort (-delta) else delta
      let delta := toShort (delta - r.tRttvar >>> S.rttvarBits)
      (tSrtt, if r.tRttvar + delta ≤ 0 then 1 else r.tRttvar + delta)
    else (tRtt <<< S.srttBits, tRtt <<< (S.rttvarBits - 1))
  { r with
    tRtt, tSrtt, tRttvar
    tRtxcur := ((tRttvar <<< (S.rttvarExp + (S.srttBits - S.rttvarBits)) + tSrtt)
      >>> S.srttBits : Int) * S.tcpTick }

def rttBackoff (r : RoundTrip) : RoundTrip :=
  let tBackoff :=
    if r.tBackoff < 64 ∨ (S.rfc2988 = true ∧ rttTimeout S r < S.maxrto) then r.tBackoff <<< (1 : Nat)
    else r.tBackoff
  -- backed off this far, the estimate moves into the deviation
  if tBackoff > 8 then
    { r with tBackoff, tRttvar := r.tRttvar + r.tSrtt >>> S.srttBits, tSrtt := 0 }
  else { r with tBackoff }

/-! ### The timer -/

def setRtxTimer (a : Agent σ) : Agent σ := { a with rtxPending := true }

def cancelRtxTimer (a : Agent σ) : Agent σ := { a with rtxPending := false }

/-- `mild` is false for timeouts: then sending resumes one past the last packet acked. -/
def resetRtxTimer (mild backoff : Bool) (a : Agent σ) : Agent σ :=
  let a := if backoff then { a with toRoundTrip := rttBackoff S a.toRoundTrip } else a
  let a := setRtxTimer a
  let a := if mild then a else { a with tSeqno := a.highestAck + 1 }
  { a with rttActive := false }

def newtimer (ack : Ack) (a : Agent σ) : Agent σ :=
  if a.tSeqno > ack.seqno ∨ ack.seqno < a.maxseq ∨ a.cwnd < 1 then setRtxTimer a
  else cancelRtxTimer a

/-! ### None of this is on the ledger -/

variable {S} (a : Agent σ)

@[simp] theorem setRtxTimer_ledger : (setRtxTimer a).toLedger = a.toLedger := rfl

@[simp] theorem resetRtxTimer_ledger (mild backoff : Bool) :
    (resetRtxTimer S mild backoff a).toLedger = a.toLedger := by
  cases mild <;> cases backoff <;> rfl

@[simp] theorem newtimer_ledger (ack : Ack) : (newtimer ack a).toLedger = a.toLedger := by
  simp only [newtimer]
  split <;> rfl

end Saps.Tcp
