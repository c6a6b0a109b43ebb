import Saps.Tcp.ReliableDelivery

/-!
# A transfer can always be completed

Whatever the network has done so far, no state is a dead end: the retransmission
timer, the packet it sends and the ACK for it take the transfer forward.
-/
namespace Saps.Tcp

open Transfer

variable {σ : Type} {S : Setup σ} {K : SinkConfig} {laws : S.board.Laws} {a b : Agent σ}

/-- Packets go out as soon as the window allows, and the first window is not empty. -/
structure Setup.Prompt (S : Setup σ) : Prop where
  overhead : S.overhead = 0
  qsEnabled : S.qsEnabled = false
  timerfix : S.timerfix = true
  wndInit : 1 ≤ S.wndInit

/-! ### Nothing holds the sender back -/

/-- The retransmission timer is running once something was sent, and nothing delays a packet. -/
structure Ready (c : Transfer σ) : Prop where
  rtxPending : 0 ≤ c.maxseq → c.rtxPending = true
  delsndPending : c.delsndPending = false
  qsRequested : c.qsRequested = false
  qsApproved : c.qsApproved = false

theorem Ready.output {c d : Transfer σ} {seqno : Int} (ready : Ready c) (prompt : S.Prompt)
    (out : Outputs S seqno c d) : Ready d := by
  cases out with
  | aborted => exact { ready with rtxPending := fun _ => rfl }
  | handed p number size curseq data asked may =>
    have silent : asked = false := by
      cases asked with
      | false => rfl
      | true => exact absurd (prompt.qsEnabled.symm.trans (may rfl)) Bool.false_ne_true
    exact { ready with
      rtxPending := fun _ => rfl
      qsRequested := by dsimp only; rw [ready.qsRequested, silent]; rfl }

theorem Ready.withSeq {c : Transfer σ} (ready : Ready c) (tSeqno : Int) (scb : σ) :
    Ready { c with tSeqno, scb } :=
  { ready with }

theorem Transfer.SendAct.ready {c d : Transfer σ} (act : SendAct S c d) (prompt : S.Prompt)
    (ready : Ready c) : Ready d := by
  cases act with
  | look => exact ready.withSeq c.tSeqno _
  | new _ _ out => exact (ready.withSeq (c.tSeqno + 1) c.scb).output prompt out
  | hole _ _ out => exact (ready.withSeq _ _).output prompt out
  | pace slow =>
    rcases slow with overhead | approved
    · exact absurd prompt.overhead overhead
    · exact absurd (ready.qsApproved.symm.trans approved) Bool.false_ne_true

theorem Transfer.Act.ready {c d : Transfer σ} {stimulus : Stimulus}
    (act : Transfer.Act S stimulus c d) (plain : S.Plain) (prompt : S.Prompt)
    (orderly : Orderly laws c) (ready : Ready c) : Ready d := by
  have kept {seqno : Int} {pending : Bool} (kept : TimerKept S seqno pending c) :
      pending = true :=
    kept.resolve_right fun idle => absurd (idle.1.symm.trans prompt.timerfix) Bool.false_ne_true
  cases act with
  | sending act => exact act.ready prompt ready
  | fastRetransmit ack _ _ _ _ recover _ out =>
    have entered : Ready ((c.updateBoard S ack).enterFastRecovery S recover) :=
      { ready with rtxPending := fun _ => rfl }
    exact entered.output prompt out
  | resend enabled => exact absurd (plain.partialAck.symm.trans enabled) Bool.false_ne_true
  | newack _ _ _ _ _ timer | exitRecovery _ _ _ _ _ timer =>
    exact { ready with rtxPending := fun _ => kept timer }
  | newtimer ack heard reflected short pending timer =>
    -- a partial ACK leaves data below `recover_` unacknowledged
    have recover := orderly.recover_le
    exact { ready with rtxPending := fun started => timer.resolve_right (by
      have started : 0 ≤ c.maxseq := started
      omega) }
  | answerQuickStart approved asked =>
    exact absurd (ready.qsRequested.symm.trans asked) Bool.false_ne_true
  | leaveQuickStart => exact { ready with qsApproved := rfl }
  | timeout => exact { ready with rtxPending := fun _ => rfl, qsApproved := rfl }
  | delsndExpires => exact { ready with delsndPending := rfl }
  | update | clear | finish | partialAck | goBack | spuriousTimeout | ecn | offer =>
    exact { ready with }

theorem Transfer.Acts.ready {c d : Transfer σ} {stimulus : Stimulus}
    (path : Transfer.Acts S stimulus c d) (plain : S.Plain) (prompt : S.Prompt)
    (honest : stimulus.Honest c.maxseq) (orderly : Orderly laws c) (ready : Ready c) :
    Ready d := by
  suffices kept : Orderly laws d ∧ c.Extends stimulus d ∧ Ready d from kept.2.2
  refine path.invariant (I := fun d => Orderly laws d ∧ c.Extends stimulus d ∧ Ready d)
    ⟨orderly, .refl, ready⟩ ?_
  rintro d e ⟨before, extended, ready⟩ act
  have still : stimulus.Honest d.maxseq :=
    ⟨honest.1, fun ack heard => (honest.2 ack heard).mono extended.maxseq⟩
  exact ⟨act.orderly plain still before, extended.trans (act.extends plain before),
    act.ready plain prompt before ready⟩

/-! ### The sending loop ends -/

/-- No segment is known to have overtaken another, and the sender is not in fast recovery. -/
structure Clean (laws : S.board.Laws) (c : Transfer σ) : Prop where
  below : laws.Below c.scb 0
  normal : c.fastrecov = false

theorem Clean.hole {c : Transfer σ} (clean : Clean laws c) : hole S c = -1 :=
  (laws.hole clean.below).resolve_right fun inside => absurd inside.1 inside.2.not_ge

/-- Without holes only the next number can be picked. -/
theorem Clean.pick {win : Int} (clean : Clean laws a.transfer) :
    pickSegment S win a =
      if a.tSeqno ≤ a.highestAck + win ∧ a.tSeqno < a.curseq then
        ⟨{ a with scb := (S.board.getNextRetran a.scb).2, tSeqno := a.tSeqno + 1 },
          some a.tSeqno, win⟩
      else ⟨{ a with scb := (S.board.getNextRetran a.scb).2 }, none, win⟩ := by
  have none : (S.board.getNextRetran a.scb).1 = -1 := clean.hole
  have normal : a.fastrecov = false := clean.normal
  simp only [pickSegment, none, normal, ↓reduceIte, Bool.false_eq_true]

theorem Clean.transmit (clean : Clean laws a.transfer) (reason : Reason) (now : ℚ) :
    Clean laws (transmit S a.tSeqno reason now { a with
      scb := (S.board.getNextRetran a.scb).2, tSeqno := a.tSeqno + 1 }).transfer := by
  have out := @transmit_outputs σ S { a with
    scb := (S.board.getNextRetran a.scb).2, tSeqno := a.tSeqno + 1 } a.tSeqno reason now
  exact ⟨by rw [out.scb]; exact laws.getNextRetran clean.below,
    out.fastrecov.trans clean.normal⟩

/-- Without holes every turn sends the next number, until the window is full. -/
theorem sendLoop_ends (prompt : S.Prompt) (clean : Clean laws a.transfer) (force : Bool)
    (reason : Reason) (now : ℚ) (npacket win : Int) :
    ∃ turns b, sendLoop S force reason now turns npacket win a = .ok b := by
  -- induction on the room that the window leaves
  induction left : (a.highestAck + win + 1 - a.tSeqno).toNat generalizing a npacket with
  | zero =>
    refine ⟨1, ?_⟩
    simp only [sendLoop, prompt.overhead, true_or, ↓reduceIte, clean.pick]
    rw [if_neg (c := a.tSeqno ≤ a.highestAck + win ∧ a.tSeqno < a.curseq) (by omega)]
    split
    · exact ⟨_, rfl⟩
    · exact ⟨_, rfl⟩
  | succ left ih =>
    have out := @transmit_outputs σ S { a with
      scb := (S.board.getNextRetran a.scb).2, tSeqno := a.tSeqno + 1 } a.tSeqno reason now
    have highest := out.highestAck
    have number := out.tSeqno
    rw [if_neg (by simp)] at number
    obtain ⟨turns, b, sent⟩ := ih (clean.transmit reason now) (npacket + 1) (by
      simp only [Agent.transfer] at highest number
      rw [highest, number]
      omega)
    refine ⟨turns + 1, ?_⟩
    simp only [sendLoop, prompt.overhead, true_or, ↓reduceIte, clean.pick]
    by_cases due : a.tSeqno ≤ a.highestAck + win ∧ a.tSeqno < a.curseq
    · rw [if_pos due]
      dsimp only
      split_ifs
      · exact ⟨_, rfl⟩
      · exact ⟨_, rfl⟩
      · exact ⟨b, sent⟩
      · exact ⟨_, rfl⟩
    · rw [if_neg due]
      split
      · exact ⟨_, rfl⟩
      · exact ⟨_, rfl⟩

theorem sendMuch_ends (prompt : S.Prompt) (clean : Clean laws a.transfer) (force : Bool)
    (reason : Reason) (now : ℚ) :
    ∃ turns b, sendMuch S turns force reason now a = .ok b := by
  simp only [sendMuch]
  split
  · exact ⟨0, a, rfl⟩
  · exact sendLoop_ends prompt clean force reason now 0 _

/-! ### The next number is sent -/

/-- The entries that `output()` adds: one packet, since no connection request is given up. -/
theorem output_sent (plain : S.Plain) (seqno : Int) (reason : Reason) (now : ℚ) :
    ∃ p, p.seqno = seqno ∧ p.ts = now ∧
      sentPackets (output S seqno reason now a).entries = sentPackets a.entries ++ [p] := by
  have unlimited : ¬ S.maxConnects > 0 := plain.maxConnects.not_gt
  simp only [output, unlimited, false_and, and_false, ↓reduceIte]
  generalize cleared : (if carriesCwr S seqno a then { a with congAction := false } else a) = e
  have entries : e.entries = a.entries := by
    rw [← cleared]
    split <;> rfl
  rw [← entries]
  have requested (b : Agent σ) : (requestQuickStart S b).entries = b.entries := by
    simp only [requestQuickStart]
    split <;> rfl
  have counted (p : DataPacket) (databytes : Int) (b : Agent σ) :
      sentPackets (countSent S p databytes now b).entries = sentPackets b.entries ++ [p] :=
    sentPackets_sent b.entries p
  split_ifs
  · exact ⟨_, rfl, rfl, (counted _ _ _).trans (by rw [requested]; rfl)⟩
  · exact ⟨_, rfl, rfl, (counted _ _ _).trans (by rw [requested])⟩
  · exact ⟨_, rfl, rfl, counted _ _ _⟩
  · exact ⟨_, rfl, rfl, counted _ _ _⟩

theorem Transfer.SendActs.extends {c d : Transfer σ} (path : SendActs S c d) (plain : S.Plain)
    (stimulus : Stimulus) : c.Extends stimulus d :=
  path.invariant (I := fun d => c.Extends stimulus d) .refl
    fun _ _ extended act => extended.trans (act.extends plain stimulus)

/-- The window lets the next number out. -/
structure Due (S : Setup σ) (win : Int) (a : Agent σ) : Prop where
  acknowledged : a.lastAck = a.highestAck
  next : a.tSeqno = a.highestAck + 1
  data : a.tSeqno < a.curseq
  positive : 1 ≤ win
  bounded : Bounded S win

theorem sendLoop_next {force : Bool} {reason : Reason} {now : ℚ} {win : Int} {turns : Nat}
    {npacket : Int} (plain : S.Plain) (prompt : S.Prompt) (clean : Clean laws a.transfer)
    (due : Due S win a) (sent : sendLoop S force reason now turns npacket win a = .ok b) :
    ∃ p ∈ sentPackets b.entries, p.seqno = a.tSeqno ∧ p.ts = now := by
  cases turns with
  | zero => cases sent
  | succ turns =>
    have normal : a.fastrecov = false := clean.normal
    have may : maySend win a = true := by
      have acknowledged := due.acknowledged
      have next := due.next
      have data := due.data
      have win := due.positive
      simp only [maySend, normal, Bool.false_eq_true, ↓reduceIte, Bool.and_eq_true,
        decide_eq_true_eq]
      omega
    have room : a.tSeqno ≤ a.highestAck + win ∧ a.tSeqno < a.curseq := by
      have next := due.next
      have win := due.positive
      exact ⟨by omega, due.data⟩
    obtain ⟨p, number, time, entries⟩ := @output_sent σ S { a with
      scb := (S.board.getNextRetran a.scb).2, tSeqno := a.tSeqno + 1 } plain a.tSeqno reason now
    simp only [sendLoop, may, prompt.overhead, true_or, ↓reduceIte, clean.pick, if_pos room] at sent
    have transmitted : p ∈ sentPackets (transmit S a.tSeqno reason now { a with
        scb := (S.board.getNextRetran a.scb).2, tSeqno := a.tSeqno + 1 }).entries := by
      simp only [transmit, entries]
      exact List.mem_append_right _ List.mem_cons_self
    refine ⟨p, ?_, number, time⟩
    split_ifs at sent
    · cases sent
      exact transmitted
    · cases sent
      exact transmitted
    · have more := (sendLoop_sends due.bounded sent).extends plain .rtxExpires
      exact more.sent.subset transmitted

/-- With a window of at least one packet, `send_much()` sends the next number. -/
theorem sendMuch_next {force : Bool} {reason : Reason} {now : ℚ} {turns : Nat} (plain : S.Plain)
    (prompt : S.Prompt) (clean : Clean laws a.transfer) (idle : a.delsndPending = false)
    (acknowledged : a.lastAck = a.highestAck) (next : a.tSeqno = a.highestAck + 1)
    (data : a.tSeqno < a.curseq) (open_ : 1 ≤ window S a)
    (sent : sendMuch S turns force reason now a = .ok b) :
    ∃ p ∈ sentPackets b.entries, p.seqno = a.tSeqno ∧ p.ts = now := by
  simp only [sendMuch, idle, Bool.false_eq_true, and_false, ↓reduceIte] at sent
  exact sendLoop_next plain prompt clean
    { acknowledged, next, data, positive := open_, bounded := window_bounded } sent

/-! ### The window after a timeout -/

theorem le_window (plain : S.Plain) (frto : a.frto ≠ 2) (open_ : 1 ≤ a.cwnd) : 1 ≤ window S a := by
  have whole {q : ℚ} (one : 1 ≤ q) : 1 ≤ toInt q := by
    rw [toInt_eq_floor (by linarith)]
    exact Int.le_floor.mpr (by exact_mod_cast one)
  simp only [window, if_neg frto]
  split
  · exact whole open_
  · exact whole plain.wnd

theorem slowdown_cwnd (how : Close) : 1 ≤ (slowdown S how a).cwnd := by
  simp only [slowdown]
  split
  · exact le_refl _
  · linarith

theorem closeOnTimeout_window :
    1 ≤ (closeOnTimeout S a).cwnd ∧ ((closeOnTimeout S a).frto = a.frto ∨
      (closeOnTimeout S a).frto = 1) := by
  have shrunk (b : Agent σ) : (shrinkInitialWindow S b).frto = b.frto := by
    simp only [shrinkInitialWindow]
    split
    · split
      · rfl
      · split <;> rfl
    · rfl
  have started (b : Agent σ) (open_ : 1 ≤ b.cwnd) :
      1 ≤ (startFrto S b).cwnd ∧ ((startFrto S b).frto = b.frto ∨ (startFrto S b).frto = 1) := by
    simp only [startFrto]
    split
    · exact ⟨open_, .inr rfl⟩
    · exact ⟨open_, .inl rfl⟩
  simp only [closeOnTimeout]
  have kept := shrunk { a with recover := a.maxseq }
  generalize shrinkInitialWindow S { a with recover := a.maxseq } = c at kept
  rw [show a.frto = c.frto from kept.symm]
  split_ifs
  · exact ⟨slowdown_cwnd _, .inl rfl⟩
  · exact started (slowdown S { cwndOne := true } c) (slowdown_cwnd _)
  · exact started _ (slowdown_cwnd (a := { c with
      nrexmit := c.nrexmit + 1, lastCwndAction := .timeout })
      { ssthreshHalf := true, cwndRestart := true })

theorem closeWindow_window (plain : S.Plain) : 1 ≤ window S (closeWindow S a) := by
  have opened : 1 ≤ (saveWindow S a).cwnd := by
    simp only [saveWindow]
    split
    · exact le_refl _
    · linarith
  have unforced : (saveWindow S a).frto = 0 := rfl
  suffices kept : 1 ≤ (closeWindow S a).cwnd ∧ (closeWindow S a).frto ≠ 2 from
    le_window plain kept.2 kept.1
  have reset (b : Agent σ) (backoff : Bool) :
      (resetRtxTimer S false backoff b).cwnd = b.cwnd ∧
        (resetRtxTimer S false backoff b).frto = b.frto := by
    cases backoff <;> exact ⟨rfl, rfl⟩
  simp only [closeWindow, (reset _ _).1, (reset _ _).2]
  split
  · exact ⟨opened, by rw [unforced]; decide⟩
  · obtain ⟨cwnd, frto⟩ := @closeOnTimeout_window σ S (saveWindow S a)
    rw [unforced] at frto
    exact ⟨cwnd, by omega⟩

/-! ### The two ends of a round -/

theorem Transfer.SendAct.clean {c d : Transfer σ} (act : SendAct S c d) (clean : Clean laws c) :
    Clean laws d := by
  cases act with
  | look => exact ⟨laws.getNextRetran clean.below, clean.normal⟩
  | new _ _ out => exact ⟨by rw [out.scb]; exact clean.below, out.fastrecov.trans clean.normal⟩
  | hole found => exact absurd clean.hole found
  | pace => exact ⟨clean.below, clean.normal⟩

/-- The timeout sends the first number that is not acknowledged. -/
theorem timeout_ends (plain : S.Plain) (prompt : S.Prompt) (orderly : Orderly laws a.transfer)
    (ready : Ready a.transfer) (started : 0 ≤ a.maxseq) (data : a.highestAck + 1 < a.curseq)
    (now : ℚ) : ∃ turns b, respond S ⟨now, .rtxExpires, turns⟩ a = .ok b ∧
      (∃ p ∈ sentPackets b.entries, p.seqno = a.highestAck + 1 ∧ p.ts = now) ∧
      b.fastrecov = false := by
  have pending : a.rtxPending = true := ready.rtxPending started
  have same := @timeout_transfer σ S a
  have open_ := closeWindow_window (a := beginTimeout S { a with rtxPending := false }) plain
  generalize timedOut : closeWindow S (beginTimeout S { a with rtxPending := false }) = e
    at same open_
  have clean : Clean laws e.transfer := by
    rw [same]
    exact ⟨laws.clear _ _, rfl⟩
  obtain ⟨turns, c, sent⟩ := sendMuch_ends prompt clean false .timeout now
  have kept : Clean laws c.transfer :=
    (sendMuch_sends sent).invariant clean fun _ _ before act => act.clean before
  refine ⟨turns, overruleFrto a.fastrecov c, ?_, ?_, ?_⟩
  · simp only [respond, pending, ↓reduceIte, timeoutRtx, timedOut, sent]
    rfl
  · have next : e.tSeqno = a.highestAck + 1 := congrArg Transfer.tSeqno same
    have highest : e.highestAck = a.highestAck := congrArg Transfer.highestAck same
    have curseq : e.curseq = a.curseq := congrArg Transfer.curseq same
    have idle : e.delsndPending = a.delsndPending := congrArg Transfer.delsndPending same
    have acknowledged : e.lastAck = if a.highestAck > a.lastAck then a.highestAck else a.lastAck :=
      congrArg Transfer.lastAck same
    have behind : a.lastAck ≤ a.highestAck := orderly.lastAck_le
    have entries : sentPackets (overruleFrto a.fastrecov c).entries = sentPackets c.entries :=
      congrArg Transfer.sent (overruleFrto_transfer a.fastrecov)
    rw [entries, ← next]
    refine sendMuch_next plain prompt clean (idle.trans ready.delsndPending) ?_ (by omega)
      (by omega) open_ sent
    rw [acknowledged, highest]
    split <;> omega
  · exact (congrArg Transfer.fastrecov (overruleFrto_transfer a.fastrecov)).trans kept.normal

/-- An ACK for something new is taken in, outside fast recovery. -/
theorem newack_ends (plain : S.Plain) (prompt : S.Prompt) (laws : S.board.Laws)
    (ready : Ready a.transfer) (normal : a.fastrecov = false) {ack : Ack}
    (new : a.lastAck < ack.seqno)
    (current : ¬ ack.ts < a.lastreset) (now : ℚ) :
    ∃ turns b, respond S ⟨now, .ack ack, turns⟩ a = .ok b ∧ b.highestAck = ack.seqno := by
  have begun : beginAck S ack a = a := by
    have asked : a.qsRequested = false := ready.qsRequested
    have approved : a.qsApproved = false := ready.qsApproved
    simp [beginAck, asked, approved]
  obtain ⟨recover, -, heard⟩ := @hearFeedback_transfer σ S a ack
  have still : (hearFeedback S ack a).fastrecov = false :=
    (congrArg Transfer.fastrecov heard).trans normal
  have last : (hearFeedback S ack a).lastAck = a.lastAck := congrArg Transfer.lastAck heard
  obtain ⟨tSeqno, recover, closed, pending, taken⟩ :=
    @recvNew_transfer σ S (hearFeedback S ack a) ack now
  have highest : (recvNew S ack now (hearFeedback S ack a)).highestAck = ack.seqno :=
    congrArg Transfer.highestAck taken
  have received : recvNormal S ack now (hearFeedback S ack a) =
      recvNew S ack now (hearFeedback S ack a) := by
    rw [recvNormal, if_pos (by omega)]
  have answered (turns : Nat) : respond S ⟨now, .ack ack, turns⟩ a =
      if (ack.seqno ≥ (hearFeedback S ack a).lastAck ∨ S.aggressiveMaxburst = true) ∧
          (recvNew S ack now (hearFeedback S ack a)).dupacks = 0 then
        sendMuch S turns false .normal now (recvNew S ack now (hearFeedback S ack a))
      else .ok (recvNew S ack now (hearFeedback S ack a)) := by
    simp only [respond, recv, begun, if_neg current, still, Bool.false_eq_true, not_false_eq_true,
      ↓reduceIte, received]
  have clean : Clean laws (recvNew S ack now (hearFeedback S ack a)).transfer := by
    rw [taken]
    exact ⟨laws.clear _ _, still⟩
  simp only [answered]
  split
  · obtain ⟨turns, b, sent⟩ := sendMuch_ends prompt clean false .normal now
    have extended := (sendMuch_sends sent).extends plain .rtxExpires
    refine ⟨turns, b, sent, ?_⟩
    rcases extended.acknowledged with same | ⟨_, ⟨⟩, _⟩
    exact same.trans highest
  · exact ⟨0, _, rfl, highest⟩

/-! ### What every run keeps -/

/-- Data handed over is on its way: the connection request left with the first of it. -/
def Agent.Begun (S : Setup σ) (a : Agent σ) : Prop :=
  0 ≤ a.maxseq ∨ ∃ curseq closed, curseq ≤ 0 ∧ a = { fresh S with curseq, closed }

theorem fresh_window (plain : S.Plain) (prompt : S.Prompt) (curseq : Int) (closed : Bool) :
    1 ≤ window S { fresh S with curseq, closed } := by
  refine le_window plain (show (0 : Int) ≠ 2 by decide) ?_
  simp only [fresh]
  split
  · exact le_refl _
  · split
    · exact prompt.wndInit
    · split_ifs <;> norm_num

theorem sendMuch_begun (plain : S.Plain) (prompt : S.Prompt) (laws : S.board.Laws) {curseq : Int}
    {closed : Bool} {turns : Nat} {now : ℚ}
    (sent : sendMuch S turns false .normal now { fresh S with curseq, closed } = .ok b) :
    b.Begun S := by
  have clean : Clean laws (Agent.transfer { fresh S with curseq, closed }) :=
    ⟨laws.empty 0, rfl⟩
  rcases le_or_gt curseq 0 with none | data
  · -- without data nothing is sent
    have quiet (win : Int) : maySend win { fresh S with curseq, closed } = false := by
      rw [maySend, Bool.and_eq_false_iff]
      exact .inr (decide_eq_false (show ¬ (-1 + 1 : Int) < curseq by omega))
    cases turns with
    | zero => cases sent
    | succ turns =>
      simp only [sendMuch, sendLoop, quiet] at sent
      cases sent
      exact .inr ⟨curseq, closed, none, rfl⟩
  · obtain ⟨p, member, number, -⟩ := sendMuch_next plain prompt clean rfl rfl rfl data
      (fresh_window plain prompt curseq closed) sent
    have offered : Orderly laws (Agent.transfer { fresh S with curseq, closed }) :=
      { orderly_fresh plain with data := .inr rfl }
    have path : Moves S .rtxExpires { fresh S with curseq, closed } b := (sendMuch_sends sent).acts
    have orderly := (path.orderly plain (Stimulus.honest_rtxExpires _) offered).1
    have high := (orderly.numbers p member).2.1
    exact .inl (number.symm.le.trans high)

theorem Agent.Begun.respond {i : Input} (begun : a.Begun S) (plain : S.Plain) (prompt : S.Prompt)
    (laws : S.board.Laws) (orderly : Orderly laws a.transfer) (grows : i.stimulus.Grows)
    (noAck : ∀ ack, i.stimulus ≠ .ack ack) (answer : Tcp.respond S i a = .ok b) :
    b.Begun S := by
  rcases begun with started | ⟨curseq, closed, none, rfl⟩
  · have extended := ((respond_moves answer).orderly plain
      ⟨grows, fun ack heard => absurd heard (noAck ack)⟩ orderly).2
    exact .inl (started.trans extended.maxseq)
  · simp only [Tcp.respond] at answer
    cases stimulus : i.stimulus with
    | ack ack => exact absurd stimulus (noAck ack)
    | rtxExpires | delsndExpires | flBndrExpires =>
      -- no timer was ever set
      simp only [stimulus] at answer
      cases answer
    | sendmsg nbytes =>
      simp only [stimulus, sendmsg] at answer
      exact sendMuch_begun plain prompt laws answer
    | advanceby delta =>
      simp only [stimulus, advanceby] at answer
      split at answer
      · exact sendMuch_begun plain prompt laws answer
      · exact sendMuch_begun plain prompt laws answer

/-- Nobody but the retransmission timer and the network acts, at the given time, and the network
marks nothing. -/
def Delivery.Unaided (now : ℚ) : Delivery → Prop
  | .senderActs i => i.now = now ∧ i.stimulus = .rtxExpires
  | .dataArrives _ time ce => time = now ∧ ce = false
  | .ackArrives _ time _ => time = now

namespace LossyConnection

variable (laws) {K : SinkConfig} {c d : LossyConnection σ}

/-- Neither end was reset, and the sender can go on. -/
structure Alive (c : LossyConnection σ) : Prop where
  faithful : Faithful laws c
  ready : Ready c.agent.transfer
  begun : c.agent.Begun S
  agentReset : c.agent.lastreset = 0
  sinkReset : c.sink.lastreset = 0

variable {laws}

theorem alive_opened {nblocks : Int} (plain : S.Plain) (positive : 0 < nblocks) :
    Alive laws (opened S nblocks) where
  faithful := faithful_opened plain positive
  ready := ⟨fun started => absurd started (show ¬ (0 : Int) ≤ -1 by decide), rfl, rfl, rfl⟩
  begun := .inr ⟨0, false, le_refl _, rfl⟩
  agentReset := rfl
  sinkReset := rfl

theorem Alive.step {e : Delivery} (alive : Alive laws c) (plain : S.Plain) (prompt : S.Prompt)
    (grows : e.Grows) (answer : c.step S K e = .ok d) : Alive laws d := by
  have faithful := alive.faithful.step plain grows answer
  have orderly := alive.faithful.orderly
  cases e with
  | senderActs i =>
    obtain ⟨agent, rfl, responded, noAck⟩ := senderActs_ok answer
    have honest : i.stimulus.Honest c.agent.maxseq :=
      ⟨grows, fun ack heard => absurd heard (noAck ack)⟩
    have path := respond_moves responded
    exact {
      faithful
      ready := path.ready plain prompt honest orderly alive.ready
      begun := alive.begun.respond plain prompt laws orderly grows noAck responded
      agentReset := (path.orderly plain honest orderly).2.lastreset.trans alive.agentReset
      sinkReset := alive.sinkReset }
  | dataArrives index now ce =>
    obtain ⟨packet, sink, ack, -, received, rfl⟩ := dataArrives_ok answer
    exact { alive with
      faithful
      sinkReset := (SackSink.recv_lastreset received).trans alive.sinkReset }
  | ackArrives index now turns =>
    obtain ⟨ack, agent, sent, rfl, responded⟩ := ackArrives_ok answer
    have honest : (Stimulus.ack ack).Honest c.agent.maxseq := Stimulus.honest_ack
      (alive.faithful.honest (alive.faithful.truthful ack (List.mem_of_getElem? sent)))
    have path : Moves S (.ack ack) c.agent agent := respond_moves responded
    obtain ⟨-, extended⟩ := path.orderly plain honest orderly
    exact {
      faithful
      ready := path.ready plain prompt honest orderly alive.ready
      begun := .inl ((honest.2 ack rfl).started.trans extended.maxseq)
      agentReset := extended.lastreset.trans alive.agentReset
      sinkReset := alive.sinkReset }

/-! ### Rounds -/

/-- Events one after the other, from a given state on. -/
def run (S : Setup σ) (K : SinkConfig) (events : List Delivery) (c : LossyConnection σ) :
    Except Disturbance (LossyConnection σ) :=
  events.foldlM (fun c e => c.step S K e) c

theorem run_nil (c : LossyConnection σ) : run S K [] c = .ok c := rfl

theorem run_cons {e : Delivery} {events : List Delivery} {b : LossyConnection σ}
    (stepped : c.step S K e = .ok b) (ran : run S K events b = .ok d) :
    run S K (e :: events) c = .ok d := by
  rw [run, List.foldlM_cons, stepped]
  exact ran

/-- The sink answers the next packet with an ACK for it. -/
theorem Alive.dataArrives (alive : Alive laws c) {p : DataPacket}
    (sent : p ∈ sentPackets c.agent.entries) (next : p.seqno = c.agent.highestAck + 1)
    {now : ℚ} (time : p.ts = now) (later : 0 ≤ now) :
    ∃ index sink ack, c.dataArrives K index now false = .ok { c with
        sink, arrived := c.arrived ++ [⟨p, false⟩], acks := c.acks ++ [ack] } ∧
      c.agent.highestAck < ack.seqno ∧ ack.ts = now := by
  have faithful := alive.faithful
  obtain ⟨index, here⟩ := List.mem_iff_getElem?.mp sent
  obtain ⟨blocks, told⟩ := faithful.tells
  obtain ⟨low, -, positive⟩ := faithful.orderly.numbers p sent
  have valid : ValidCalls (c.arrived.map Arrival.segment ++ [(⟨p, false⟩ : Arrival).segment]) :=
    validCalls_append.mpr ⟨faithful.valid, low, positive⟩
  obtain ⟨sink, ack, reported, received, tells, reports, stamped, -⟩ :=
    SackSink.recv_tells (x := ⟨p, false⟩) K now told valid
      (by rw [alive.sinkReset, time]; exact later.not_gt)
  refine ⟨index, sink, ack, by simp only [LossyConnection.dataArrives, here, received], ?_, stamped⟩
  -- the number that was missing has arrived
  have behind := faithful.behind
  have after : c.next ≤ sink.sacker.acker.next := next_mono told.tracks tells.tracks
  have arrived : sink.sacker.acker.next ≠ p.seqno := fun same =>
    tells.tracks.missing ⟨_, List.mem_append_right _ List.mem_cons_self, same.symm⟩
  rw [reports.seqno, Acker.seqno]
  omega

/-- A timeout, the packet it sends and the ACK for it acknowledge at least one packet more. -/
theorem Alive.round (alive : Alive laws c) (plain : S.Plain) (prompt : S.Prompt)
    (data : c.agent.highestAck + 1 < c.agent.curseq) (started : 0 ≤ c.agent.maxseq) {now : ℚ}
    (later : 0 ≤ now) :
    ∃ events d, run S K events c = .ok d ∧ (∀ e ∈ events, e.Unaided now) ∧ Alive laws d ∧
      c.agent.maxseq ≤ d.agent.maxseq ∧ d.agent.curseq = c.agent.curseq ∧
      c.agent.highestAck < d.agent.highestAck := by
  obtain ⟨turns, agent, responded, ⟨p, sent, number, time⟩, normal⟩ :=
    timeout_ends plain prompt alive.faithful.orderly alive.ready started data now
  have timedOut : c.step S K (.senderActs ⟨now, .rtxExpires, turns⟩) = .ok { c with agent } := by
    simp only [LossyConnection.step, LossyConnection.senderActs, responded]
    rfl
  have before := alive.step plain prompt (e := .senderActs ⟨now, .rtxExpires, turns⟩) trivial
    timedOut
  obtain ⟨-, extended⟩ := (respond_moves responded).orderly plain
    (Stimulus.honest_rtxExpires _) alive.faithful.orderly
  have highest : agent.highestAck = c.agent.highestAck := by
    rcases extended.acknowledged with same | ⟨_, ⟨⟩, _⟩
    exact same
  have curseq : agent.curseq = c.agent.curseq := extended.curseq rfl started
  have reached : 0 ≤ agent.maxseq := le_trans started extended.maxseq
  obtain ⟨index, sink, ack, delivered, new, stamped⟩ :=
    before.dataArrives (K := K) sent (by rw [number, ← highest]) time later
  have answered := before.step plain prompt (e := .dataArrives index now false) trivial delivered
  have acknowledged : agent.lastAck = agent.highestAck := before.faithful.orderly.normal normal
  obtain ⟨turns', agent', heard, raised⟩ := newack_ends plain prompt laws before.ready normal
    (by rw [acknowledged]; exact new)
    (by rw [stamped, before.agentReset]; exact later.not_gt) now
  have last : (c.acks ++ [ack])[c.acks.length]? = some ack := by simp
  have taken : LossyConnection.step S K { c with
      agent, sink, arrived := c.arrived ++ [⟨p, false⟩], acks := c.acks ++ [ack] }
      (.ackArrives c.acks.length now turns') = .ok { c with
        agent := agent', sink, arrived := c.arrived ++ [⟨p, false⟩], acks := c.acks ++ [ack] } := by
    simp only [LossyConnection.step, LossyConnection.ackArrives, last, heard]
  have honest : (Stimulus.ack ack).Honest agent.maxseq := Stimulus.honest_ack
    (answered.faithful.honest (answered.faithful.truthful ack
      (List.mem_append_right _ List.mem_cons_self)))
  have finished := ((respond_moves heard).orderly plain honest before.faithful.orderly).2
  refine ⟨_, _, run_cons timedOut (run_cons (e := .dataArrives index now false) delivered
    (run_cons taken (run_nil _))), ?_,
    answered.step plain prompt (e := .ackArrives _ _ _) trivial taken,
    extended.maxseq.trans finished.maxseq, ?_, ?_⟩
  · simp only [List.mem_cons, List.not_mem_nil, or_false]
    rintro e (rfl | rfl | rfl)
    · exact ⟨rfl, rfl⟩
    · exact ⟨rfl, rfl⟩
    · exact (rfl : now = now)
  · exact (finished.curseq rfl reached).trans curseq
  · dsimp only
    rw [raised, ← highest]
    exact new

/-- Round after round, until everything is acknowledged. -/
theorem Alive.completes (alive : Alive laws c) (plain : S.Plain) (prompt : S.Prompt)
    (started : 0 ≤ c.agent.maxseq) {now : ℚ} (later : 0 ≤ now) :
    ∃ events d, run S K events c = .ok d ∧ (∀ e ∈ events, e.Unaided now) ∧ Alive laws d ∧
      d.agent.curseq = c.agent.curseq ∧ d.agent.highestAck + 1 = d.agent.curseq := by
  -- induction on what is not acknowledged yet
  induction left : (c.agent.curseq - 1 - c.agent.highestAck).toNat using Nat.strong_induction_on
    generalizing c with
  | _ left ih =>
    have orderly := alive.faithful.orderly
    have covered : c.agent.maxseq < c.agent.curseq :=
      orderly.data.resolve_right fun none => absurd (started.trans_eq none) (by decide)
    have inside : c.agent.highestAck ≤ c.agent.maxseq := orderly.highestAck_le
    rcases eq_or_lt_of_le (show c.agent.highestAck + 1 ≤ c.agent.curseq by omega) with all | data
    · exact ⟨[], c, rfl, List.forall_mem_nil _, alive, rfl, all⟩
    · obtain ⟨first, b, ran, unaided, still, after, curseq, more⟩ :=
        alive.round (K := K) plain prompt data started later
      obtain ⟨rest, d, finished, unaided', last, same, all⟩ :=
        ih _ (by omega) still (started.trans after) rfl
      refine ⟨first ++ rest, d, ?_, ?_, last, same.trans curseq, all⟩
      · rw [run, List.foldlM_append, show first.foldlM (fun c e => c.step S K e) c = .ok b from ran]
        exact finished
      · intro e member
        rcases List.mem_append.mp member with early | late
        · exact unaided e early
        · exact unaided' e late

end LossyConnection

/-! ### Results -/

/-- No state is a dead end. Whatever the network has lost, duplicated and reordered so far, the
retransmission timer and a network that delivers can still take everything handed over across:
all of it is then delivered in order and acknowledged, and the application has not changed it. -/
theorem transfer_completes (S : Setup σ) (K : SinkConfig) (nblocks : Int) (events : Nat → Delivery)
    (laws : S.board.Laws) (plain : S.Plain) (prompt : S.Prompt) (positive : 0 < nblocks)
    (grows : ∀ j, (events j).Grows) (k : Nat) (c : LossyConnection σ)
    (reached : lossyAt S K nblocks events k = .ok c) (data : 0 < c.agent.curseq) (now : ℚ)
    (later : 0 ≤ now) :
    ∃ more d, LossyConnection.run S K more c = .ok d ∧ (∀ e ∈ more, e.Unaided now) ∧
      d.agent.curseq = c.agent.curseq ∧ d.agent.highestAck + 1 = c.agent.curseq ∧
      d.next = c.agent.curseq := by
  have alive : LossyConnection.Alive laws c :=
    DrivenRun.invariant (I := fun _ => LossyConnection.Alive laws)
      (LossyConnection.alive_opened plain positive)
      (fun j _ _ _ before answer =>
        before.step plain prompt (grows j) (DrivenRun.map_unit_eq_ok.mp answer)) reached
  have started : 0 ≤ c.agent.maxseq := by
    rcases alive.begun with started | ⟨curseq, closed, none, same⟩
    · exact started
    · rw [same] at data
      exact absurd data none.not_gt
  obtain ⟨more, d, ran, unaided, last, same, all⟩ :=
    alive.completes (K := K) plain prompt started later
  refine ⟨more, d, ran, unaided, same, all.trans same, ?_⟩
  -- the sink is between what is acknowledged and what was sent
  have behind := last.faithful.behind
  have ahead := last.faithful.next_le
  have covered : d.agent.maxseq < d.agent.curseq ∨ d.agent.maxseq = -1 :=
    last.faithful.orderly.data
  omega

theorem dctcpSetup_prompt : dctcpSetup.Prompt where
  overhead := rfl
  qsEnabled := rfl
  timerfix := rfl
  wndInit := by norm_num [dctcpSetup]

/-- With packet 2 ahead of packet 1 and only the connection request acknowledged. -/
theorem transfer_completes_disturbed : ∃ c,
    lossyAt dctcpSetup {} 3 disturbedEvents 4 = .ok c ∧ 0 < c.agent.curseq ∧
    c.agent.highestAck = 0 ∧ ∃ more d, LossyConnection.run dctcpSetup {} more c = .ok d ∧
      (∀ e ∈ more, e.Unaided 7) ∧ d.agent.curseq = c.agent.curseq ∧
      d.agent.highestAck + 1 = c.agent.curseq ∧ d.next = c.agent.curseq := by
  obtain ⟨c, reached, last⟩ := DrivenRun.exists_of_any
    (x := lossyAt dctcpSetup {} 3 disturbedEvents 4)
    (p := fun c => decide (0 < c.agent.curseq) && decide (c.agent.highestAck = 0))
    (by decide +kernel)
  simp only [Bool.and_eq_true, decide_eq_true_eq] at last
  exact ⟨c, reached, last.1, last.2, transfer_completes dctcpSetup {} 3 disturbedEvents
    segmentBoard_laws dctcpSetup_plain dctcpSetup_prompt (by decide) disturbedEvents_grow 4 c
    reached last.1 7 (by decide)⟩

end Saps.Tcp
