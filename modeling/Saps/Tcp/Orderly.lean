import Saps.Tcp.TransferRefinement

/-!
# A transfer stays in order

The retransmission timer waits for whatever was sent and not acknowledged. On
honest ACKs the sender leaves no gap, sends nothing beyond its data and keeps to
the advertised window.
-/
namespace Saps.Tcp

open Transfer

variable {σ : Type} {S : Setup σ} {c d : Transfer σ} {stimulus : Stimulus}

/-! ### The retransmission timer -/

def Transfer.Guarded (c : Transfer σ) : Prop := c.rtxPending = true ∨ c.maxseq ≤ c.highestAck

theorem Transfer.Outputs.guarded {seqno : Int} (out : Outputs S seqno c d) : d.Guarded := by
  cases out <;> exact .inl rfl

theorem Transfer.Act.guarded (act : Transfer.Act S stimulus c d) (before : c.Guarded) :
    d.Guarded := by
  cases act with
  | sending act =>
    cases act with
    | look | pace => exact before
    | new _ _ out | hole _ _ out => exact out.guarded
  | fastRetransmit _ _ _ _ _ _ _ out => exact out.guarded
  | resend _ _ _ _ _ out => exact out.guarded.imp_right id
  | newack _ _ _ _ _ kept | exitRecovery _ _ _ _ _ kept =>
    -- cancelled only when nothing is left to wait for
    exact kept.imp_right And.right
  | newtimer _ _ reflected _ _ kept => exact kept.imp_right fun idle => reflected ▸ idle
  | partialAck _ _ _ new _ => exact before.imp_right fun idle => idle.trans new.le
  | timeout => exact .inl rfl
  | update | clear | finish | goBack | spuriousTimeout | ecn | leaveQuickStart | answerQuickStart
  | delsndExpires | offer => exact before

/-- What a scoreboard does: it knows segments from SACK blocks only, and its holes lie below
them. -/
structure ScoreBoard.Laws (B : ScoreBoard σ) where
  /-- All that the board knows of lies below a number. -/
  Below : σ → Int → Prop
  empty (n : Int) : Below B.empty n
  clear (b : σ) (n : Int) : Below (B.clearScoreBoard b) n
  mono {b : σ} {m n : Int} : Below b m → m ≤ n → Below b n
  update {b : σ} {n lastAck : Int} {ack : Ack} : Below b n → -1 ≤ lastAck →
    (∀ block ∈ ack.sackArea, block.2 ≤ n) → Below (B.updateScoreBoard lastAck ack b) n
  markRetran {b : σ} {n : Int} (seqno : Int) : Below b n → Below (B.markRetran seqno b) n
  getNextRetran {b : σ} {n : Int} : Below b n → Below (B.getNextRetran b).2 n
  hole {b : σ} {n : Int} : Below b n →
    (B.getNextRetran b).1 = -1 ∨ 0 ≤ (B.getNextRetran b).1 ∧ (B.getNextRetran b).1 < n
  news {b : σ} {lastAck : Int} {ack : Ack} : ack.sackArea = [] →
    B.checkUpdate (B.updateScoreBoard lastAck ack b) = false

/-- Packets have a size, the receiver has a window, and the options that send beyond what was
lost are off. -/
structure Setup.Plain (S : Setup σ) : Prop where
  wnd : 1 ≤ S.wnd
  size : 1 < S.size
  baseHdrSize : 0 < S.tcpipBaseHdrSize
  tsOptionSize : 0 ≤ S.tsOptionSize
  partialAck : S.partialAck = false
  sfrtoEnabled : S.sfrtoEnabled = false
  maxConnects : S.maxConnects ≤ 0

/-- An ACK that a receiver may have sent by now. -/
structure Ack.Honest (ack : Ack) (maxseq : Int) : Prop where
  started : 0 ≤ maxseq
  seqno_ge : -1 ≤ ack.seqno
  seqno_le : ack.seqno ≤ maxseq
  blocks : ∀ block ∈ ack.sackArea,
    ack.seqno < block.1 ∧ block.1 < block.2 ∧ block.2 ≤ maxseq + 1

def Stimulus.Honest (stimulus : Stimulus) (maxseq : Int) : Prop :=
  stimulus.Grows ∧ ∀ ack, stimulus = .ack ack → ack.Honest maxseq

variable (laws : S.board.Laws)

structure Orderly (c : Transfer σ) : Prop where
  lastAck_ge : -1 ≤ c.lastAck
  lastAck_le : c.lastAck ≤ c.highestAck
  highestAck_le : c.highestAck ≤ c.maxseq
  tSeqno_nonneg : 0 ≤ c.tSeqno
  tSeqno_le : c.tSeqno ≤ c.maxseq + 1
  recover_ge : -1 ≤ c.recover
  recover_le : c.recover ≤ c.maxseq ∨ c.recover = 0
  normal : c.fastrecov = false → c.lastAck = c.highestAck
  recovering : c.fastrecov = true → c.highestAck ≤ c.recover
  data : c.maxseq < c.curseq ∨ c.maxseq = -1
  window : (c.maxseq : ℚ) ≤ c.highestAck + S.wnd
  below : laws.Below c.scb (c.maxseq + 1)
  numbers : ∀ p ∈ c.sent, 0 ≤ p.seqno ∧ p.seqno ≤ c.maxseq ∧ 0 < p.size
  contiguous : ∀ n, 0 ≤ n → n ≤ c.maxseq → ∃ p ∈ c.sent, p.seqno = n

variable {laws}

theorem Stimulus.honest_rtxExpires (maxseq : Int) : Stimulus.rtxExpires.Honest maxseq :=
  ⟨trivial, nofun⟩

theorem Stimulus.honest_ack {ack : Ack} {maxseq : Int} (honest : ack.Honest maxseq) :
    (Stimulus.ack ack).Honest maxseq :=
  ⟨trivial, fun _ heard => Stimulus.ack.inj heard ▸ honest⟩

theorem Ack.Honest.mono {ack : Ack} {m n : Int} (honest : ack.Honest m) (le : m ≤ n) :
    ack.Honest n where
  started := honest.started.trans le
  seqno_ge := honest.seqno_ge
  seqno_le := honest.seqno_le.trans le
  blocks := fun block member => by
    obtain ⟨left, right, last⟩ := honest.blocks block member
    exact ⟨left, right, by omega⟩

theorem headersize_nonneg (plain : S.Plain) : 0 ≤ headersize S := by
  have base := plain.baseHdrSize
  have option := plain.tsOptionSize
  simp only [headersize]
  split <;> omega

theorem Transfer.Outputs.maxseq {seqno : Int} (out : Outputs S seqno c d) (plain : S.Plain) :
    seqno ≤ d.maxseq ∧ c.maxseq ≤ d.maxseq := by
  cases out with
  | handed => constructor <;> dsimp only <;> split <;> omega
  | aborted limited => exact absurd limited plain.maxConnects.not_gt

/-- A call of `output()` for a number that was sent before, or for the next one of the data. -/
theorem Orderly.output {seqno : Int} (orderly : Orderly laws c) (plain : S.Plain)
    (nonneg : 0 ≤ seqno)
    (due : seqno ≤ c.maxseq ∨ seqno = c.maxseq + 1 ∧ seqno < c.curseq ∧
      Allowed S seqno c.highestAck)
    (out : Outputs S seqno c d) : Orderly laws d := by
  obtain ⟨reached, after⟩ := out.maxseq plain
  cases out with
  | aborted limited => exact absurd limited plain.maxConnects.not_gt
  | handed p number size curseq data asked may =>
    have header := headersize_nonneg plain
    have base := plain.baseHdrSize
    have large := plain.size
    dsimp only at reached after
    have top : (if seqno > c.maxseq then seqno else c.maxseq) = c.maxseq ∨
        (if seqno > c.maxseq then seqno else c.maxseq) = seqno := by
      split
      · exact .inr rfl
      · exact .inl rfl
    have more : c.curseq ≤ curseq := by omega
    generalize (if seqno > c.maxseq then seqno else c.maxseq) = maxseq at reached after top ⊢
    exact {
      lastAck_ge := orderly.lastAck_ge
      lastAck_le := orderly.lastAck_le
      highestAck_le := orderly.highestAck_le.trans after
      tSeqno_nonneg := orderly.tSeqno_nonneg
      tSeqno_le := orderly.tSeqno_le.trans (by dsimp only; omega)
      recover_ge := orderly.recover_ge
      recover_le := orderly.recover_le.imp_left fun le => le.trans after
      normal := orderly.normal
      recovering := orderly.recovering
      data := by
        have old := orderly.data
        dsimp only
        omega
      window := by
        rcases due with old | ⟨-, -, allowed⟩
        · have same : maxseq = c.maxseq := by omega
          rw [same]
          exact orderly.window
        · have positive : (0 : ℚ) ≤ S.wnd := le_trans (by norm_num) plain.wnd
          rcases top with same | same
          · rw [same]
            exact orderly.window
          · rw [same]
            exact allowed positive
      below := laws.mono orderly.below (by dsimp only; omega)
      numbers := by
        intro q member
        rcases List.mem_append.mp member with old | new
        · obtain ⟨low, high, positive⟩ := orderly.numbers q old
          exact ⟨low, high.trans after, positive⟩
        · obtain rfl := List.mem_singleton.mp new
          dsimp only
          omega
      contiguous := by
        intro n low high
        dsimp only at high ⊢
        rcases eq_or_ne n seqno with rfl | other
        · exact ⟨p, by simp, number⟩
        · obtain ⟨q, member, same⟩ := orderly.contiguous n low (by omega)
          exact ⟨q, List.mem_append_left _ member, same⟩ }

theorem Orderly.withSeq (orderly : Orderly laws c) (tSeqno : Int) (nonneg : 0 ≤ tSeqno)
    (le : tSeqno ≤ c.maxseq + 1) : Orderly laws { c with tSeqno } :=
  { orderly with tSeqno_nonneg := nonneg, tSeqno_le := le }

theorem Orderly.withBoard {scb : σ} (orderly : Orderly laws c)
    (below : laws.Below scb (c.maxseq + 1)) : Orderly laws { c with scb } :=
  { orderly with below }

theorem Transfer.SendAct.orderly (act : SendAct S c d) (plain : S.Plain)
    (orderly : Orderly laws c) : Orderly laws d := by
  have low := orderly.tSeqno_nonneg
  have high := orderly.tSeqno_le
  cases act with
  | look => exact orderly.withBoard (laws.getNextRetran orderly.below)
  | pace => exact { orderly with }
  | new data allowed out =>
    have sent := orderly.output plain low
      (by
        rcases eq_or_lt_of_le high with next | old
        · exact .inr ⟨next, data, allowed⟩
        · exact .inl (by omega))
      (out.withSeq c.tSeqno)
    have reached := (out.maxseq plain).1
    have seq : d.tSeqno = c.tSeqno + 1 := out.tSeqno
    exact sent.withSeq d.tSeqno (by omega) (by dsimp only; omega)
  | hole found allowed out =>
    have inside := (laws.hole orderly.below).resolve_left found
    have marked := orderly.withBoard
      (laws.markRetran (Transfer.hole S c) (laws.getNextRetran orderly.below))
    refine Orderly.output (marked.withSeq _ ?_ ?_) plain inside.1 (.inl ?_) out
    · split <;> omega
    · dsimp only
      unfold Transfer.hole at *
      split <;> omega
    · exact Int.lt_add_one_iff.mp inside.2

theorem Orderly.updateBoard {ack : Ack} (orderly : Orderly laws c) (honest : ack.Honest c.maxseq)
    (lastAck : Int) (ge : -1 ≤ lastAck) :
    Orderly laws { c with scb := S.board.updateScoreBoard lastAck ack c.scb } :=
  orderly.withBoard
    (laws.update orderly.below ge fun block member => (honest.blocks block member).2.2)

/-- Fast recovery begins, up to a point not yet acknowledged. -/
theorem Orderly.enter {recover : Int} (orderly : Orderly laws c)
    (point : recover = c.maxseq ∨ recover = c.recover ∧ c.highestAck ≤ c.recover) :
    Orderly laws (c.enterFastRecovery S recover) :=
  { orderly with
    recover_ge := by
      have old := orderly.recover_ge
      have low := orderly.lastAck_ge
      have := orderly.lastAck_le
      have := orderly.highestAck_le
      simp only [Transfer.enterFastRecovery]
      omega
    recover_le := by
      have old := orderly.recover_le
      simp only [Transfer.enterFastRecovery]
      omega
    normal := nofun
    recovering := fun _ => by
      have := orderly.highestAck_le
      simp only [Transfer.enterFastRecovery]
      omega
    below := laws.markRetran _ orderly.below }

/-- A new cumulative ACK, as long as it takes the acknowledged part forward. -/
theorem Orderly.newack {seqno recover tSeqno : Int} {fastrecov pending : Bool}
    (orderly : Orderly laws c) (le : seqno ≤ c.maxseq)
    (new : c.highestAck ≤ seqno) (recover_ge : -1 ≤ recover)
    (recover_le : recover ≤ c.maxseq ∨ recover = 0) (ended : fastrecov = false)
    (nonneg : 0 ≤ tSeqno) (tSeqno_le : tSeqno ≤ c.maxseq + 1) :
    Orderly laws { c.newack seqno pending with tSeqno, recover, fastrecov } :=
  { orderly with
    lastAck_ge := orderly.lastAck_ge.trans (orderly.lastAck_le.trans new)
    lastAck_le := le_refl _
    highestAck_le := le
    tSeqno_nonneg := nonneg
    tSeqno_le
    recover_ge
    recover_le
    normal := fun _ => rfl
    recovering := fun still => absurd (ended.symm.trans still) Bool.false_ne_true
    window := by
      have old := orderly.window
      have moved : (c.highestAck : ℚ) ≤ seqno := by exact_mod_cast new
      simp only [Transfer.newack]
      linarith }

theorem Transfer.Act.orderly (act : Transfer.Act S stimulus c d) (plain : S.Plain)
    (honest : stimulus.Honest c.maxseq) (orderly : Orderly laws c) : Orderly laws d := by
  have lastAck_ge := orderly.lastAck_ge
  have lastAck_le := orderly.lastAck_le
  have highestAck_le := orderly.highestAck_le
  have nonneg := orderly.tSeqno_nonneg
  have tSeqno_le := orderly.tSeqno_le
  have recover_le := orderly.recover_le
  cases act with
  | sending act => exact act.orderly plain orderly
  | update ack heard => exact orderly.updateBoard (honest.2 ack heard) c.highestAck (by omega)
  | clear => exact orderly.withBoard (laws.clear c.scb _)
  | fastRetransmit ack heard duplicate normal news recover point out =>
    have reported := honest.2 ack heard
    have updated := orderly.updateBoard reported c.highestAck (by omega)
    -- only a SACK block is news, and it lies above what is sent again
    obtain ⟨block, member⟩ : ∃ block, block ∈ ack.sackArea := by
      refine List.exists_mem_of_ne_nil _ fun none => ?_
      exact absurd (laws.news none) (by simpa [Transfer.updateBoard] using news)
    obtain ⟨left, right, last⟩ := reported.blocks block member
    exact (updated.enter point).output plain (by omega)
      (.inl (by simp only [Transfer.enterFastRecovery]; omega)) out
  | newack ack heard new normal pending kept tSeqno recover frto =>
    have reported := honest.2 ack heard
    have same := orderly.normal normal
    have le := reported.seqno_le
    have recover_ge := orderly.recover_ge
    have frto : (tSeqno = c.tSeqno ∨ tSeqno = ack.seqno + 1 ∨ tSeqno = c.recover + 1) ∧
        (recover = c.recover ∨ recover = ack.seqno - 1) := by
      simp only [FollowsFrto, Transfer.newack] at frto
      split at frto <;> omega
    exact orderly.newack le (by omega) (by omega) (by omega) normal (by omega) (by omega)
  | exitRecovery ack heard recovering passed pending kept =>
    have inside := orderly.recovering recovering
    have le := (honest.2 ack heard).seqno_le
    refine orderly.newack le (by omega) (by omega) (.inr rfl) rfl ?_ ?_
    · simp only [Transfer.newack]
      split <;> omega
    · simp only [Transfer.newack]
      split <;> omega
  | finish => exact { orderly with }
  | partialAck ack heard recovering new short =>
    have reported := honest.2 ack heard
    have le := reported.seqno_le
    exact { orderly.updateBoard reported ack.seqno reported.seqno_ge with
      lastAck_le := by dsimp only; omega
      highestAck_le := le
      normal := fun left => absurd (left.symm.trans recovering) Bool.false_ne_true
      recovering := fun _ => short.le
      window := by
        have old := orderly.window
        have moved : (c.highestAck : ℚ) ≤ ack.seqno := by exact_mod_cast new.le
        dsimp only
        linarith }
  | newtimer ack heard reflected short pending kept => exact { orderly with }
  | resend enabled => exact absurd (plain.partialAck.symm.trans enabled) Bool.false_ne_true
  | goBack => exact orderly.withSeq (c.highestAck + 1) (by omega) (by omega)
  | spuriousTimeout enabled => 
    exact absurd (plain.sfrtoEnabled.symm.trans enabled) Bool.false_ne_true
  | ecn => exact { orderly with
      recover_ge := by dsimp only; omega
      recover_le := .inl (le_refl _)
      recovering := fun _ => highestAck_le }
  | leaveQuickStart => exact { orderly with }
  | answerQuickStart => exact { orderly with }
  | timeout => exact { orderly with
      lastAck_ge := by dsimp only; split <;> omega
      lastAck_le := by dsimp only; split <;> omega
      tSeqno_nonneg := by dsimp only; omega
      tSeqno_le := by dsimp only; omega
      recover_ge := by dsimp only; omega
      recover_le := .inl (le_refl _)
      normal := fun _ => by dsimp only; split <;> omega
      recovering := fun still => absurd still Bool.false_ne_true
      below := laws.clear c.scb _ }
  | delsndExpires => exact { orderly with }
  | offer curseq closed called still more =>
    have grown := more honest.1 plain.size
    have old := orderly.data
    exact { orderly with data := by dsimp only; omega }

/-! ### What an act keeps of the past -/

/-- What was sent stays sent, what was acknowledged stays acknowledged, only an ACK acknowledges
more, and only the application changes how much there is to send. -/
structure Transfer.Extends (stimulus : Stimulus) (c d : Transfer σ) : Prop where
  sent : c.sent <+: d.sent
  maxseq : c.maxseq ≤ d.maxseq
  highestAck : c.highestAck ≤ d.highestAck
  acknowledged : d.highestAck = c.highestAck ∨
    ∃ ack, stimulus = .ack ack ∧ d.highestAck = ack.seqno
  lastreset : d.lastreset = c.lastreset
  curseq : stimulus.isCall = false → 0 ≤ c.maxseq → d.curseq = c.curseq

theorem Transfer.Extends.refl : c.Extends stimulus c where
  sent := List.prefix_rfl
  maxseq := le_refl _
  highestAck := le_refl _
  acknowledged := .inl rfl
  lastreset := rfl
  curseq := fun _ _ => rfl

theorem Transfer.Extends.trans {e : Transfer σ} (first : c.Extends stimulus d)
    (second : d.Extends stimulus e) : c.Extends stimulus e where
  sent := first.sent.trans second.sent
  maxseq := first.maxseq.trans second.maxseq
  highestAck := first.highestAck.trans second.highestAck
  acknowledged := by
    rcases second.acknowledged with same | new
    · rw [same]
      exact first.acknowledged
    · exact .inr new
  lastreset := second.lastreset.trans first.lastreset
  curseq := fun quiet started =>
    (second.curseq quiet (started.trans first.maxseq)).trans (first.curseq quiet started)

theorem Transfer.Outputs.extends {seqno : Int} (out : Outputs S seqno c d) (plain : S.Plain)
    (stimulus : Stimulus) : c.Extends stimulus d := by
  have after := (out.maxseq plain).2
  cases out with
  | aborted limited => exact absurd limited plain.maxConnects.not_gt
  | handed p number size curseq data asked may =>
    exact {
      sent := List.prefix_append _ _
      maxseq := after
      highestAck := le_refl _
      acknowledged := .inl rfl
      lastreset := rfl
      curseq := fun _ started => by dsimp only; omega }

theorem Transfer.SendAct.extends (act : SendAct S c d) (plain : S.Plain) (stimulus : Stimulus) :
    c.Extends stimulus d := by
  cases act with
  | look | pace => exact { Transfer.Extends.refl with }
  | new data allowed out => exact { out.extends plain stimulus with }
  | hole found allowed out => exact { out.extends plain stimulus with }

theorem Transfer.Act.extends (act : Transfer.Act S stimulus c d) (plain : S.Plain)
    (orderly : Orderly laws c) : c.Extends stimulus d := by
  have lastAck_le := orderly.lastAck_le
  cases act with
  | sending act => exact act.extends plain stimulus
  | fastRetransmit ack heard duplicate normal news recover point out =>
    exact { out.extends plain stimulus with }
  | resend enabled => exact absurd (plain.partialAck.symm.trans enabled) Bool.false_ne_true
  | newack ack heard new normal =>
    have same := orderly.normal normal
    exact { Transfer.Extends.refl with
      highestAck := by simp only [Transfer.newack]; omega
      acknowledged := .inr ⟨ack, heard, rfl⟩ }
  | exitRecovery ack heard recovering passed =>
    have inside := orderly.recovering recovering
    exact { Transfer.Extends.refl with
      highestAck := by simp only [Transfer.newack]; omega
      acknowledged := .inr ⟨ack, heard, rfl⟩ }
  | partialAck ack heard recovering new short => exact { Transfer.Extends.refl with
      highestAck := new.le
      acknowledged := .inr ⟨ack, heard, rfl⟩ }
  | offer curseq closed called still more => exact { (.refl : c.Extends stimulus c) with
      curseq := fun quiet => absurd (quiet.symm.trans called) Bool.false_ne_true }
  | update | clear | finish | newtimer | goBack | spuriousTimeout | ecn | leaveQuickStart
  | answerQuickStart | timeout | delsndExpires => exact { Transfer.Extends.refl with }

/-- An honest stimulus keeps the order, and only adds to what was sent and acknowledged. -/
theorem Transfer.Acts.orderly (path : Transfer.Acts S stimulus c d) (plain : S.Plain)
    (honest : stimulus.Honest c.maxseq) (orderly : Orderly laws c) :
    Orderly laws d ∧ c.Extends stimulus d := by
  refine path.invariant (I := fun d => Orderly laws d ∧ c.Extends stimulus d)
    ⟨orderly, .refl⟩ ?_
  rintro d e ⟨before, extended⟩ act
  have still : stimulus.Honest d.maxseq :=
    ⟨honest.1, fun ack heard => (honest.2 ack heard).mono extended.maxseq⟩
  exact ⟨act.orderly plain still before, extended.trans (act.extends plain before)⟩

/-! ### The end of a transfer -/

theorem Transfer.Outputs.closed {seqno : Int} (out : Outputs S seqno c d) :
    d.closed = c.closed := by
  cases out <;> rfl

/-- Only an ACK for all the data closes the transfer. -/
theorem Transfer.Act.closes (act : Transfer.Act S stimulus c d) (closed : d.closed = true) :
    c.closed = true ∨ ∃ ack, stimulus = .ack ack ∧ d.curseq - 1 ≤ d.highestAck := by
  cases act with
  | sending act =>
    cases act with
    | look | pace => exact .inl closed
    | new _ _ out | hole _ _ out => exact .inl (out.closed.symm.trans closed)
  | fastRetransmit _ _ _ _ _ _ _ out | resend _ _ _ _ _ out =>
    exact .inl (out.closed.symm.trans closed)
  | finish ack heard done => exact .inr ⟨ack, heard, done⟩
  | offer _ _ _ still => exact .inl (still closed)
  | update | clear | newack | exitRecovery | partialAck | newtimer | goBack | spuriousTimeout | ecn
  | leaveQuickStart | answerQuickStart | timeout | delsndExpires => exact .inl closed

/-- When a transfer closes, everything handed over so far is acknowledged. -/
theorem Transfer.Acts.closes (path : Transfer.Acts S stimulus c d) (plain : S.Plain)
    (honest : stimulus.Honest c.maxseq) (orderly : Orderly laws c) (open_ : c.closed = false)
    (closed : d.closed = true) : d.curseq - 1 ≤ d.highestAck := by
  suffices kept : Orderly laws d ∧ c.Extends stimulus d ∧
      (d.closed = true → ∃ ack, stimulus = .ack ack ∧ d.curseq - 1 ≤ d.highestAck) by
    obtain ⟨-, -, finished⟩ := kept
    exact (finished closed).elim fun _ done => done.2
  refine path.invariant (I := fun d => Orderly laws d ∧ c.Extends stimulus d ∧
    (d.closed = true → ∃ ack, stimulus = .ack ack ∧ d.curseq - 1 ≤ d.highestAck))
    ⟨orderly, .refl, fun closed => absurd (open_.symm.trans closed) Bool.false_ne_true⟩ ?_
  rintro d e ⟨before, extended, finished⟩ act
  have still : stimulus.Honest d.maxseq :=
    ⟨honest.1, fun ack heard => (honest.2 ack heard).mono extended.maxseq⟩
  have more := act.extends plain before
  refine ⟨act.orderly plain still before, extended.trans more, fun closed => ?_⟩
  rcases act.closes closed with old | new
  -- after that the data stays, and the acknowledged part does not shrink
  · obtain ⟨ack, heard, done⟩ := finished old
    have same := more.curseq (heard ▸ rfl) (still.2 ack heard).started
    exact ⟨ack, heard, by rw [same]; exact done.trans more.highestAck⟩
  · exact new

/-! ### A new sender -/

theorem orderly_fresh (plain : S.Plain) : Orderly laws (fresh S).transfer where
  lastAck_ge := le_refl _
  lastAck_le := le_refl _
  highestAck_le := le_refl _
  tSeqno_nonneg := le_refl _
  tSeqno_le := le_refl _
  recover_ge := show (-1 : Int) ≤ 0 by decide
  recover_le := .inr rfl
  normal := fun _ => rfl
  recovering := nofun
  data := .inr rfl
  window := by
    have wnd := plain.wnd
    simp only [Agent.transfer, fresh]
    push_cast
    linarith
  below := laws.empty _
  numbers := nofun
  contiguous := fun n low high => absurd (low.trans high) (show ¬ (0 : Int) ≤ -1 by decide)

end Saps.Tcp
