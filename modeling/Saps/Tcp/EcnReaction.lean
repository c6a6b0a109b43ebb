import Saps.Library.History
import Saps.Tcp.Refinement
import Saps.Tcp.SegmentBoard

/-!
# ECN reactions and the window of data

`ecn()` means to react once per window of data, and guards itself with `recover_`.
Fast recovery shares that variable: its end sets it to 0, and an ACK that was
overtaken by the one that ended the recovery can then cut the window again.
-/
namespace Saps.Tcp

open History

/-- After these nothing is promised: a timeout restarts the window of data, and
F-RTO moves `recover_` back. -/
def Entry.EndsWindow : Entry → Prop
  | .rto _ _ => True
  | .spuriousTimeout => True
  | _ => False

/-- A reaction at `maxseq_ = m` still guards: `recover_` is no lower, unless an ACK
past `m` has ended a fast recovery since. -/
structure Guarded (m : Int) (later : List Entry) (l : Ledger) : Prop where
  action : l.lastCwndAction ≠ .timeout
  sent : m ≤ l.maxseq
  recover : m ≤ l.recover ∨ ∃ q, .recoveryExit q ∈ later ∧ m ≤ q

/-- The second of two reactions comes for an ACK past the first one's window of
data, if it is also past the ACKs that ended fast recoveries between them. -/
def ReactionsApart (e : Entry) (between : List Entry) (x : Entry) : Prop :=
  ∀ first m second n, e = .ecnReaction first m → x = .ecnReaction second n →
    (∀ q, .recoveryExit q ∈ between → q < second) → m < second

structure EcnGuarded (l : Ledger) : Prop where
  standing : Standing Entry.EndsWindow
    (fun _ e later s => ∀ seqno m, e = .ecnReaction seqno m → Guarded m later s) l.entries l
  spaced : Spaced Entry.EndsWindow (fun _ => ReactionsApart) l.entries

namespace EcnGuarded

variable {l m : Ledger} {x : Entry}

theorem move (sound : EcnGuarded l) (same : m.entries = l.entries)
    (kept : ∀ n later, Guarded n later l → Guarded n later m) : EcnGuarded m where
  standing := by
    rw [same]
    exact sound.standing.move fun _ _ later bond seqno n reaction =>
      kept n later (bond seqno n reaction)
  spaced := same ▸ sound.spaced

/-- An entry other than a reaction, recorded while the guard is kept or given up. -/
theorem extend (sound : EcnGuarded l) (recorded : m.entries = l.entries ++ [x])
    (other : ∀ seqno n, x ≠ .ecnReaction seqno n)
    (kept : ¬ x.EndsWindow → ∀ n later, Guarded n later l → Guarded n (later ++ [x]) m) :
    EcnGuarded m where
  standing := by
    rw [recorded]
    apply sound.standing.extend
    · intro _ e later _ going bond seqno n reaction
      exact kept going n later (bond seqno n reaction)
    · intro seqno n reaction
      exact absurd reaction (other seqno n)
  spaced := by
    rw [recorded]
    apply sound.spaced.extend
    intro _ e later _ _ first n second k _ reaction
    exact absurd reaction (other second k)

theorem react (sound : EcnGuarded l) {seqno : Int}
    (due : l.recover < seqno ∨ l.lastCwndAction = .timeout) : EcnGuarded (l.ecnReaction seqno) where
  standing := by
    apply sound.standing.extend
    · intro _ e later _ _ bond first n reaction
      have guarded := bond first n reaction
      exact ⟨nofun, guarded.sent, .inl guarded.sent⟩
    · intro first n reaction
      cases reaction
      exact ⟨nofun, le_rfl, .inl le_rfl⟩
  spaced := by
    apply sound.spaced.extend
    intro earlier e later split free first n second k reaction now exits
    cases now
    have guarded := sound.standing earlier e later split free first n reaction
    -- the ACK passed the test on `recover_`: the guard is what it passed, or was taken down
    have past : l.recover < seqno := due.resolve_right guarded.action
    rcases guarded.recover with covered | ⟨q, exited, reached⟩
    · omega
    · have := exits q exited
      omega

end EcnGuarded

/-- An older guard also stands over a longer history. -/
theorem Guarded.weaken {n : Int} {later : List Entry} {l m : Ledger} {x : Entry}
    (guarded : Guarded n later l) (action : m.lastCwndAction = l.lastCwndAction)
    (sent : l.maxseq ≤ m.maxseq) (recover : m.recover = l.recover) :
    Guarded n (later ++ [x]) m where
  action := action ▸ guarded.action
  sent := guarded.sent.trans sent
  recover := by
    rcases guarded.recover with covered | ⟨q, exited, reached⟩
    · exact .inl (recover ▸ covered)
    · exact .inr ⟨q, List.mem_append_left _ exited, reached⟩

theorem QuietAct.ecnGuarded {dctcp : Bool} {l m : Ledger} (sound : EcnGuarded l)
    (act : QuietAct dctcp l m) : EcnGuarded m := by
  cases act with
  | sent p =>
    have raised : l.maxseq ≤ (l.sent dctcp p).maxseq := by
      show l.maxseq ≤ if p.seqno > l.maxseq then p.seqno else l.maxseq
      split <;> omega
    exact sound.extend rfl (by simp) fun _ n later guarded => guarded.weaken rfl raised rfl
  | slowedDown how win cwnd ssthresh =>
    exact sound.extend rfl (by simp) fun _ n later guarded => guarded.weaken rfl le_rfl rfl
  | ecnReaction seqno due => exact sound.react due
  | dupack =>
    exact sound.move rfl fun n later guarded => ⟨nofun, guarded.sent, guarded.recover⟩
  | enterRecovery =>
    exact sound.move rfl fun n later guarded => ⟨guarded.action, guarded.sent, .inl guarded.sent⟩
  | recoveryExit seqno passed =>
    -- `recover_` drops to 0, but the ACK that did it was past the guard
    refine sound.extend rfl (by simp) fun _ n later guarded => ?_
    refine ⟨guarded.action, guarded.sent, .inr ?_⟩
    rcases guarded.recover with covered | ⟨q, exited, reached⟩
    · exact ⟨seqno, by simp, covered.trans passed⟩
    · exact ⟨q, List.mem_append_left _ exited, reached⟩
  | spuriousTimeout recover =>
    exact sound.extend rfl (by simp) fun going => absurd trivial going
  | rto tSeqno => exact sound.extend rfl (by simp) fun going => absurd trivial going

theorem Act.ecnGuarded {dctcp : Bool} {g : ℚ} {l m : Ledger} (sound : EcnGuarded l)
    (act : Act dctcp g l m) : EcnGuarded m := by
  cases act with
  | quiet act => exact act.ecnGuarded sound
  | counted seqno acked ecnbit =>
    exact sound.extend rfl (by simp) fun _ n later guarded => guarded.weaken rfl le_rfl rfl
  | alphaUpdate seqno acked ecnbit =>
    have counted : EcnGuarded (l.counted seqno acked ecnbit) :=
      sound.extend rfl (by simp) fun _ n later guarded => guarded.weaken rfl le_rfl rfl
    exact counted.extend rfl (by simp) fun _ n later guarded => guarded.weaken rfl le_rfl rfl

variable {σ : Type}

/-- The sender reacts to ECN-Echo at most once per window of data: the ACK of the next reaction is
for more than had been sent at the last one. It takes that there is no timeout in between, that none
is found spurious, and that no recovery ends there at the number of the next reaction or above. -/
theorem ecnReaction_oncePerWindow (S : Setup σ) (start : Agent σ) (inputs : Nat → Input) (k : Nat)
    (a : Agent σ) (new : start.entries = []) (reached : agentAt S start inputs k = .ok a)
    (earlier between later : List Entry) (first m second n : Int)
    (history : a.entries = earlier ++ .ecnReaction first m ::
      (between ++ .ecnReaction second n :: later))
    (noTimeout : ∀ tSeqno maxseq, .rto tSeqno maxseq ∉ between)
    (noRevert : .spuriousTimeout ∉ between)
    (overtaking : ∀ q, .recoveryExit q ∈ between → q < second) : m < second := by
  have initial : EcnGuarded start.toLedger :=
    ⟨new ▸ standing_nil, new ▸ spaced_nil⟩
  have sound : EcnGuarded a.toLedger :=
    agentAt_invariant initial (fun _ _ before act => act.ecnGuarded before) reached
  refine sound.spaced earlier _ between _ later history ?_ first m second n rfl rfl overtaking
  -- nothing between the two reactions ends the window of data
  intro e inside ends
  cases e with
  | rto tSeqno maxseq => exact noTimeout tSeqno maxseq inside
  | spuriousTimeout => exact noRevert inside
  | _ => exact ends

/-! ### An overtaken ACK -/

/-- A duplicate ACK that reports the segments from 5 up to `top`. -/
def duplicateOf (seqno top : Int) (ecnecho : Bool) : Stimulus :=
  .ack { seqno, ecnecho, sackArea := [(5, top)] }

/-- Packet 4 is lost after the window was cut for ACK 3; the retransmission ends the
fast recovery with ACK 8. -/
def recoveryAfterEcn : List Stimulus :=
  [.advanceby 100, ackFor 0, ackFor 1, ackFor 2, ackWithEcho 3, duplicateOf 3 6 false,
    duplicateOf 3 7 false, duplicateOf 3 8 false, ackFor 8]

/-- No timeout, whether or not it was taken back, and no end of a fast recovery but by ACK 8. -/
def Entry.mild : Entry → Bool
  | .rto _ _ | .spuriousTimeout => false
  | .recoveryExit q => decide (q = 8)
  | _ => true

theorem ecnReaction_oncePerWindow_recoveryAfterEcn : ∃ a earlier between later,
    afterScript (recoveryAfterEcn ++ [ackWithEcho 9]) = .ok a ∧
      a.entries = earlier ++ .ecnReaction 3 6 :: (between ++ .ecnReaction 9 9 :: later) ∧
      .recoveryExit 8 ∈ between ∧ (6 : Int) < 9 := by
  obtain ⟨a, reached, found⟩ := DrivenRun.exists_of_any
    (x := afterScript (recoveryAfterEcn ++ [ackWithEcho 9]))
    (p := fun a => decide (a.entries = a.entries.take 13 ++ .ecnReaction 3 6 ::
        (entriesBetween a 14 28 ++ .ecnReaction 9 9 :: a.entries.drop 29)) &&
      (entriesBetween a 14 28).all Entry.mild &&
      decide (.recoveryExit 8 ∈ entriesBetween a 14 28))
    (by decide +kernel)
  simp only [Bool.and_eq_true, decide_eq_true_eq, List.all_eq_true] at found
  obtain ⟨⟨split, plain⟩, exited⟩ := found
  refine ⟨a, _, _, _, reached, split, exited, ?_⟩
  refine ecnReaction_oncePerWindow dctcpSetup (fresh dctcpSetup) _ _ a rfl reached _ _ _ 3 6 9 9
    split ?_ ?_ ?_
  · intro tSeqno maxseq member
    cases plain _ member
  · intro member
    cases plain _ member
  · intro q member
    have only : q = 8 := by simpa [Entry.mild] using plain _ member
    omega

/-- The last duplicate ACK of packet 3 arrives after ACK 8 has ended the fast recovery. -/
theorem overtakenEcho_reactsAgain : ∃ a earlier between later,
    afterScript (recoveryAfterEcn ++ [duplicateOf 3 9 true]) = .ok a ∧
      a.entries = earlier ++ .ecnReaction 3 6 :: (between ++ .ecnReaction 3 9 :: later) ∧
      (∀ tSeqno maxseq, .rto tSeqno maxseq ∉ between) ∧ ¬(6 : Int) < 3 := by
  obtain ⟨a, reached, found⟩ := DrivenRun.exists_of_any
    (x := afterScript (recoveryAfterEcn ++ [duplicateOf 3 9 true]))
    (p := fun a => decide (a.entries = a.entries.take 13 ++ .ecnReaction 3 6 ::
        (entriesBetween a 14 27 ++ .ecnReaction 3 9 :: a.entries.drop 28)) &&
      (entriesBetween a 14 27).all Entry.mild)
    (by decide +kernel)
  simp only [Bool.and_eq_true, decide_eq_true_eq, List.all_eq_true] at found
  refine ⟨a, _, _, _, reached, found.1, ?_, by decide⟩
  intro tSeqno maxseq member
  cases found.2 _ member

end Saps.Tcp
