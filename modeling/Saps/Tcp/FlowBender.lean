import Mathlib.Algebra.Order.BigOperators.Group.List
import Mathlib.Algebra.Order.Field.Rat
import Saps.Library.RunLengths
import Saps.Tcp.FlowBenderFrame
import Saps.Tcp.SegmentBoard

/-!
# How often FlowBender reroutes

FlowBender judges each epoch by the ACKs since the last epoch or timeout. Every
`flowBender_N` congested epochs in a row change the path, and so does every timeout.
Histories are lists of signals, the newest one first.
-/
namespace Saps.Tcp

open RunLengths

/-- What the counters of FlowBender hear. -/
inductive Signal where
  /-- An ACK was counted for this many packets. -/
  | acked (packets : Nat) (marked : Bool)
  | epoch
  | timeout
deriving DecidableEq, Repr

namespace FlowBender

/-! ### The rule -/

/-- The ACKs since the last epoch or timeout. -/
def acksSince : List Signal → List (Nat × Bool)
  | .acked packets marked :: earlier => (packets, marked) :: acksSince earlier
  | _ => []

def packets (acks : List (Nat × Bool)) : Nat := (acks.map Prod.fst).sum

def markedPackets (acks : List (Nat × Bool)) : Nat := packets (acks.filter Prod.snd)

/-- The marked fraction of an epoch that ends after these signals. -/
def fraction (earlier : List Signal) : ℚ :=
  (markedPackets (acksSince earlier) : ℚ) / packets (acksSince earlier)

/-- The epoch is congested: the fraction, as a double, is above the threshold. -/
def Congested (T : ℚ) (earlier : List Signal) : Prop :=
  0 < packets (acksSince earlier) ∧ T < double (fraction earlier)

instance (T : ℚ) (earlier : List Signal) : Decidable (Congested T earlier) :=
  inferInstanceAs (Decidable (_ ∧ _))

/-- The epochs, marked if they are congested. A timeout is a gap between them. -/
def epochs (T : ℚ) : List Signal → List Bool
  | [] => []
  | .acked _ _ :: earlier => epochs T earlier
  | .epoch :: earlier => decide (Congested T earlier) :: epochs T earlier
  | .timeout :: earlier => false :: epochs T earlier

def timeouts (signals : List Signal) : Nat := signals.count .timeout

/-- Against a threshold that is a double, the exact fraction says the same unless it is rounded to
the threshold. -/
theorem congested_iff {T : ℚ} {earlier : List Signal} (nonneg : 0 ≤ T)
    (threshold : NearestEven.Representable 53 T) :
    Congested T earlier ↔
      0 < packets (acksSince earlier) ∧ T < fraction earlier ∧ double (fraction earlier) ≠ T := by
  refine and_congr_right fun some => ?_
  rcases (show 0 ≤ fraction earlier by rw [fraction]; positivity).eq_or_lt with none | marked
  · rw [← none]
    simp [double, NearestEven.nearest, NearestEven.roundEven, nonneg]
  · exact NearestEven.lt_nearest_iff marked threshold (by decide)

/-- Three marked packets of ten are not more than the double next to 0.3, which is below it. -/
example : let T : ℚ := 5404319552844595 / 2 ^ 54
    T < 3 / 10 ∧ ¬ Congested T [.acked 3 true, .acked 7 false] := by
  decide +kernel

theorem markedPackets_le (acks : List (Nat × Bool)) : markedPackets acks ≤ packets acks :=
  (List.filter_sublist.map Prod.fst).sum_le_sum fun _ _ => Nat.zero_le _

/-! ### The counters -/

variable {σ : Type} (S : Setup σ)

/-- The three handlers, on the counters alone. -/
def hear (signal : Signal) (f : FlowBender) : FlowBender :=
  match signal with
  | .acked packets marked =>
    { f with
      totalAckPkts := f.totalAckPkts + packets
      markedAckPktsF := if marked then f.markedAckPktsF + packets else f.markedAckPktsF }
  | .epoch =>
    if f.totalAckPkts > 0 ∧ double (f.markedAckPktsF / f.totalAckPkts) > S.flowBenderT then
      if f.numRTTsCongested + 1 ≥ S.flowBenderN then ⟨f.defttl + 1, 0, 0, 0⟩
      else ⟨f.defttl, 0, 0, f.numRTTsCongested + 1⟩
    else ⟨f.defttl, 0, 0, 0⟩
  | .timeout => ⟨f.defttl + 1, 0, 0, 0⟩

/-- The counters say what the history says. -/
structure Rerouted (initial : Int) (N : Nat) (signals : List Signal) (f : FlowBender) : Prop where
  defttl : f.defttl = initial + timeouts signals + groups N (epochs S.flowBenderT signals)
  congested : f.numRTTsCongested = leftOver N (epochs S.flowBenderT signals)
  total : f.totalAckPkts = packets (acksSince signals)
  marked : f.markedAckPktsF = markedPackets (acksSince signals)

variable {S} {initial : Int} {N : Nat} {signals : List Signal} {f : FlowBender}

theorem Rerouted.acked (rerouted : Rerouted S initial N signals f) (n : Nat) (marked : Bool) :
    Rerouted S initial N (.acked n marked :: signals) (f.hear S (.acked n marked)) := by
  refine ⟨rerouted.defttl, rerouted.congested, ?_, ?_⟩
  · simp only [hear, acksSince, packets, List.map_cons, List.sum_cons, rerouted.total]
    push_cast
    exact Int.add_comm _ _
  · cases marked with
    | false => exact rerouted.marked
    | true =>
      simp only [hear, if_true, acksSince, markedPackets, packets, List.filter_cons_of_pos,
        List.map_cons, List.sum_cons, rerouted.marked]
      push_cast
      exact Int.add_comm _ _

theorem Rerouted.timeout (rerouted : Rerouted S initial N signals f) :
    Rerouted S initial N (.timeout :: signals) (f.hear S .timeout) := by
  refine ⟨?_, ?_, rfl, rfl⟩
  · simp only [hear, rerouted.defttl, timeouts, epochs, List.count_cons_self, groups_gap]
    omega
  · simp [hear, epochs]

theorem Rerouted.epoch (rerouted : Rerouted S initial N signals f) (positive : 0 < N)
    (enough : S.flowBenderN = N) :
    Rerouted S initial N (.epoch :: signals) (f.hear S .epoch) := by
  have judged : f.totalAckPkts > 0 ∧ double (f.markedAckPktsF / f.totalAckPkts) > S.flowBenderT ↔
      Congested S.flowBenderT signals := by
    rw [rerouted.total, rerouted.marked, Congested, fraction]
    simp
  have same : timeouts (.epoch :: signals) = timeouts signals := List.count_cons_of_ne (by decide)
  have below := @leftOver_lt N (epochs S.flowBenderT signals) positive
  rw [hear]
  by_cases congested : Congested S.flowBenderT signals
  · have mark : epochs S.flowBenderT (.epoch :: signals) = true :: epochs S.flowBenderT signals := by
      rw [epochs, decide_eq_true congested]
    rw [if_pos (judged.mpr congested)]
    by_cases full : leftOver N (epochs S.flowBenderT signals) + 1 = N
    · -- the last of `N` in a row
      obtain ⟨restarts, group⟩ := mark_full full
      rw [if_pos (by rw [rerouted.congested, enough]; omega)]
      refine ⟨?_, ?_, rfl, rfl⟩
      · rw [same, mark, group, rerouted.defttl]
        push_cast
        omega
      · rw [mark, restarts]
        rfl
    · obtain ⟨counts, group⟩ :=
        @mark_counted N (epochs S.flowBenderT signals) (by omega)
      rw [if_neg (by rw [rerouted.congested, enough]; omega)]
      refine ⟨?_, ?_, rfl, rfl⟩
      · rw [same, mark, group]
        exact rerouted.defttl
      · rw [mark, counts, rerouted.congested]
        rfl
  · have gap : epochs S.flowBenderT (.epoch :: signals) = false :: epochs S.flowBenderT signals := by
      rw [epochs, decide_eq_false congested]
    rw [if_neg (mt judged.mp congested)]
    refine ⟨?_, ?_, rfl, rfl⟩
    · rw [same, gap, groups_gap]
      exact rerouted.defttl
    · rw [gap, leftOver_gap]
      rfl

theorem Rerouted.hear (rerouted : Rerouted S initial N signals f) (positive : 0 < N)
    (enough : S.flowBenderN = N) (signal : Signal) :
    Rerouted S initial N (signal :: signals) (f.hear S signal) := by
  cases signal with
  | acked n marked => exact rerouted.acked n marked
  | epoch => exact rerouted.epoch positive enough
  | timeout => exact rerouted.timeout

end FlowBender

/-! ### The sender -/

variable {σ : Type} {S : Setup σ} {a b : Agent σ}

/-- The signal that an input is to FlowBender. -/
def signal (i : Input) (a : Agent σ) : Option Signal :=
  match i.stimulus with
  | .ack ack =>
    if ack.ts < a.lastreset then none
    else some (.acked (ackedBytes ack a).toNat ack.ecnecho)
  | .rtxExpires => some .timeout
  | .flBndrExpires => some .epoch
  | _ => none

theorem estimate_flowBender (dctcp : S.dctcp = true) (ack : Ack) :
    (estimate S ack a).toFlowBender =
      a.toFlowBender.hear S (.acked (ackedBytes ack a).toNat ack.ecnecho) := by
  have positive := @ackedBytes_pos σ a ack
  have counted : (countAck ack a).toFlowBender =
      a.toFlowBender.hear S (.acked (ackedBytes ack a).toNat ack.ecnecho) := by
    simp only [countAck, FlowBender.hear, Int.toNat_of_nonneg (show 0 ≤ ackedBytes ack a by omega)]
    rfl
  have moved (c : Agent σ) (seqno : Int) : (moveAlpha S seqno c).toFlowBender = c.toFlowBender := rfl
  simp only [estimate, if_pos dctcp, updateDctcpAlpha]
  split
  · rw [moved]
    exact counted
  · exact counted

theorem recv_flowBender (dctcp : S.dctcp = true) {turns : Nat} {ack : Ack} {now : ℚ}
    (received : recv S turns ack now a = .ok b) :
    b.toFlowBender = if ack.ts < a.lastreset then a.toFlowBender
      else a.toFlowBender.hear S (.acked (ackedBytes ack a).toNat ack.ecnecho) := by
  have sequence := @beginAck_sequence σ S a ack
  have heard : (hearFeedback S ack (beginAck S ack a)).toFlowBender =
      a.toFlowBender.hear S (.acked (ackedBytes ack a).toNat ack.ecnecho) := by
    have same : ackedBytes ack (beginAck S ack a) = ackedBytes ack a := by
      simp only [ackedBytes, congrArg Sequence.highestAck sequence]
    have estimated := @estimate_flowBender σ S (beginAck S ack a) dctcp ack
    rw [same, beginAck_flowBender] at estimated
    simp only [hearFeedback]
    split <;> simp [estimated]
  simp only [recv, congrArg Sequence.lastreset sequence] at received
  split_ifs at received ⊢
  · cases received
    exact beginAck_flowBender ack
  -- an ACK in recovery or outside, each with packets sent for it or not
  · rw [sendMuch_flowBender received, recvRecovering_flowBender, heard]
  · cases received
    rw [recvRecovering_flowBender, heard]
  · rw [sendMuch_flowBender received, recvNormal_flowBender, heard]
  · cases received
    rw [recvNormal_flowBender, heard]

theorem beginTimeout_flowBender (flowBender : S.flowBender = true) :
    (beginTimeout S a).toFlowBender = a.toFlowBender.hear S .timeout := by
  simp only [beginTimeout, rerouteOnTimeout, if_pos flowBender]
  rfl

theorem checkCongestionFB_flowBender :
    (checkCongestionFB S a).toFlowBender = a.toFlowBender.hear S .epoch := by
  simp only [checkCongestionFB, FlowBender.hear]
  -- with no packets the fraction is not looked at
  by_cases some : a.totalAckPkts > 0
  · simp only [if_pos some]
    split_ifs <;> rfl
  · simp only [some, false_and, if_false]

/-- Every input changes FlowBender's counters by the signal that it is, or not at all. -/
theorem respond_flowBender (flowBender : S.flowBender = true) (dctcp : S.dctcp = true) {i : Input}
    (answer : respond S i a = .ok b) :
    b.toFlowBender = (signal i a).elim a.toFlowBender (FlowBender.hear S · a.toFlowBender) := by
  simp only [respond] at answer
  cases stimulus : i.stimulus with
  | ack ack =>
    simp only [stimulus] at answer
    simp only [signal, stimulus]
    rw [recv_flowBender dctcp answer]
    split <;> rfl
  | rtxExpires =>
    simp only [stimulus] at answer
    simp only [signal, stimulus]
    split at answer
    · obtain ⟨c, sent, done⟩ := DrivenRun.bind_eq_ok.mp answer
      cases done
      rw [overruleFrto_flowBender, sendMuch_flowBender sent, closeWindow_flowBender]
      exact beginTimeout_flowBender flowBender
    · cases answer
  | delsndExpires =>
    simp only [stimulus] at answer
    simp only [signal, stimulus]
    split at answer
    · obtain ⟨c, sent, done⟩ := DrivenRun.bind_eq_ok.mp answer
      cases done
      have same := sendMuch_flowBender sent
      rw [overruleFrto_flowBender]
      exact same
    · cases answer
  | flBndrExpires =>
    simp only [stimulus] at answer
    simp only [signal, stimulus]
    split at answer
    · cases answer
      rw [timeoutFlowBender, overruleFrto_flowBender]
      exact checkCongestionFB_flowBender
    · cases answer
  | sendmsg nbytes =>
    simp only [stimulus] at answer
    simp only [signal, stimulus]
    simp only [sendmsg] at answer
    have same := sendMuch_flowBender answer
    exact same
  | advanceby delta =>
    simp only [stimulus, advanceby] at answer
    simp only [signal, stimulus]
    split at answer
    all_goals
      have same := sendMuch_flowBender answer
      exact same

/-- The signals of the first `k` inputs of a run, the newest one first. -/
def signalsAt (S : Setup σ) (inputs : Nat → Input) : Nat → List Signal
  | 0 => []
  | k + 1 =>
    match agentAt S (fresh S) inputs k with
    | .ok a => (signal (inputs k) a).toList ++ signalsAt S inputs k
    | .error _ => signalsAt S inputs k

theorem agentAt_rerouted (flowBender : S.flowBender = true) (dctcp : S.dctcp = true) {N : Nat}
    (positive : 0 < N) (enough : S.flowBenderN = N) {inputs : Nat → Input} {k : Nat}
    (reached : agentAt S (fresh S) inputs k = .ok b) :
    FlowBender.Rerouted S S.defttl N (signalsAt S inputs k) b.toFlowBender := by
  induction k generalizing b with
  | zero =>
    cases reached
    refine ⟨?_, rfl, rfl, rfl⟩
    show S.defttl = S.defttl + (0 : Nat) + (groups N [] : Nat)
    rw [groups_nil]
    simp
  | succ k ih =>
    obtain ⟨a, o, before, answer⟩ := DrivenRun.stateAt_succ_iff.mp reached
    have state : agentAt S (fresh S) inputs k = .ok a := before
    have earlier := ih state
    rw [respond_flowBender flowBender dctcp (step_ok answer)]
    simp only [signalsAt, state]
    -- an input that is no signal leaves the counters
    cases signal (inputs k) a with
    | none => exact earlier
    | some heard => exact earlier.hear positive enough heard

/-- FlowBender changes the path with every timeout and with every `flowBender_N` congested epochs
in a row, and at no other time. -/
theorem flowBender_reroutes (S : Setup σ) (flowBender : S.flowBender = true)
    (dctcp : S.dctcp = true) (enough : 1 ≤ S.flowBenderN) (inputs : Nat → Input) (k : Nat)
    (reached : agentAt S (fresh S) inputs k = .ok b) :
    b.defttl = S.defttl + FlowBender.timeouts (signalsAt S inputs k) +
        groups S.flowBenderN.toNat (FlowBender.epochs S.flowBenderT (signalsAt S inputs k)) ∧
      (0 ≤ b.numRTTsCongested ∧ b.numRTTsCongested < S.flowBenderN) ∧
      0 ≤ b.markedAckPktsF ∧ b.markedAckPktsF ≤ b.totalAckPkts := by
  have rerouted := @agentAt_rerouted σ S b flowBender dctcp S.flowBenderN.toNat (by omega) (by omega)
    inputs k reached
  have below := @leftOver_lt S.flowBenderN.toNat
    (FlowBender.epochs S.flowBenderT (signalsAt S inputs k)) (by omega)
  have most := FlowBender.markedPackets_le (FlowBender.acksSince (signalsAt S inputs k))
  refine ⟨rerouted.defttl, ?_, ?_⟩
  · rw [rerouted.congested]
    omega
  · rw [rerouted.marked, rerouted.total]
    omega

/-! ### Two congested epochs -/

def flowBenderSetup : Setup SackedSegments :=
  { dctcpSetup with
    flowBender := true
    flowBenderT := 1 / 20
    flowBenderN := 2 }

/-- Every ACK of two epochs is marked, and then the retransmission timer expires. -/
def twoCongestedEpochs : List Stimulus :=
  [.advanceby 10, ackWithEcho 0, .flBndrExpires, ackWithEcho 1, .flBndrExpires, ackFor 2,
    .rtxExpires]

theorem flowBender_reroutes_twice : ∃ b,
    agentAt flowBenderSetup (fresh flowBenderSetup) (scripted twoCongestedEpochs) 7 = .ok b ∧
      b.defttl = 32 + FlowBender.timeouts (signalsAt flowBenderSetup (scripted twoCongestedEpochs) 7) +
        groups 2 (FlowBender.epochs (1 / 20)
          (signalsAt flowBenderSetup (scripted twoCongestedEpochs) 7)) ∧
      b.defttl = 34 := by
  obtain ⟨b, reached, twice⟩ := DrivenRun.exists_of_any
    (x := agentAt flowBenderSetup (fresh flowBenderSetup) (scripted twoCongestedEpochs) 7)
    (p := fun b => decide (b.defttl = 34)) (by decide +kernel)
  have rerouted := flowBender_reroutes flowBenderSetup rfl rfl (by decide) _ 7 reached
  exact ⟨b, reached, rerouted.1, of_decide_eq_true twice⟩

end Saps.Tcp
