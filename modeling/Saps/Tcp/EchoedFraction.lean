import Mathlib.Data.List.DropRight
import Saps.Library.Latch
import Saps.Tcp.Connection
import Saps.Tcp.SegmentBoard

/-!
# The marked fraction that the sender sees

The sink echoes a mark on every ACK until a packet with CWR arrives, so the
estimate follows the fraction of packets between a mark and its CWR. It is the
fraction of marked packets iff CWR comes right after each mark.
-/
namespace Saps.Tcp

open History Latch

/-! ### What the estimator has heard -/

/-- The ECN-Echo bits of the ACKs that `update_dctcp_alpha()` counted. -/
def echoes (entries : List Entry) : List Bool :=
  entries.filterMap fun
    | .counted _ _ ecnbit => some ecnbit
    | _ => none

/-- The history up to the last update, and what came after it. -/
def untilUpdate (entries : List Entry) : List Entry :=
  entries.rdropWhile fun e => !decide e.IsUpdate

def afterUpdate (entries : List Entry) : List Entry :=
  entries.rtakeWhile fun e => !decide e.IsUpdate

/-- What belongs to the ACKs counted since the last update, of things in the order of the ACKs. -/
def sinceUpdate {α : Type} (entries : List Entry) (xs : List α) : List α :=
  (xs.take (echoes entries).length).drop (echoes (untilUpdate entries)).length

theorem sinceUpdate_length {α β : Type} {entries : List Entry} {xs : List α} {ys : List β}
    (same : xs.length = ys.length) :
    (sinceUpdate entries xs).length = (sinceUpdate entries ys).length := by
  simp only [sinceUpdate]
  simp only [List.length_drop, List.length_take, same]

theorem sinceUpdate_map {α β : Type} (f : α → β) (entries : List Entry) (xs : List α) :
    sinceUpdate entries (xs.map f) = (sinceUpdate entries xs).map f := by
  simp only [sinceUpdate]
  rw [← List.map_take, ← List.map_drop]

/-- Of the echoes of a whole history those since the last update of an earlier one are the
echoes that came after that update. -/
theorem sinceUpdate_echoes (entries later : List Entry) :
    sinceUpdate entries (echoes (entries ++ later)) = echoes (afterUpdate entries) := by
  have whole : echoes entries = echoes (untilUpdate entries) ++ echoes (afterUpdate entries) := by
    rw [untilUpdate, afterUpdate, echoes, echoes, echoes, ← List.filterMap_append,
      List.rdropWhile_append_rtakeWhile]
  simp only [sinceUpdate]
  rw [show echoes (entries ++ later) = echoes entries ++ echoes later from List.filterMap_append,
    List.take_left, whole, List.drop_left]

/-- An update reports the ACKs counted since the previous one, and the echoes among them. -/
def Reports (earlier : List Entry) : Entry → Prop
  | .alphaUpdate _ marked total _ =>
    total = (echoes (afterUpdate earlier)).length ∧
      marked = (echoes (afterUpdate earlier)).count true
  | _ => True

/-- The estimator has heard these bits, one packet each. -/
structure Tallied (l : Ledger) (heard : List Bool) : Prop where
  echoes_eq : echoes l.entries = heard
  total_eq : l.dctcpTotal = (echoes (afterUpdate l.entries)).length
  marked_eq : l.dctcpMarked = (echoes (afterUpdate l.entries)).count true
  updates : Justified Reports l.entries

namespace Tallied

variable {l m : Ledger} {heard : List Bool} {x : Entry}

theorem move (tallied : Tallied l heard) (entries : m.entries = l.entries)
    (total : m.dctcpTotal = l.dctcpTotal) (marked : m.dctcpMarked = l.dctcpMarked) :
    Tallied m heard where
  echoes_eq := by rw [entries, tallied.echoes_eq]
  total_eq := by rw [entries, total, tallied.total_eq]
  marked_eq := by rw [entries, marked, tallied.marked_eq]
  updates := by
    rw [entries]
    exact tallied.updates

/-- An entry that is neither an update nor an ACK counted. -/
theorem record (tallied : Tallied l heard) (entries : m.entries = l.entries ++ [x])
    (total : m.dctcpTotal = l.dctcpTotal) (marked : m.dctcpMarked = l.dctcpMarked)
    (other : ¬ x.IsUpdate) (silent : echoes [x] = []) (right : Reports l.entries x) :
    Tallied m heard := by
  have after : afterUpdate (l.entries ++ [x]) = afterUpdate l.entries ++ [x] :=
    List.rtakeWhile_concat_pos _ _ _ (by simpa using other)
  have same : echoes (afterUpdate (l.entries ++ [x])) = echoes (afterUpdate l.entries) := by
    rw [after, echoes, List.filterMap_append]
    exact (congrArg _ silent).trans (List.append_nil _)
  refine ⟨?_, ?_, ?_, ?_⟩
  · rw [entries, ← tallied.echoes_eq, echoes, List.filterMap_append]
    exact (congrArg _ silent).trans (List.append_nil _)
  · rw [entries, same, total, tallied.total_eq]
  · rw [entries, same, marked, tallied.marked_eq]
  · rw [entries]
    exact tallied.updates.extend right

theorem counted (tallied : Tallied l heard) (seqno : Int) (ecnbit : Bool) :
    Tallied (l.counted seqno 1 ecnbit) (heard ++ [ecnbit]) := by
  have after : afterUpdate (l.entries ++ [.counted seqno 1 ecnbit]) =
      afterUpdate l.entries ++ [.counted seqno 1 ecnbit] :=
    List.rtakeWhile_concat_pos _ _ _ rfl
  have more : echoes (afterUpdate (l.entries ++ [.counted seqno 1 ecnbit])) =
      echoes (afterUpdate l.entries) ++ [ecnbit] := by
    rw [after, echoes, List.filterMap_append]
    rfl
  refine ⟨?_, ?_, ?_, tallied.updates.extend trivial⟩
  · rw [← tallied.echoes_eq]
    exact List.filterMap_append
  · show l.dctcpTotal + 1 = _
    rw [show (l.counted seqno 1 ecnbit).entries = l.entries ++ [.counted seqno 1 ecnbit] from rfl,
      more, tallied.total_eq, List.length_append, List.length_singleton]
    push_cast
    rfl
  · show (if ecnbit then l.dctcpMarked + 1 else l.dctcpMarked) = _
    rw [show (l.counted seqno 1 ecnbit).entries = l.entries ++ [.counted seqno 1 ecnbit] from rfl,
      more, tallied.marked_eq, List.count_append]
    cases ecnbit <;> simp

theorem alphaUpdate (tallied : Tallied l heard) (g : ℚ) (seqno : Int) :
    Tallied (l.alphaUpdate g seqno) heard := by
  have restarted (marked total : Int) (alpha : ℚ) :
      afterUpdate (l.entries ++ [.alphaUpdate seqno marked total alpha]) = [] :=
    List.rtakeWhile_concat_neg _ _ _ Bool.false_ne_true
  refine ⟨?_, ?_, ?_, tallied.updates.extend ⟨tallied.total_eq, tallied.marked_eq⟩⟩
  · rw [← tallied.echoes_eq]
    exact List.filterMap_append.trans (List.append_nil _)
  · exact congrArg (fun es : List Entry => ((echoes es).length : Int)) (restarted _ _ _).symm
  · exact congrArg (fun es : List Entry => ((echoes es).count true : Int)) (restarted _ _ _).symm

end Tallied

theorem QuietAct.tallied {dctcp : Bool} {l m : Ledger} {heard : List Bool}
    (tallied : Tallied l heard) (act : QuietAct dctcp l m) : Tallied m heard := by
  cases act with
  | dupack | enterRecovery => exact tallied.move rfl rfl rfl
  | sent | slowedDown | ecnReaction | recoveryExit | spuriousTimeout | rto =>
    exact tallied.record rfl rfl rfl (fun isUpdate => isUpdate) rfl trivial

/-! ### The sender hears an ACK -/

section

variable {σ : Type} {S : Setup σ} {a b : Agent σ} {heard : List Bool}

theorem Quiet.tallied (tallied : Tallied a.toLedger heard) (path : Quiet S a b) :
    Tallied b.toLedger heard :=
  QuietActs.invariant (I := (Tallied · heard)) tallied
    (fun _ _ before act => act.tallied before) path

/-- An ACK for the next packet counts as one packet, whether or not it moves the estimate. -/
theorem updateDctcpAlpha_tallied (ack : Ack) (next : ack.seqno = a.highestAck + 1)
    (tallied : Tallied a.toLedger heard) :
    Tallied (updateDctcpAlpha S ack a).toLedger (heard ++ [ack.ecnecho]) := by
  have one : ackedBytes ack a = 1 := by
    simp only [ackedBytes]
    split <;> omega
  have counted : Tallied (countAck ack a).toLedger (heard ++ [ack.ecnecho]) := by
    have ledger : (countAck ack a).toLedger =
        a.toLedger.counted ack.seqno (ackedBytes ack a) ack.ecnecho := rfl
    rw [ledger, one]
    exact tallied.counted ack.seqno ack.ecnecho
  simp only [updateDctcpAlpha]
  split
  · exact counted.alphaUpdate S.dctcpG ack.seqno
  · exact counted

theorem recv_tallied {turns : Nat} {ack : Ack} {now : ℚ} (dctcp : S.dctcp = true)
    (current : ¬ ack.ts < a.lastreset) (next : ack.seqno = a.highestAck + 1)
    (tallied : Tallied a.toLedger heard) (received : recv S turns ack now a = .ok b) :
    Tallied b.toLedger (heard ++ [ack.ecnecho]) := by
  have sequence := beginAck_sequence (S := S) (a := a) ack
  have lastreset : (beginAck S ack a).lastreset = a.lastreset := congrArg Sequence.lastreset sequence
  have highestAck : (beginAck S ack a).highestAck = a.highestAck :=
    congrArg Sequence.highestAck sequence
  have estimated : Tallied (estimate S ack (beginAck S ack a)).toLedger (heard ++ [ack.ecnecho]) := by
    simp only [estimate]
    rw [if_pos dctcp]
    refine updateDctcpAlpha_tallied ack (next.trans (by rw [highestAck])) ?_
    dsimp only
    rw [beginAck_ledger]
    exact tallied
  exact Quiet.tallied estimated (recv_quiet (lastreset ▸ current) received)

end

/-! ### Both ends -/

def Arrival.cwr (x : Arrival) : Bool := x.packet.congAction

/-- A mark among these packets that no CWR has followed. -/
def Unanswered (arrived : List Arrival) : Prop :=
  ∃ earlier x later, arrived = earlier ++ x :: later ∧ x.ce = true ∧ ∀ y ∈ later, y.cwr = false

/-- The packet after a marked one is marked too or carries CWR. -/
def AnsweredAtOnce (arrived : List Arrival) : Prop :=
  ∀ earlier x y later, arrived = earlier ++ x :: y :: later → x.ce = true →
    y.ce = true ∨ y.cwr = true

theorem TcpSink.recv_echo {K : SinkConfig} {x : Arrival} {now : ℚ} {s t : TcpSink} {nf : Ack}
    (ect : x.packet.ect = true) (received : recv K x now s = some (t, some nf)) :
    t.acker.ecnUnacked = Latch.next Arrival.ce Arrival.cwr s.acker.ecnUnacked x ∧
      nf.ecnecho = t.acker.ecnUnacked := by
  simp only [recv] at received
  split at received
  next => cases received
  next =>
    obtain ⟨⟨acker, numToDeliver⟩, updated, answer⟩ := Option.map_eq_some_iff.mp received
    cases answer
    have kept : acker.ecnUnacked = s.acker.ecnUnacked := by
      rw [Acker.update_ecnUnacked updated, Acker.updateTs_ecnUnacked]
    constructor
    · show updateEcnUnacked x acker.ecnUnacked = _
      rw [kept, updateEcnUnacked, Latch.next, Arrival.cwr, ect]
      cases x.ce <;> cases x.packet.congAction <;> simp
    · exact if_pos ect

structure Echoed {σ : Type} (c : Connection σ) : Prop where
  tallied : Tallied c.agent.toLedger ((c.acks.map Ack.ecnecho).take c.heard)
  echoes_eq : c.acks.map Ack.ecnecho = readings Arrival.ce Arrival.cwr c.arrived
  unacked_eq : c.sink.acker.ecnUnacked = after Arrival.ce Arrival.cwr c.arrived
  heard_le : c.heard ≤ c.acks.length

namespace Echoed

variable {σ : Type} {S : Setup σ} {K : SinkConfig} {c d : Connection σ}

theorem opened : Echoed (opened S) where
  tallied := ⟨rfl, rfl, rfl, justified_nil⟩
  echoes_eq := rfl
  unacked_eq := rfl
  heard_le := le_rfl

theorem senderActs (echoed : Echoed c) {i : Input} (answer : c.senderActs S i = .ok d) :
    Echoed d := by
  obtain ⟨agent, rfl, responded, noAck⟩ := Connection.senderActs_ok answer
  exact { echoed with tallied := Quiet.tallied echoed.tallied (respond_quiet noAck responded) }

theorem dataArrives (echoed : Echoed c) {now : ℚ} {ce : Bool}
    (answer : c.dataArrives K now ce = .ok d) : Echoed d := by
  obtain ⟨packet, sink, ack, rfl, ect, received⟩ := Connection.dataArrives_ok answer
  obtain ⟨unacked, echo⟩ := TcpSink.recv_echo ect received
  have shown : sink.acker.ecnUnacked =
      after Arrival.ce Arrival.cwr (c.arrived ++ [⟨packet, ce⟩]) := by
    rw [unacked, echoed.unacked_eq, after_append_singleton]
  have heard : c.heard ≤ (c.acks.map Ack.ecnecho).length := by
    rw [List.length_map]
    exact echoed.heard_le
  refine ⟨?_, ?_, shown, ?_⟩
  · -- what the sender has heard is older than the new ACK
    rw [List.map_append, List.take_append_of_le_length heard]
    exact echoed.tallied
  · rw [List.map_append, echoed.echoes_eq, readings_append_singleton, List.map_singleton, echo, shown]
  · rw [List.length_append]
    exact Nat.le_add_right_of_le echoed.heard_le

theorem ackArrives (echoed : Echoed c) (dctcp : S.dctcp = true) {now : ℚ} {turns : Nat}
    (answer : c.ackArrives S now turns = .ok d) : Echoed d := by
  obtain ⟨ack, agent, rfl, oldest, current, next, received⟩ := Connection.ackArrives_ok answer
  have inside : c.heard < c.acks.length := (List.getElem?_eq_some_iff.mp oldest).1
  have heard : (c.acks.map Ack.ecnecho).take (c.heard + 1) =
      (c.acks.map Ack.ecnecho).take c.heard ++ [ack.ecnecho] := by
    rw [List.take_add_one, List.getElem?_map, oldest]
    rfl
  refine ⟨?_, echoed.echoes_eq, echoed.unacked_eq, inside⟩
  dsimp only
  rw [heard]
  exact recv_tallied dctcp current next echoed.tallied received

theorem length_eq (echoed : Echoed c) : c.acks.length = c.arrived.length := by
  have lengths := congrArg List.length echoed.echoes_eq
  rwa [List.length_map, readings_length] at lengths

/-- The ACKs since an update, as the estimator has heard them. -/
theorem since_eq (echoed : Echoed c) {earlier later : List Entry} {e : Entry}
    (history : c.agent.entries = earlier ++ e :: later) :
    echoes (afterUpdate earlier) = sinceUpdate earlier (c.acks.map Ack.ecnecho) := by
  have counted : (echoes earlier).length ≤ c.heard := by
    have heard := congrArg List.length echoed.tallied.echoes_eq
    rw [history, echoes, List.filterMap_append, List.length_append, List.length_take] at heard
    exact (Nat.le_add_right _ _).trans (heard.le.trans (min_le_left _ _))
  calc echoes (afterUpdate earlier)
      = sinceUpdate earlier (echoes c.agent.entries) := by rw [history, sinceUpdate_echoes]
    _ = sinceUpdate earlier ((c.acks.map Ack.ecnecho).take c.heard) := by
        rw [echoed.tallied.echoes_eq]
    _ = sinceUpdate earlier (c.acks.map Ack.ecnecho) := by
        rw [sinceUpdate, sinceUpdate, List.take_take, min_eq_left counted]

end Echoed

theorem count_true_map {α : Type} (f : α → Bool) (xs : List α) :
    (xs.map f).count true = xs.countP f := by
  rw [List.count_eq_countP, List.countP_map]
  congr 1
  funext x
  simp

variable {σ : Type}

/-- The sender learns of marks by the ECN-Echo bits of the ACKs alone. One stays on from a marked
packet to the next one with CWR, so that the marked fraction counts these packets: never less than
the marks since the update before, and no more just if each of them is answered at once. -/
theorem feedback_countsEchoes (S : Setup σ) (K : SinkConfig) (events : Nat → Event) (k : Nat)
    (c : Connection σ) (dctcp : S.dctcp = true) (reached : connectionAt S K events k = .ok c) :
    c.acks.length = c.arrived.length ∧
      (∀ i ack, c.acks[i]? = some ack →
        (ack.ecnecho = true ↔ Unanswered (c.arrived.take (i + 1)))) ∧
      (c.arrived.countP Arrival.ce ≤ c.acks.countP Ack.ecnecho ∧
        (c.acks.countP Ack.ecnecho = c.arrived.countP Arrival.ce ↔ AnsweredAtOnce c.arrived)) ∧
      ∀ (earlier later : List Entry) (seqno marked total : Int) (alpha : ℚ),
        c.agent.entries = earlier ++ .alphaUpdate seqno marked total alpha :: later →
        (total = (sinceUpdate earlier c.arrived).length ∧
          marked = (sinceUpdate earlier c.acks).countP Ack.ecnecho) ∧
        (sinceUpdate earlier c.arrived).countP Arrival.ce ≤ marked ∧
        (AnsweredAtOnce c.arrived → marked = (sinceUpdate earlier c.arrived).countP Arrival.ce) := by
  -- every step of the connection keeps the echoes and the counters in line with the arrivals
  have echoed : Echoed c := connectionAt_invariant Echoed.opened
    (fun _ _ _ before answer => before.senderActs answer)
    (fun _ _ _ _ before answer => before.dataArrives answer)
    (fun _ _ _ _ before answer => before.ackArrives dctcp answer) reached
  have echoCount : c.acks.countP Ack.ecnecho =
      (readings Arrival.ce Arrival.cwr c.arrived).count true := by
    rw [← echoed.echoes_eq, count_true_map]
  refine ⟨echoed.length_eq, ?_, ⟨?_, ?_⟩, ?_⟩
  · intro i ack here
    have reading : after Arrival.ce Arrival.cwr (c.arrived.take (i + 1)) = ack.ecnecho := by
      have shown : (readings Arrival.ce Arrival.cwr c.arrived)[i]? = some ack.ecnecho := by
        rw [← echoed.echoes_eq, List.getElem?_map, here]
        rfl
      exact (readings_getElem?.mp shown).2
    rw [← reading]
    exact after_iff
  · rw [echoCount]
    exact countP_le_of_shown readings_shown
  · rw [echoCount]
    exact readings_count_eq_iff
  · intro earlier later seqno marked total alpha history
    have since := echoed.since_eq history
    obtain ⟨total_eq, marked_eq⟩ := echoed.tallied.updates earlier _ later history
    have marked_echoes : marked = ((sinceUpdate earlier c.acks).countP Ack.ecnecho : Nat) := by
      rw [marked_eq, since, sinceUpdate_map, count_true_map]
    have marked_readings :
        marked = ((sinceUpdate earlier (readings Arrival.ce Arrival.cwr c.arrived)).count true : Nat) := by
      rw [marked_eq, since, echoed.echoes_eq]
    refine ⟨⟨?_, marked_echoes⟩, ?_, ?_⟩
    · rw [total_eq, since, sinceUpdate_length ((List.length_map _).trans echoed.length_eq)]
    · rw [marked_readings]
      exact_mod_cast countP_stretch_le _ _
    -- marks answered at once are the readings themselves
    · intro answered
      have exact := Momentary.readings_eq answered
      rw [marked_readings, exact, sinceUpdate_map, count_true_map]

/-! ### Marks on packets 3 to 6 -/

/-- Packets arrive with these marks, and each one's ACK before the next packet. -/
def inTurn (marks : List Bool) : List Event :=
  .senderActs { now := 0, stimulus := .advanceby 100, turns := 20 } ::
    marks.flatMap fun ce => [.dataArrives 0 ce, .ackArrives 0 20]

def afterMarks (marks : List Bool) : Except Disturbance (Connection SackedSegments) :=
  connectionAt dctcpSetup {} (fun k => (inTurn marks).getD k (.dataArrives 0 false))
    (inTurn marks).length

/-- Packet 7 carries CWR, so marks on all packets from 3 to 6 are echoed exactly. -/
theorem feedback_countsEchoes_marksUntilCwr : ∃ c earlier later alpha,
    afterMarks [false, false, false, true, true, true, true, false] = .ok c ∧
      AnsweredAtOnce c.arrived ∧
      c.agent.entries = earlier ++ .alphaUpdate 7 3 4 alpha :: later ∧
      (3 : Int) = (sinceUpdate earlier c.arrived).countP Arrival.ce := by
  obtain ⟨c, reached, found⟩ := DrivenRun.exists_of_any
    (x := afterMarks [false, false, false, true, true, true, true, false])
    (p := fun c => decide (c.acks.countP Ack.ecnecho = c.arrived.countP Arrival.ce) &&
      decide (c.agent.entries = c.agent.entries.take 22 ++ .alphaUpdate 7 3 4 (39 / 512) ::
        c.agent.entries.drop 23))
    (by decide +kernel)
  simp only [Bool.and_eq_true, decide_eq_true_eq] at found
  obtain ⟨sameCount, split⟩ := found
  have sound := feedback_countsEchoes dctcpSetup {} _ _ c rfl reached
  have answered : AnsweredAtOnce c.arrived := sound.2.2.1.2.mp sameCount
  exact ⟨c, _, _, _, reached, answered, split, (sound.2.2.2 _ _ 7 3 4 _ split).2.2 answered⟩

/-- With packet 3 alone marked, four ACKs echo the mark, and the update on ACK 7 takes three of
its four packets for marked ones although none of them was. -/
theorem oneMark_echoedFourTimes : ∃ c earlier later alpha,
    afterMarks [false, false, false, true, false, false, false, false] = .ok c ∧
      (c.acks.countP Ack.ecnecho = 4 ∧ c.arrived.countP Arrival.ce = 1) ∧
      c.agent.entries = earlier ++ .alphaUpdate 7 3 4 alpha :: later ∧
      (sinceUpdate earlier c.arrived).length = 4 ∧
      (sinceUpdate earlier c.arrived).countP Arrival.ce = 0 := by
  obtain ⟨c, reached, found⟩ := DrivenRun.exists_of_any
    (x := afterMarks [false, false, false, true, false, false, false, false])
    (p := fun c => decide (c.acks.countP Ack.ecnecho = 4 ∧ c.arrived.countP Arrival.ce = 1) &&
      decide (c.agent.entries = c.agent.entries.take 22 ++ .alphaUpdate 7 3 4 (39 / 512) ::
        c.agent.entries.drop 23) &&
      decide ((sinceUpdate (c.agent.entries.take 22) c.arrived).length = 4 ∧
        (sinceUpdate (c.agent.entries.take 22) c.arrived).countP Arrival.ce = 0))
    (by decide +kernel)
  simp only [Bool.and_eq_true, decide_eq_true_eq] at found
  obtain ⟨⟨counts, split⟩, since⟩ := found
  exact ⟨c, _, _, _, reached, counts, split, since⟩

end Saps.Tcp
