import Saps.Tcp.Orderly
import Saps.Tcp.SackSink

/-!
# A connection over any network

A SACK sender and its sink. The network may lose, duplicate, delay and reorder
packets and ACKs and set CE on the packets it likes: at any time it may deliver
any packet that was ever sent, or any ACK.
-/
namespace Saps.Tcp

variable {σ : Type} (S : Setup σ) (K : SinkConfig)

/-- The history of both ends; whatever was sent may arrive at any time and any number of times. -/
structure LossyConnection (σ : Type) where
  agent : Agent σ
  sink : SackSink
  /-- The packets the sink has taken in, in their order. -/
  arrived : List Arrival
  /-- The ACKs the sink has sent. -/
  acks : List Ack

inductive Delivery
  /-- A timer of the sender expires, or its application calls it. -/
  | senderActs (i : Input)
  /-- The packet sent at this place reaches the sink, with the mark the network gave it. -/
  | dataArrives (index : Nat) (now : ℚ) (ce : Bool)
  /-- The ACK sent at this place reaches the sender. -/
  | ackArrives (index : Nat) (now : ℚ) (turns : Nat)
deriving DecidableEq, Repr

namespace LossyConnection

variable (c : LossyConnection σ)

def senderActs (i : Input) : Except Disturbance (LossyConnection σ) :=
  if i.stimulus.isAck then .error .forgedAck
  else match respond S i c.agent with
    | .error fault => .error (.sender fault)
    | .ok agent => .ok { c with agent }

def dataArrives (index : Nat) (now : ℚ) (ce : Bool) : Except Disturbance (LossyConnection σ) :=
  match (sentPackets c.agent.entries)[index]? with
  | none => .error .nothingInFlight
  | some packet => match c.sink.recv K ⟨packet, ce⟩ now with
    | none => .error .sinkLoops
    -- a packet of a previous incarnation
    | some (sink, none) => .ok { c with sink }
    | some (sink, some ack) =>
      .ok { c with sink, arrived := c.arrived ++ [⟨packet, ce⟩], acks := c.acks ++ [ack] }

def ackArrives (index : Nat) (now : ℚ) (turns : Nat) : Except Disturbance (LossyConnection σ) :=
  match c.acks[index]? with
  | none => .error .nothingInFlight
  | some ack => match respond S { now, stimulus := .ack ack, turns } c.agent with
    | .error fault => .error (.sender fault)
    | .ok agent => .ok { c with agent }

def step (e : Delivery) : Except Disturbance (LossyConnection σ) :=
  match e with
  | .senderActs i => c.senderActs S i
  | .dataArrives index now ce => c.dataArrives K index now ce
  | .ackArrives index now turns => c.ackArrives S index now turns

/-- Both ends as they are created, with nothing sent. -/
def opened (nblocks : Int) : LossyConnection σ where
  agent := fresh S
  sink := .fresh nblocks
  arrived := []
  acks := []

end LossyConnection

/-- The connection before event `k` of a run. -/
def lossyAt (nblocks : Int) (events : Nat → Delivery) (k : Nat) :
    Except Disturbance (LossyConnection σ) :=
  DrivenRun.stateAt (fun e c => (c.step S K e).map (·, ())) (.opened S nblocks) events k

/-- The application takes no data back. -/
def Delivery.Grows : Delivery → Prop
  | .senderActs i => i.stimulus.Grows
  | _ => True

/-! ### What a step can do -/

namespace LossyConnection

variable {S K} {c d : LossyConnection σ}

theorem senderActs_ok {i : Input} (answer : c.senderActs S i = .ok d) :
    ∃ agent, d = { c with agent } ∧ respond S i c.agent = .ok agent ∧
      ∀ ack, i.stimulus ≠ .ack ack := by
  simp only [senderActs] at answer
  split at answer
  next => cases answer
  next noAck =>
    split at answer
    next => cases answer
    next agent responded =>
      cases answer
      refine ⟨agent, rfl, responded, fun ack isAck => noAck ?_⟩
      rw [isAck]
      rfl

theorem dataArrives_ok {index : Nat} {now : ℚ} {ce : Bool}
    (answer : c.dataArrives K index now ce = .ok d) :
    ∃ packet sink ack, (sentPackets c.agent.entries)[index]? = some packet ∧
      c.sink.recv K ⟨packet, ce⟩ now = some (sink, ack) ∧
      d = { c with
        sink
        arrived := c.arrived ++ (ack.map fun _ => ⟨packet, ce⟩).toList
        acks := c.acks ++ ack.toList } := by
  simp only [dataArrives] at answer
  split at answer
  next => cases answer
  next packet sent =>
    split at answer
    next => cases answer
    next sink received =>
      cases answer
      exact ⟨packet, sink, none, sent, received, by simp⟩
    next sink ack received =>
      cases answer
      exact ⟨packet, sink, some ack, sent, received, rfl⟩

theorem ackArrives_ok {index : Nat} {now : ℚ} {turns : Nat}
    (answer : c.ackArrives S index now turns = .ok d) :
    ∃ ack agent, c.acks[index]? = some ack ∧ d = { c with agent } ∧
      respond S { now, stimulus := .ack ack, turns } c.agent = .ok agent := by
  simp only [ackArrives] at answer
  split at answer
  next => cases answer
  next ack sent =>
    split at answer
    next => cases answer
    next agent responded =>
      cases answer
      exact ⟨ack, agent, sent, rfl, responded⟩

/-! ### The invariant -/

/-- The number the sink waits for. -/
def next (c : LossyConnection σ) : Int := c.sink.sacker.acker.next

def Arrived (c : LossyConnection σ) (n : Int) : Prop := Received (c.arrived.map Arrival.segment) n

/-- An ACK that the sink has sent by now: it tells what has arrived. -/
structure Truthful (c : LossyConnection σ) (ack : Ack) : Prop where
  answers : ∃ n, c.Arrived n
  seqno_ge : -1 ≤ ack.seqno
  seqno_lt : ack.seqno < c.next
  blocks : ∀ block ∈ ack.sackArea,
    ack.seqno < block.1 ∧ block.1 < block.2 ∧ c.Arrived (block.2 - 1)

variable (laws : S.board.Laws)

structure Faithful (c : LossyConnection σ) : Prop where
  orderly : Orderly laws c.agent.transfer
  sent : ∀ x ∈ c.arrived, x.packet ∈ c.agent.transfer.sent
  tells : ∃ blocks, c.sink.sacker.Tells (c.arrived.map Arrival.segment) blocks
  truthful : ∀ ack ∈ c.acks, c.Truthful ack
  behind : c.agent.highestAck < c.next

variable {laws}

theorem Faithful.arrived_le (faithful : Faithful laws c) {n : Int} (arrived : c.Arrived n) :
    0 ≤ n ∧ n ≤ c.agent.maxseq := by
  obtain ⟨segment, member, rfl⟩ := arrived
  obtain ⟨x, arrived, rfl⟩ := List.mem_map.mp member
  obtain ⟨low, high, -⟩ := faithful.orderly.numbers x.packet (faithful.sent x arrived)
  exact ⟨low, high⟩

/-- What is in order has arrived. -/
theorem Faithful.arrived (faithful : Faithful laws c) {n : Int} (nonneg : 0 ≤ n)
    (before : n < c.next) : c.Arrived n := by
  obtain ⟨blocks, tells⟩ := faithful.tells
  exact tells.tracks.delivered n nonneg before

theorem Faithful.next_le (faithful : Faithful laws c) : c.next ≤ c.agent.maxseq + 1 := by
  obtain ⟨blocks, tells⟩ := faithful.tells
  have nonneg : 0 ≤ c.next := tells.tracks.nonneg
  have started : -1 ≤ c.agent.maxseq :=
    faithful.orderly.lastAck_ge.trans
      (faithful.orderly.lastAck_le.trans faithful.orderly.highestAck_le)
  rcases eq_or_lt_of_le nonneg with none | some
  · omega
  · have last := (faithful.arrived_le (faithful.arrived (n := c.next - 1) (by omega) (by omega))).2
    omega

theorem Faithful.valid (faithful : Faithful laws c) :
    ValidCalls (c.arrived.map Arrival.segment) := by
  intro segment member
  obtain ⟨x, arrived, rfl⟩ := List.mem_map.mp member
  obtain ⟨low, -, positive⟩ := faithful.orderly.numbers x.packet (faithful.sent x arrived)
  exact ⟨low, positive⟩

theorem Faithful.honest (faithful : Faithful laws c) {ack : Ack} (truthful : c.Truthful ack) :
    ack.Honest c.agent.maxseq where
  started := by
    obtain ⟨n, arrived⟩ := truthful.answers
    have inside := faithful.arrived_le arrived
    exact inside.1.trans inside.2
  seqno_ge := truthful.seqno_ge
  seqno_le := by
    have before := truthful.seqno_lt
    have last := faithful.next_le
    omega
  blocks := fun block member => by
    obtain ⟨left, right, arrived⟩ := truthful.blocks block member
    have last := (faithful.arrived_le arrived).2
    exact ⟨left, right, by omega⟩

/-! ### The invariant holds in every run -/

theorem faithful_opened {nblocks : Int} (plain : S.Plain) (positive : 0 < nblocks) :
    Faithful laws (opened S nblocks) where
  orderly := orderly_fresh plain
  sent := nofun
  tells := ⟨[], Sacker.tells_fresh positive⟩
  truthful := nofun
  behind := show (-1 : Int) < 0 by decide

/-- The sender's own moves concern the sink only in that more may be on the way. -/
theorem Faithful.moves {stimulus : Stimulus} {agent : Agent σ} (faithful : Faithful laws c)
    (plain : S.Plain) (honest : stimulus.Honest c.agent.maxseq)
    (known : ∀ ack, stimulus = .ack ack → ack.seqno < c.next)
    (path : Moves S stimulus c.agent agent) : Faithful laws { c with agent } := by
  obtain ⟨orderly, extended⟩ := path.orderly plain honest faithful.orderly
  exact {
    orderly
    sent := fun x arrived => extended.sent.subset (faithful.sent x arrived)
    tells := faithful.tells
    truthful := fun ack member => { faithful.truthful ack member with }
    behind := by
      have behind := faithful.behind
      rcases extended.acknowledged with same | ⟨ack, heard, same⟩
      · exact same.trans_lt behind
      · exact same.trans_lt (known ack heard) }

theorem Arrived.later {n : Int} {sink : SackSink} {arrived : List Arrival} {acks : List Ack}
    (known : c.Arrived n) : Arrived { c with sink, arrived := c.arrived ++ arrived, acks } n := by
  obtain ⟨segment, member, same⟩ := known
  refine ⟨segment, ?_, same⟩
  rw [List.map_append]
  exact List.mem_append_left _ member

theorem Truthful.later {ack : Ack} {sink : SackSink} {arrived : List Arrival} {acks : List Ack}
    (truthful : c.Truthful ack) (after : c.next ≤ sink.sacker.acker.next) :
    Truthful { c with sink, arrived := c.arrived ++ arrived, acks } ack where
  answers := truthful.answers.imp fun _ => Arrived.later
  seqno_ge := truthful.seqno_ge
  seqno_lt := truthful.seqno_lt.trans_le after
  blocks := fun block member => by
    obtain ⟨left, right, known⟩ := truthful.blocks block member
    exact ⟨left, right, known.later⟩

theorem next_mono {k j : Acker} {calls : List Segment} {x : Segment} (before : k.Tracks calls)
    (after : j.Tracks (calls ++ [x])) : k.next ≤ j.next := by
  by_contra further
  have received := before.delivered j.next after.nonneg (not_le.mp further)
  exact after.missing (received_append.mpr (.inl received))

theorem Faithful.receive {x : Arrival} {sink : SackSink} {ack : Ack} {reported : List SackBlock}
    (faithful : Faithful laws c) (sent : x.packet ∈ c.agent.transfer.sent)
    (tells : sink.sacker.Tells (c.arrived.map Arrival.segment ++ [x.segment]) reported)
    (reports : ack.Reports sink.sacker reported) :
    Faithful laws { c with sink, arrived := c.arrived ++ [x], acks := c.acks ++ [ack] } := by
  obtain ⟨blocks, told⟩ := faithful.tells
  have after : c.next ≤ sink.sacker.acker.next := next_mono told.tracks tells.tracks
  have nonneg : 0 ≤ sink.sacker.acker.next := tells.tracks.nonneg
  exact {
    orderly := faithful.orderly
    sent := fun y member => by
      rcases List.mem_append.mp member with old | new
      · exact faithful.sent y old
      · obtain rfl := List.mem_singleton.mp new
        exact sent
    tells := ⟨reported, by simpa using tells⟩
    truthful := fun nf member => by
      rcases List.mem_append.mp member with old | new
      · exact (faithful.truthful nf old).later after
      · obtain rfl := List.mem_singleton.mp new
        exact {
          answers := ⟨x.packet.seqno, x.segment, by simp, rfl⟩
          seqno_ge := by rw [reports.seqno, Acker.seqno]; omega
          seqno_lt := by
            simp only [LossyConnection.next, reports.seqno, Acker.seqno]
            omega
          blocks := fun block listed => by
            rw [reports.sackArea] at listed
            obtain ⟨range, inside, rfl⟩ := List.mem_map.mp listed
            have maximal := tells.maximal range inside
            have above := tells.above range inside
            have nonempty := maximal.nonempty
            refine ⟨reports.seqno.trans_lt above, nonempty, ?_⟩
            have filled := maximal.filled (range.right - 1) (by omega) (by omega)
            simpa [Arrived] using filled }
    behind := faithful.behind.trans_le after }

theorem SackSink.recv_stale {s t : SackSink} {x : Arrival} {now : ℚ}
    (received : s.recv K x now = some (t, none)) : t = s := by
  simp only [SackSink.recv] at received
  split at received
  · cases received
    rfl
  · simp [Option.bind_eq_some_iff] at received

theorem Faithful.step {e : Delivery} (faithful : Faithful laws c) (plain : S.Plain)
    (grows : e.Grows) (answer : c.step S K e = .ok d) : Faithful laws d := by
  cases e with
  | senderActs i =>
    obtain ⟨agent, rfl, responded, noAck⟩ := senderActs_ok answer
    exact faithful.moves plain ⟨grows, fun ack heard => absurd heard (noAck ack)⟩
      (fun ack heard => absurd heard (noAck ack)) (respond_moves responded)
  | dataArrives index now ce =>
    obtain ⟨packet, sink, ack, sent, received, rfl⟩ := dataArrives_ok answer
    have member : packet ∈ c.agent.transfer.sent := List.mem_of_getElem? sent
    obtain ⟨blocks, tells⟩ := faithful.tells
    obtain ⟨low, high, positive⟩ := faithful.orderly.numbers packet member
    cases ack with
    | none =>
      obtain rfl := SackSink.recv_stale received
      simpa using faithful
    | some ack =>
      have current : ¬ packet.ts < c.sink.lastreset := by
        intro stale
        simp [SackSink.recv, stale] at received
      have valid : ValidCalls
          (c.arrived.map Arrival.segment ++ [(⟨packet, ce⟩ : Arrival).segment]) :=
        validCalls_append.mpr ⟨faithful.valid, low, positive⟩
      obtain ⟨t, nf, reported, answered, after, reports, -, -⟩ :=
        SackSink.recv_tells K now tells valid current
      cases received.symm.trans answered
      exact faithful.receive member after reports
  | ackArrives index now turns =>
    obtain ⟨ack, agent, sent, rfl, responded⟩ := ackArrives_ok answer
    have truthful := faithful.truthful ack (List.mem_of_getElem? sent)
    refine faithful.moves plain (Stimulus.honest_ack (faithful.honest truthful)) ?_
      (respond_moves responded)
    rintro _ ⟨⟩
    exact truthful.seqno_lt

end LossyConnection

/-- The invariant rule of a run over any network. -/
theorem lossyAt_faithful {laws : S.board.Laws} {nblocks : Int} {events : Nat → Delivery} {k : Nat}
    {c : LossyConnection σ} (plain : S.Plain) (positive : 0 < nblocks)
    (grows : ∀ j, (events j).Grows) (reached : lossyAt S K nblocks events k = .ok c) :
    c.Faithful laws :=
  DrivenRun.invariant (I := fun _ => LossyConnection.Faithful laws)
    (LossyConnection.faithful_opened plain positive)
    (fun j _ _ _ before answer =>
      before.step plain (grows j) (DrivenRun.map_unit_eq_ok.mp answer)) reached

end Saps.Tcp
