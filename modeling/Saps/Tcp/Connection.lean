import Saps.Tcp.Refinement
import Saps.Tcp.Sink

/-!
# A connection over an orderly network

A sender and a plain sink. The network keeps the order of packets and of ACKs
and loses none, but sets CE on the packets it likes. A run ends where a packet or
an ACK would not be the next in order.
-/
namespace Saps.Tcp

variable {σ : Type} (S : Setup σ) (K : SinkConfig)

/-- The history of both ends; what is in flight is what was sent and is not in it yet. -/
structure Connection (σ : Type) where
  agent : Agent σ
  sink : TcpSink
  /-- The packets the sink has received, in their order. -/
  arrived : List Arrival
  /-- The ACKs the sink has sent. -/
  acks : List Ack
  /-- How many of them the sender has received. -/
  heard : Nat

def sentPackets (entries : List Entry) : List DataPacket :=
  entries.filterMap fun
    | .sent p => some p
    | _ => none

inductive Event
  /-- A timer of the sender expires, or its application calls it. -/
  | senderActs (i : Input)
  /-- The oldest packet in flight reaches the sink, with the mark the network gave it. -/
  | dataArrives (now : ℚ) (ce : Bool)
  /-- The oldest ACK in flight reaches the sender. -/
  | ackArrives (now : ℚ) (turns : Nat)
deriving DecidableEq, Repr

/-- Why a run of the connection does not go on. -/
inductive Disturbance
  | sender (fault : Fault)
  /-- The last loop of `Acker::update` never ends. -/
  | sinkLoops
  | nothingInFlight
  /-- The sender acts on its own, and not on an ACK. -/
  | forgedAck
  | notCapable
  | outOfOrder
  /-- The packet or ACK belongs to a previous incarnation. -/
  | stale
deriving DecidableEq, Repr

def Stimulus.isAck : Stimulus → Bool
  | .ack _ => true
  | _ => false

namespace Connection

variable (c : Connection σ)

def senderActs (i : Input) : Except Disturbance (Connection σ) :=
  if i.stimulus.isAck then .error .forgedAck
  else match respond S i c.agent with
    | .error fault => .error (.sender fault)
    | .ok agent => .ok { c with agent }

def dataArrives (now : ℚ) (ce : Bool) : Except Disturbance (Connection σ) :=
  match (sentPackets c.agent.entries)[c.arrived.length]? with
  | none => .error .nothingInFlight
  | some packet =>
    if ¬packet.ect then .error .notCapable
    else if packet.seqno ≠ c.sink.acker.next then .error .outOfOrder
    else match c.sink.recv K ⟨packet, ce⟩ now with
      | none => .error .sinkLoops
      | some (_, none) => .error .stale
      | some (sink, some ack) =>
        .ok { c with sink, arrived := c.arrived ++ [⟨packet, ce⟩], acks := c.acks ++ [ack] }

def ackArrives (now : ℚ) (turns : Nat) : Except Disturbance (Connection σ) :=
  match c.acks[c.heard]? with
  | none => .error .nothingInFlight
  | some ack =>
    if ack.ts < c.agent.lastreset then .error .stale
    else if ack.seqno ≠ c.agent.highestAck + 1 then .error .outOfOrder
    else match respond S { now, stimulus := .ack ack, turns } c.agent with
      | .error fault => .error (.sender fault)
      | .ok agent => .ok { c with agent, heard := c.heard + 1 }

def step (e : Event) : Except Disturbance (Connection σ × Unit) :=
  (match e with
    | .senderActs i => c.senderActs S i
    | .dataArrives now ce => c.dataArrives K now ce
    | .ackArrives now turns => c.ackArrives S now turns).map (·, ())

end Connection

/-- Both ends as they are created, with nothing in flight. -/
def opened : Connection σ where
  agent := fresh S
  sink := .fresh
  arrived := []
  acks := []
  heard := 0

/-- The connection before event `k` of a run. -/
def connectionAt (events : Nat → Event) (k : Nat) : Except Disturbance (Connection σ) :=
  DrivenRun.stateAt (fun e c => c.step S K e) (opened S) events k

/-! ### What a step can do -/

variable {S K} {c d : Connection σ}

theorem Connection.senderActs_ok {i : Input} (answer : c.senderActs S i = .ok d) :
    ∃ agent, d = { c with agent } ∧ respond S i c.agent = .ok agent ∧
      ∀ ack, i.stimulus ≠ .ack ack := by
  simp only [senderActs] at answer
  split at answer
  next => cases answer
  next noAck =>
    split at answer
    next => cases answer
    next agent responded =>
      cases answer
      refine ⟨agent, rfl, responded, fun ack isAck => noAck ?_⟩
      rw [isAck]
      rfl

theorem Connection.dataArrives_ok {now : ℚ} {ce : Bool} (answer : c.dataArrives K now ce = .ok d) :
    ∃ packet sink ack, d = { c with
        sink, arrived := c.arrived ++ [⟨packet, ce⟩], acks := c.acks ++ [ack] } ∧
      packet.ect = true ∧ c.sink.recv K ⟨packet, ce⟩ now = some (sink, some ack) := by
  simp only [dataArrives] at answer
  split at answer
  next => cases answer
  next packet _ =>
    split_ifs at answer with notCapable outOfOrder
    split at answer
    next => cases answer
    next => cases answer
    next sink ack received =>
      cases answer
      exact ⟨packet, sink, ack, rfl, by simpa using notCapable, received⟩

theorem Connection.ackArrives_ok {now : ℚ} {turns : Nat}
    (answer : c.ackArrives S now turns = .ok d) :
    ∃ ack agent, d = { c with agent, heard := c.heard + 1 } ∧ c.acks[c.heard]? = some ack ∧
      ¬ ack.ts < c.agent.lastreset ∧ ack.seqno = c.agent.highestAck + 1 ∧
      recv S turns ack now c.agent = .ok agent := by
  simp only [ackArrives] at answer
  split at answer
  next => cases answer
  next ack next =>
    split_ifs at answer with stale outOfOrder
    split at answer
    next => cases answer
    next agent received =>
      cases answer
      exact ⟨ack, agent, rfl, next, stale, not_not.mp outOfOrder, received⟩

/-- The invariant rule of a connection. -/
theorem connectionAt_invariant {I : Connection σ → Prop} {events : Nat → Event} {k : Nat}
    (initial : I (opened S))
    (acts : ∀ c d i, I c → c.senderActs S i = .ok d → I d)
    (data : ∀ c d now ce, I c → c.dataArrives K now ce = .ok d → I d)
    (ack : ∀ c d now turns, I c → c.ackArrives S now turns = .ok d → I d)
    (reached : connectionAt S K events k = .ok c) : I c := by
  refine DrivenRun.invariant (I := fun _ => I) initial ?_ reached
  intro n c d o before answer
  have taken := DrivenRun.map_unit_eq_ok.mp answer
  cases event : events n with
  | senderActs i => exact acts c d i before (by simpa only [event] using taken)
  | dataArrives now ce => exact data c d now ce before (by simpa only [event] using taken)
  | ackArrives now turns => exact ack c d now turns before (by simpa only [event] using taken)

end Saps.Tcp
