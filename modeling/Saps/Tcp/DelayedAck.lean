import Saps.Library.DrivenRun
import Saps.Library.Latch
import Saps.Tcp.SackSink

/-!
# Delayed ACKs

`DelAckSink` over a plain `Acker`: a packet that arrives in order may wait for a
second one, or for the timer, before it is acknowledged.
-/
namespace Saps.Tcp

/-- The variables bound on the sink that `DelAckSink` reads. -/
structure DelAckConfig extends SinkConfig where
  rfc2581ImmediateAck : Bool := true

structure DelAckSink where
  sink : TcpSink
  /-- `save_`: the packet that waits to be acknowledged. -/
  save : Option Arrival
  delayPending : Bool

def Arrival.marked (x : Arrival) : Bool := x.packet.ect && x.ce

namespace DelAckSink

variable (K : DelAckConfig)

/-- A sink as its constructors leave it. -/
def fresh : DelAckSink where
  sink := .fresh
  save := none
  delayPending := false

/-- `TcpSink::ack`, which looks at the flags of the delayed packet as well. -/
def ack (x : Arrival) (now : ℚ) (s : DelAckSink) : TcpSink × Ack :=
  let acker := s.sink.acker
  let ecnUnacked :=
    if s.save.any (·.packet.congAction) || x.packet.congAction then false else acker.ecnUnacked
  let ecnUnacked := if s.save.any (·.marked) || x.marked then true else ecnUnacked
  let ecnecho := (s.save.any (·.packet.ect) || x.packet.ect) && ecnUnacked
  -- ECN-Echo on a packet that is not ECN-capable negotiates ECN
  let negotiates := (!x.packet.ect && x.packet.ecnecho) ||
    s.save.any fun sf => !sf.packet.ect && sf.packet.ecnecho
  let nf : Ack := {
    seqno := acker.seqno
    ts := now
    tsEcho := if K.tsEchoBugfix then acker.tsToEcho else x.packet.ts
    ecnecho := negotiates || ecnecho }
  ({ s.sink with acker := { acker with ecnUnacked, lastAckSent := nf.seqno } }, nf)

/-- The ACK for `x` and for the packet that waits, if there is one; the timer is turned off. -/
def answer (x : Arrival) (now : ℚ) (s : DelAckSink) : DelAckSink × Ack :=
  let (sink, nf) := ack K x now s
  ({ sink, save := none, delayPending := false }, nf)

def recv (x : Arrival) (now : ℚ) (s : DelAckSink) : Option (DelAckSink × Option Ack) :=
  if x.packet.ts < s.sink.lastreset then some (s, none)
  else
    let acker := s.sink.acker.updateTs x.packet.seqno x.packet.ts K.tsEchoRfc1323
    (acker.update x.packet.seqno x.packet.size).map fun (acker, numToDeliver) =>
      let s := { s with sink := { s.sink with acker, bytes := s.sink.bytes + numToDeliver } }
      if ¬s.delayPending ∧ x.packet.seqno = acker.seqno ∧
          -- a packet that fills a gap is acknowledged at once
          ¬(K.rfc2581ImmediateAck ∧ x.packet.seqno < acker.maxseen) then
        ({ s with save := some x, delayPending := true }, none)
      else
        let (s, nf) := answer K x now s
        (s, some nf)

/-- The delay timer expires. -/
def timeout (now : ℚ) (s : DelAckSink) : DelAckSink × Option Ack :=
  let s := { s with delayPending := false }
  match s.save with
  | none => (s, none)
  | some x =>
    let (s, nf) := answer K x now s
    (s, some nf)

end DelAckSink

/-! ### Runs -/

/-- An ACK with the packets that it answers. -/
structure Answer where
  packets : List Arrival
  ack : Ack

structure DelAckHistory where
  sink : DelAckSink
  answers : List Answer

inductive SinkEvent
  | arrives (x : Arrival) (now : ℚ)
  | expires (now : ℚ)
deriving DecidableEq, Repr

inductive SinkFault
  /-- The last loop of `Acker::update` never ends. -/
  | loops
  /-- The timer that should expire is not pending. -/
  | timerIdle
deriving DecidableEq, Repr

namespace DelAckHistory

variable (K : DelAckConfig)

def answered (sink : DelAckSink) (packets : List Arrival) (ack : Option Ack) (h : DelAckHistory) :
    DelAckHistory where
  sink
  answers := h.answers ++ (ack.map fun ack => ⟨packets, ack⟩).toList

def step (e : SinkEvent) (h : DelAckHistory) : Except SinkFault (DelAckHistory × Unit) :=
  match e with
  | .arrives x now => match h.sink.recv K x now with
    | none => .error .loops
    | some (sink, ack) => .ok (h.answered sink (h.sink.save.toList ++ [x]) ack, ())
  | .expires now =>
    if h.sink.delayPending then
      let (sink, ack) := h.sink.timeout K now
      .ok (h.answered sink h.sink.save.toList ack, ())
    else .error .timerIdle

/-- The packets that were taken in, in their order. -/
def arrived (h : DelAckHistory) : List Arrival :=
  h.answers.flatMap Answer.packets ++ h.sink.save.toList

end DelAckHistory

/-- The sink before event `k` of a run. -/
def delAckAt (K : DelAckConfig) (events : Nat → SinkEvent) (k : Nat) :
    Except SinkFault DelAckHistory :=
  DrivenRun.stateAt (DelAckHistory.step K) ⟨.fresh, []⟩ events k

/-- The packet of an event, unless it belongs to a previous incarnation. -/
def SinkEvent.accepted : SinkEvent → Option Arrival
  | .arrives x _ => if x.packet.ts < 0 then none else some x
  | .expires _ => none

/-- The packets are not empty, and numbered as a receive window in `int`s can take them. -/
def SinkEvent.Valid : SinkEvent → Prop
  | .arrives x _ => (0 ≤ x.packet.seqno ∧ x.packet.seqno < 2 ^ 30 - 2) ∧ 0 < x.packet.size
  | .expires _ => True

/-! ### One packet -/

def Answer.marked (a : Answer) : Bool := a.packets.any Arrival.marked

def Answer.cwr (a : Answer) : Bool := a.packets.any (·.packet.congAction)

variable {K : DelAckConfig} {s t : DelAckSink} {x : Arrival} {now : ℚ} {calls : List Segment}

/-- What an ACK echoes, when the flag read `on` before its packets. -/
def Answer.Echoes (a : Answer) (on : Bool) : Prop :=
  a.ack.ecnecho = (a.packets.any (fun x => !x.packet.ect && x.packet.ecnecho) ||
    (a.packets.any (·.packet.ect) && Latch.next Answer.marked Answer.cwr on a))

theorem ite_ite_eq_next (sets clears on : Bool) :
    (if sets then true else if clears then false else on) = (sets || (on && !clears)) := by
  cases sets <;> cases clears <;> simp

/-- The state after an ACK, and what the ACK says. -/
structure DelAckSink.Answered (calls : List Segment) (on : Bool) (t : DelAckSink) (a : Answer) :
    Prop where
  idle : t.delayPending = false
  none : t.save = none
  tracks : t.sink.acker.Tracks calls
  seqno : a.ack.seqno + 1 = t.sink.acker.next
  unacked : t.sink.acker.ecnUnacked = Latch.next Answer.marked Answer.cwr on a
  echoes : a.Echoes on

theorem DelAckSink.answer_answered {packets : List Arrival} (tracks : s.sink.acker.Tracks calls)
    (any : ∀ p : Arrival → Bool, packets.any p = (s.save.any p || p x)) :
    DelAckSink.Answered calls s.sink.acker.ecnUnacked (s.answer K x now).1
      ⟨packets, (s.answer K x now).2⟩ := by
  refine ⟨rfl, rfl, tracks.sameWindow ⟨rfl, rfl, rfl, rfl⟩, ?_, ?_, ?_⟩
  · simp [answer, ack, Acker.seqno]
  · simp only [answer, ack, Latch.next, Answer.marked, Answer.cwr, any]
    exact ite_ite_eq_next _ _ _
  · simp only [Answer.Echoes, answer, ack, Latch.next, Answer.marked, Answer.cwr, any]
    rw [ite_ite_eq_next, Bool.or_comm (!x.packet.ect && x.packet.ecnecho)]

/-- The packet that waits is the last one in order, and with immediate ACKs for gaps the sink has
received nothing beyond it. -/
structure DelAckSink.Waits (K : DelAckConfig) (x : Arrival) (t : DelAckSink) : Prop where
  pending : t.delayPending = true
  save : t.save = some x
  latest : t.sink.acker.next = x.packet.seqno + 1
  gapless : K.rfc2581ImmediateAck = true → t.sink.acker.maxseen = x.packet.seqno

/-- A packet is dropped, delayed or answered. -/
theorem DelAckSink.recv_cases (K : DelAckConfig) (now : ℚ) (tracks : s.sink.acker.Tracks calls)
    (valid : ValidCalls (calls ++ [x.segment])) :
    x.packet.ts < s.sink.lastreset ∧ s.recv K x now = some (s, none) ∨
      ¬x.packet.ts < s.sink.lastreset ∧ ∃ t out, s.recv K x now = some (t, out) ∧
        t.sink.lastreset = s.sink.lastreset ∧
        (out = none ∧ s.delayPending = false ∧ t.Waits K x ∧
            t.sink.acker.Tracks (calls ++ [x.segment]) ∧
            t.sink.acker.ecnUnacked = s.sink.acker.ecnUnacked ∨
          ∃ nf, out = some nf ∧ DelAckSink.Answered (calls ++ [x.segment])
            s.sink.acker.ecnUnacked t ⟨s.save.toList ++ [x], nf⟩) := by
  by_cases stale : x.packet.ts < s.sink.lastreset
  · exact .inl ⟨stale, by simp only [recv, if_pos stale]⟩
  refine .inr ⟨stale, ?_⟩
  have before := tracks.sameWindow (Acker.updateTs_sameWindow s.sink.acker x.packet.seqno
    x.packet.ts K.tsEchoRfc1323)
  obtain ⟨acker, numToDeliver, updated, after, -⟩ := before.update valid
  have updated : (s.sink.acker.updateTs x.packet.seqno x.packet.ts K.tsEchoRfc1323).update
      x.packet.seqno x.packet.size = some (acker, numToDeliver) := updated
  have flag : acker.ecnUnacked = s.sink.acker.ecnUnacked := by
    rw [Acker.update_ecnUnacked updated, Acker.updateTs_ecnUnacked]
  let taken : DelAckSink :=
    { s with sink := { s.sink with acker, bytes := s.sink.bytes + numToDeliver } }
  simp only [recv, if_neg stale, updated, Option.map_some]
  split
  next delayed =>
    obtain ⟨idle, latest, gap⟩ := delayed
    refine ⟨_, none, rfl, rfl, .inl ⟨rfl, by simpa using idle, ⟨rfl, rfl, ?_, fun immediate => ?_⟩,
      after, flag⟩⟩
    · simp only [Acker.seqno] at latest
      simp only
      omega
    · have reached : x.packet.seqno ≤ acker.maxseen :=
        after.le_maxseen ⟨x.segment, List.mem_append_right _ List.mem_cons_self, rfl⟩
      have := not_lt.mp fun gapped => gap ⟨immediate, gapped⟩
      exact le_antisymm this reached
  next =>
    refine ⟨(taken.answer K x now).1, some (taken.answer K x now).2, rfl, rfl, .inr ⟨_, rfl, ?_⟩⟩
    rw [← flag]
    refine answer_answered (s := taken) after fun p => ?_
    rw [List.any_append]
    cases s.save <;> simp

/-! ### The invariant -/

/-- The ACK acknowledges what has arrived in order, and no more. -/
structure Answer.Cumulative (a : Answer) (arrived : List Arrival) : Prop where
  received : ∀ n, 0 ≤ n → n ≤ a.ack.seqno → ∃ x ∈ arrived, x.packet.seqno = n
  missing : ∀ x ∈ arrived, x.packet.seqno ≠ a.ack.seqno + 1

/-- What holds of an ACK, with the answers up to and including it. -/
structure Answer.Sound (a : Answer) (answers : List Answer) : Prop where
  nonempty : a.packets ≠ []
  short : a.packets.length ≤ 2
  cumulative : a.Cumulative (answers.flatMap Answer.packets)
  ecnecho : a.ack.ecnecho = (a.packets.any (fun x => !x.packet.ect && x.packet.ecnecho) ||
    (a.packets.any (·.packet.ect) && Latch.after Answer.marked Answer.cwr answers))

theorem Answer.Cumulative.of_tracks {a : Answer} {arrived : List Arrival} {k : Acker}
    (tracks : k.Tracks (arrived.map Arrival.segment)) (seqno : a.ack.seqno + 1 = k.next) :
    a.Cumulative arrived where
  received := fun n low high => by
    obtain ⟨segment, member, same⟩ := tracks.delivered n low (by omega)
    obtain ⟨x, arrived, rfl⟩ := List.mem_map.mp member
    exact ⟨x, arrived, same⟩
  missing := fun x arrived same => by
    refine tracks.missing ⟨x.segment, List.mem_map_of_mem arrived, ?_⟩
    rw [← seqno]
    exact same

namespace DelAckHistory

variable {h : DelAckHistory}

structure Delaying (K : DelAckConfig) (h : DelAckHistory) : Prop where
  lastreset : h.sink.sink.lastreset = 0
  valid : ValidCalls (h.arrived.map Arrival.segment)
  tracks : h.sink.sink.acker.Tracks (h.arrived.map Arrival.segment)
  waiting : h.sink.delayPending = false ∧ h.sink.save = none ∨ ∃ x, h.sink.Waits K x
  unacked : h.sink.sink.acker.ecnUnacked = Latch.after Answer.marked Answer.cwr h.answers
  answers : ∀ (i : Nat) a, h.answers[i]? = some a → a.Sound (h.answers.take (i + 1))

theorem delaying_fresh : Delaying K ⟨.fresh, []⟩ where
  lastreset := rfl
  valid := fun _ none => absurd none List.not_mem_nil
  tracks := Acker.tracks_fresh
  waiting := .inl ⟨rfl, rfl⟩
  unacked := rfl
  answers := fun _ _ none => absurd none (by simp)

/-- One more ACK, for one or two packets. -/
theorem Delaying.answer {nf : Ack} (delaying : Delaying K h) (packets more : List Arrival)
    (lastreset : t.sink.lastreset = 0)
    (valid : ValidCalls ((h.arrived ++ more).map Arrival.segment))
    (all : h.answers.flatMap Answer.packets ++ packets = h.arrived ++ more)
    (nonempty : packets ≠ []) (short : packets.length ≤ 2)
    (answered : DelAckSink.Answered ((h.arrived ++ more).map Arrival.segment)
      h.sink.sink.acker.ecnUnacked t ⟨packets, nf⟩) :
    Delaying K ⟨t, h.answers ++ [⟨packets, nf⟩]⟩ := by
  have arrived : arrived ⟨t, h.answers ++ [⟨packets, nf⟩]⟩ = h.arrived ++ more := by
    rw [← all, DelAckHistory.arrived, answered.none]
    simp
  have flag : Latch.after Answer.marked Answer.cwr (h.answers ++ [⟨packets, nf⟩]) =
      Latch.next Answer.marked Answer.cwr h.sink.sink.acker.ecnUnacked ⟨packets, nf⟩ := by
    rw [Latch.after_append_singleton, delaying.unacked]
  exact {
    lastreset
    valid := by rw [arrived]; exact valid
    tracks := by rw [arrived]; exact answered.tracks
    waiting := .inl ⟨answered.idle, answered.none⟩
    unacked := by rw [flag]; exact answered.unacked
    answers := fun i a here => by
      rcases lt_or_ge i h.answers.length with old | new
      · rw [List.getElem?_append_left old] at here
        rw [List.take_append_of_le_length (by omega)]
        exact delaying.answers i a here
      · rw [List.getElem?_append_right new] at here
        obtain ⟨last, same⟩ := List.getElem?_eq_some_iff.mp here
        rw [List.length_singleton] at last
        rw [List.getElem_singleton] at same
        rw [List.take_of_length_le (by simp; omega), ← same]
        refine ⟨nonempty, short, ?_, ?_⟩
        · refine .of_tracks (k := t.sink.acker) ?_ answered.seqno
          rw [List.flatMap_append, List.flatMap_singleton, all]
          exact answered.tracks
        · rw [flag]
          exact answered.echoes }

theorem Delaying.step {g : DelAckHistory} {e : SinkEvent} {o : Unit} (delaying : Delaying K h)
    (sane : e.Valid) (answer : h.step K e = .ok (g, o)) :
    Delaying K g ∧ g.arrived = h.arrived ++ e.accepted.toList := by
  cases e with
  | arrives x now =>
    have valid : ValidCalls (h.arrived.map Arrival.segment ++ [x.segment]) :=
      validCalls_append.mpr ⟨delaying.valid, sane.1.1, sane.2⟩
    have grown : (h.arrived ++ [x]).map Arrival.segment =
        h.arrived.map Arrival.segment ++ [x.segment] := by simp
    simp only [DelAckHistory.step] at answer
    rcases DelAckSink.recv_cases K now delaying.tracks valid with
      ⟨stale, dropped⟩ | ⟨current, t, out, received, lastreset, outcome⟩
    · rw [dropped] at answer
      cases answer
      rw [delaying.lastreset] at stale
      have same : h.answered h.sink (h.sink.save.toList ++ [x]) none = h := by simp [answered]
      rw [same]
      exact ⟨delaying, by simp [SinkEvent.accepted, stale]⟩
    · rw [received] at answer
      cases answer
      rw [delaying.lastreset] at current lastreset
      have accepted : (SinkEvent.arrives x now).accepted.toList = [x] := by
        simp [SinkEvent.accepted, current]
      rw [accepted]
      rcases outcome with ⟨rfl, idle, waits, tracks, flag⟩ | ⟨nf, rfl, done⟩
      -- nothing waited before, and now the packet does
      · have none : h.sink.save = none := by
          rcases delaying.waiting with ⟨-, none⟩ | ⟨y, already⟩
          · exact none
          · exact absurd (idle.symm.trans already.pending) Bool.false_ne_true
        have arrived : (h.answered t (h.sink.save.toList ++ [x]) .none).arrived =
            h.arrived ++ [x] := by
          simp [DelAckHistory.arrived, answered, none, waits.save]
        refine ⟨⟨lastreset, ?_, ?_, .inr ⟨x, waits⟩, ?_, ?_⟩, arrived⟩
        · rw [arrived, grown]
          exact valid
        · rw [arrived, grown]
          exact tracks
        · simpa [answered] using flag.trans delaying.unacked
        · simpa [answered] using delaying.answers
      · have more := delaying.answer (h.sink.save.toList ++ [x]) [x] lastreset
          (by rw [grown]; exact valid) (by simp [DelAckHistory.arrived]) (by simp)
          (by cases h.sink.save <;> simp) (by rw [grown]; exact done)
        exact ⟨more, by simp [DelAckHistory.arrived, answered, done.none]⟩
  | expires now =>
    simp only [DelAckHistory.step] at answer
    split at answer
    next pending =>
      obtain ⟨x, waits⟩ := delaying.waiting.resolve_left fun idle =>
        Bool.false_ne_true (idle.1.symm.trans pending)
      let late : DelAckSink := ⟨h.sink.sink, some x, false⟩
      have done : DelAckSink.Answered ((h.arrived ++ []).map Arrival.segment)
          h.sink.sink.acker.ecnUnacked (late.answer K x now).1 ⟨[x], (late.answer K x now).2⟩ := by
        rw [List.append_nil]
        exact DelAckSink.answer_answered (s := late) delaying.tracks fun p => by simp [late]
      have expired : h.sink.timeout K now =
          ((late.answer K x now).1, some (late.answer K x now).2) := by
        simp only [DelAckSink.timeout, waits.save]
        rfl
      rw [expired] at answer
      cases answer
      have more := delaying.answer (t := (late.answer K x now).1) [x] [] delaying.lastreset
        (by simpa using delaying.valid) (by simp [DelAckHistory.arrived, waits.save]) (by simp)
        (by simp) done
      rw [waits.save]
      exact ⟨more, by simp [DelAckHistory.arrived, answered, done.none, waits.save,
        SinkEvent.accepted]⟩
    next => cases answer

end DelAckHistory

theorem delAckAt_delaying {events : Nat → SinkEvent} {k : Nat} {h : DelAckHistory}
    (sane : ∀ j, (events j).Valid) (reached : delAckAt K events k = .ok h) :
    h.Delaying K ∧ h.arrived = (List.range k).filterMap fun j => (events j).accepted := by
  refine DrivenRun.invariant (I := fun k h => h.Delaying K ∧
      h.arrived = (List.range k).filterMap fun j => (events j).accepted)
    ⟨DelAckHistory.delaying_fresh, rfl⟩ ?_ reached
  rintro j h g o ⟨delaying, arrived⟩ answer
  obtain ⟨after, more⟩ := delaying.step (sane j) answer
  refine ⟨after, ?_⟩
  rw [more, arrived, List.range_succ, List.filterMap_append]
  cases accepted : (events j).accepted with
  | none => simp [accepted]
  | some x => simp [accepted]

/-! ### A run to look at -/

def capablePacket (seqno : Int) (congAction : Bool) : DataPacket where
  seqno
  reason := .normal
  size := 1000
  ts := 0
  tsEcho := 0
  ect := true
  ecnecho := false
  congAction

/-- The mark on packet 0 waits with it for packet 1, packet 3 leaves a gap that packet 2 fills, and
packet 4 waits for the timer. -/
def delayedScript : List SinkEvent :=
  [.arrives ⟨capablePacket 0 false, true⟩ 1, .arrives ⟨capablePacket 1 true, false⟩ 2,
    .arrives ⟨capablePacket 3 false, false⟩ 3, .arrives ⟨capablePacket 2 false, false⟩ 4,
    .arrives ⟨capablePacket 4 true, false⟩ 5, .expires 6]

/-- Packet 5 comes again and again after that. -/
def delayedEvents (k : Nat) : SinkEvent :=
  delayedScript.getD k (.arrives ⟨capablePacket 5 false, false⟩ 7)

theorem delayedEvents_arrives {j : Nat} {x : Arrival} {now : ℚ}
    (event : delayedEvents j = .arrives x now) :
    (0 ≤ x.packet.seqno ∧ x.packet.seqno < 2 ^ 30 - 2) ∧ x.packet.size = 1000 ∧
      x.packet.ect = true := by
  rw [delayedEvents, List.getD_eq_getElem?_getD] at event
  cases listed : delayedScript[j]? with
  | none =>
    rw [listed] at event
    cases event
    exact ⟨by decide, rfl, rfl⟩
  | some e =>
    rw [listed, Option.getD_some] at event
    have member : e ∈ delayedScript := List.mem_of_getElem? listed
    rw [event] at member
    simp only [delayedScript, List.mem_cons, List.not_mem_nil, or_false, SinkEvent.arrives.injEq,
      reduceCtorEq] at member
    rcases member with ⟨rfl, -⟩ | ⟨rfl, -⟩ | ⟨rfl, -⟩ | ⟨rfl, -⟩ | ⟨rfl, -⟩
    all_goals exact ⟨by decide, rfl, rfl⟩

theorem delayedEvents_sane (j : Nat) : (delayedEvents j).Valid := by
  cases event : delayedEvents j with
  | arrives x now =>
    obtain ⟨inside, size, -⟩ := delayedEvents_arrives event
    exact ⟨inside, by rw [size]; decide⟩
  | expires now => trivial

/-! ### Results -/

variable (K) (events : Nat → SinkEvent)

/-- Every packet taken in is answered by exactly one ACK, at most two by the same, in the order in
which they came; only the last may still wait, with the delay timer running and, if gaps are to be
acknowledged at once, nothing received beyond it. Every ACK is cumulative: it acknowledges what had
arrived in order when it was sent, and no more. -/
theorem delayed_answers (sane : ∀ j, (events j).Valid) (k : Nat) (h : DelAckHistory)
    (reached : delAckAt K events k = .ok h) :
    h.answers.flatMap Answer.packets ++ h.sink.save.toList =
        ((List.range k).filterMap fun j => (events j).accepted) ∧
      (∀ (i : Nat) a, h.answers[i]? = some a → a.packets ≠ [] ∧ a.packets.length ≤ 2 ∧
        a.Cumulative ((h.answers.take (i + 1)).flatMap Answer.packets)) ∧
      (∀ x, h.sink.save = some x → h.sink.delayPending = true ∧
        (K.rfc2581ImmediateAck = true → ∀ y ∈ h.arrived, y.packet.seqno ≤ x.packet.seqno)) := by
  obtain ⟨delaying, arrived⟩ := delAckAt_delaying sane reached
  refine ⟨arrived, fun i a here => ?_, fun x saved => ?_⟩
  · have sound := delaying.answers i a here
    exact ⟨sound.nonempty, sound.short, sound.cumulative⟩
  · rcases delaying.waiting with ⟨-, none⟩ | ⟨y, waits⟩
    · exact absurd (none.symm.trans saved) (by simp)
    · cases saved.symm.trans waits.save
      refine ⟨waits.pending, fun immediate y member => ?_⟩
      rw [← waits.gapless immediate]
      exact delaying.tracks.le_maxseen ⟨y.segment, List.mem_map_of_mem member, rfl⟩

/-- After packet 4 and before the timer. -/
theorem delayed_answers_waiting : ∃ h, delAckAt {} delayedEvents 5 = .ok h ∧
    h.answers.length = 3 ∧ h.sink.save.isSome = true ∧
    h.answers.flatMap Answer.packets ++ h.sink.save.toList =
        ((List.range 5).filterMap fun j => (delayedEvents j).accepted) ∧
      (∀ (i : Nat) a, h.answers[i]? = some a → a.packets ≠ [] ∧ a.packets.length ≤ 2 ∧
        a.Cumulative ((h.answers.take (i + 1)).flatMap Answer.packets)) ∧
      (∀ x, h.sink.save = some x → h.sink.delayPending = true ∧
        (true = true → ∀ y ∈ h.arrived, y.packet.seqno ≤ x.packet.seqno)) := by
  obtain ⟨h, reached, found⟩ := DrivenRun.exists_of_any (x := delAckAt {} delayedEvents 5)
    (p := fun h => decide (h.answers.length = 3) && h.sink.save.isSome) (by decide +kernel)
  simp only [Bool.and_eq_true, decide_eq_true_eq] at found
  exact ⟨h, reached, found.1, found.2, delayed_answers {} delayedEvents delayedEvents_sane 5 h
    reached⟩

theorem foldl_updateEcnUnacked (arrived : List Arrival) :
    arrived.foldl (fun on x => updateEcnUnacked x on) false =
      Latch.after Arrival.marked (·.packet.congAction) arrived := by
  rw [Latch.after]
  congr 1
  funext on x
  exact ite_ite_eq_next _ _ _

/-- Delaying hides no mark. On ECN-capable packets an ACK carries ECN-Echo exactly when a packet
that it or an earlier ACK answers was marked and no packet answered by a later one carried CWR. So
it carries it whenever a sink that answers every packet at once would. -/
theorem delayed_echoes (sane : ∀ j, (events j).Valid)
    (capable : ∀ j x now, events j = .arrives x now → x.packet.ect = true) (k : Nat)
    (h : DelAckHistory) (reached : delAckAt K events k = .ok h) (i : Nat) (a : Answer)
    (here : h.answers[i]? = some a) :
    (a.ack.ecnecho = true ↔ ∃ earlier b later, h.answers.take (i + 1) = earlier ++ b :: later ∧
        (∃ x ∈ b.packets, x.ce = true) ∧
        ∀ c ∈ later, ∀ x ∈ c.packets, x.packet.congAction = false) ∧
      (((h.answers.take (i + 1)).flatMap Answer.packets).foldl
        (fun on x => updateEcnUnacked x on) false = true → a.ack.ecnecho = true) := by
  obtain ⟨delaying, arrived⟩ := delAckAt_delaying sane reached
  have sound := delaying.answers i a here
  have ect : ∀ b ∈ h.answers, ∀ x ∈ b.packets, x.packet.ect = true := by
    intro b listed x member
    have all : x ∈ (List.range k).filterMap fun j => (events j).accepted := by
      rw [← arrived]
      exact List.mem_append_left _ (List.mem_flatMap.mpr ⟨b, listed, member⟩)
    obtain ⟨j, -, accepted⟩ := List.mem_filterMap.mp all
    cases event : events j with
    | arrives y now =>
      simp only [event, SinkEvent.accepted] at accepted
      split at accepted
      · cases accepted
      · cases accepted
        exact capable j x now event
    | expires now =>
      rw [event] at accepted
      cases accepted
  have echo : a.ack.ecnecho = Latch.after Answer.marked Answer.cwr (h.answers.take (i + 1)) := by
    have own := ect a (List.mem_of_getElem? here)
    have some_ : a.packets.any (·.packet.ect) = true := by
      obtain ⟨x, member⟩ := List.exists_mem_of_ne_nil _ sound.nonempty
      exact List.any_eq_true.mpr ⟨x, member, own x member⟩
    have none : a.packets.any (fun x => !x.packet.ect && x.packet.ecnecho) = false := by
      refine List.any_eq_false.mpr fun x member => ?_
      simp [own x member]
    rw [sound.ecnecho, none, some_, Bool.false_or, Bool.true_and]
  rw [echo, foldl_updateEcnUnacked]
  refine ⟨?_, Latch.after_of_flatMap⟩
  rw [Latch.after_iff]
  refine exists_congr fun earlier => exists_congr fun b => exists_congr fun later => ?_
  refine and_congr_right fun split => and_congr ?_ ?_
  · have listed : b ∈ h.answers :=
      List.mem_of_mem_take (i := i + 1) (by rw [split]; exact List.mem_append_right _ (by simp))
    rw [Answer.marked, List.any_eq_true]
    refine exists_congr fun x => and_congr_right fun member => ?_
    rw [Arrival.marked, ect b listed x member, Bool.true_and]
  · refine forall₂_congr fun c _ => ?_
    rw [Answer.cwr, List.any_eq_false]
    exact forall₂_congr fun x _ => by rw [Bool.not_eq_true]

/-- The mark on packet 0 is echoed though packet 1 carries CWR. -/
theorem delayed_echoes_marked : ∃ h a, delAckAt {} delayedEvents 6 = .ok h ∧
    h.answers[0]? = some a ∧ a.ack.ecnecho = true ∧
    (a.ack.ecnecho = true ↔ ∃ earlier b later, h.answers.take 1 = earlier ++ b :: later ∧
        (∃ x ∈ b.packets, x.ce = true) ∧
        ∀ c ∈ later, ∀ x ∈ c.packets, x.packet.congAction = false) ∧
      (((h.answers.take 1).flatMap Answer.packets).foldl
        (fun on x => updateEcnUnacked x on) false = true → a.ack.ecnecho = true) := by
  obtain ⟨h, reached, found⟩ := DrivenRun.exists_of_any (x := delAckAt {} delayedEvents 6)
    (p := fun h => h.answers[0]?.any (·.ack.ecnecho)) (by decide +kernel)
  obtain ⟨a, here, echoed⟩ := (Option.any_eq_true _ _).mp found
  exact ⟨h, a, reached, here, echoed, delayed_echoes {} delayedEvents delayedEvents_sane
    (fun _ _ _ event => (delayedEvents_arrives event).2.2) 6 h reached 0 a here⟩

end Saps.Tcp
