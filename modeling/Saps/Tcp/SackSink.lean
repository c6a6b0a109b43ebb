import Saps.Tcp.SackBlocks

/-!
# The sink with SACK

`TcpSink` over a `Sacker`: the plain sink's handling of a packet, with the blocks
that `append_ack()` puts on the ACK.
-/
namespace Saps.Tcp

structure SackSink where
  sacker : Sacker
  bytes : Int
  lastreset : ℚ

namespace SackSink

/-- A sink as its constructors and `configure()` leave it. -/
def fresh (nblocks : Int) : SackSink where
  sacker := .fresh nblocks
  bytes := 0
  lastreset := 0

variable (K : SinkConfig)

def ack (x : Arrival) (now : ℚ) (s : SackSink) : Option (SackSink × Ack) := do
  let ecnUnacked := updateEcnUnacked x s.sacker.acker.ecnUnacked
  let sacker := { s.sacker with acker := { s.sacker.acker with ecnUnacked } }
  let (sacker, blocks) ← sacker.appendAck x.packet.seqno
  let nf : Ack := {
    seqno := s.sacker.acker.seqno
    ts := now
    tsEcho := if K.tsEchoBugfix then s.sacker.acker.tsToEcho else x.packet.ts
    ecnecho := if x.packet.ect then ecnUnacked else x.packet.ecnecho
    sackArea := blocks.map fun block => (block.left, block.right) }
  let sacker := { sacker with acker := { sacker.acker with lastAckSent := nf.seqno } }
  some ({ s with sacker }, nf)

/-- `recv(Packet* pkt, Handler*)`; a packet of a previous incarnation gets no ACK. -/
def recv (x : Arrival) (now : ℚ) (s : SackSink) : Option (SackSink × Option Ack) :=
  if x.packet.ts < s.lastreset then some (s, none)
  else do
    let acker := s.sacker.acker.updateTs x.packet.seqno x.packet.ts K.tsEchoRfc1323
    let (acker, numToDeliver) ← acker.update x.packet.seqno x.packet.size
    let (s, nf) ← ack K x now
      { s with sacker := { s.sacker with acker }, bytes := s.bytes + numToDeliver }
    some (s, some nf)

end SackSink

/-- The arguments of `update()` for a packet that arrived. -/
def Arrival.segment (x : Arrival) : Segment := ⟨x.packet.seqno, x.packet.size⟩

/-! ### What an ACK says -/

namespace Acker

/-- Two ackers with the same receive window. -/
structure SameWindow (k j : Acker) : Prop where
  next : j.next = k.next
  maxseen : j.maxseen = k.maxseen
  wndmask : j.wndmask = k.wndmask
  seen : j.seen = k.seen

theorem Tracks.sameWindow {k j : Acker} {calls : List Segment} (tracks : Tracks calls k)
    (same : SameWindow k j) : Tracks calls j := by
  obtain ⟨next, maxseen, wndmask, seen, isDup, ecnUnacked, tsToEcho, lastAckSent⟩ := j
  obtain ⟨rfl, rfl, rfl, rfl⟩ := same
  exact ⟨⟨tracks.nonneg, tracks.delivered, tracks.maxseen, tracks.narrow, tracks.shows⟩,
    tracks.missing⟩

theorem updateTs_sameWindow (k : Acker) (seqno : Int) (ts : ℚ) (rfc1323 : Bool) :
    SameWindow k (k.updateTs seqno ts rfc1323) := by
  simp only [updateTs]
  split_ifs <;> exact ⟨rfl, rfl, rfl, rfl⟩

namespace SameWindow

variable {k j : Acker} (same : SameWindow k j)
include same

theorem seqno : j.seqno = k.seqno := by
  rw [Acker.seqno, same.next, Acker.seqno]

theorem seenAt (i : Int) : j.seenAt i = k.seenAt i := by
  rw [Acker.seenAt, same.seen, same.wndmask, Acker.seenAt]

theorem holeRight (turns : Nat) (i : Int) : j.holeRight turns i = k.holeRight turns i := by
  induction turns generalizing i with
  | zero => rfl
  | succ turns ih => rw [Acker.holeRight, same.seenAt, ih, Acker.holeRight]

theorem holeLeft (turns : Nat) (i : Int) : j.holeLeft turns i = k.holeLeft turns i := by
  induction turns generalizing i with
  | zero => rfl
  | succ turns ih => rw [Acker.holeLeft, same.seenAt, ih, Acker.holeLeft]

theorem sackRight (oldSeqno : Int) : j.sackRight oldSeqno = k.sackRight oldSeqno := by
  rw [Acker.sackRight, same.maxseen, same.holeRight, Acker.sackRight]

theorem sackLeft (right : Int) : j.sackLeft right = k.sackLeft right := by
  rw [Acker.sackLeft, same.seqno, same.holeLeft, Acker.sackLeft]

end SameWindow

end Acker

namespace Sacker

variable {s : Sacker} {calls : List Segment} {blocks : List SackBlock}

theorem Tells.withAcker {j : Acker} (tells : Tells calls s blocks)
    (same : Acker.SameWindow s.acker j) : Tells calls { s with acker := j } blocks :=
  { tells with
    tracks := tells.tracks.sameWindow same
    above := fun block member => by
      have above := tells.above block member
      simp only [Acker.seqno, same.next] at above ⊢
      exact above }

/-- `append_ack()` reads the receive window and `is_dup_`, and changes neither. -/
theorem appendAck_sameWindow {j : Acker} (same : Acker.SameWindow s.acker j)
    (dup : j.isDup = s.acker.isDup) (oldSeqno : Int) :
    appendAck { s with acker := j } oldSeqno =
      (s.appendAck oldSeqno).map fun (t, reported) => ({ t with acker := j }, reported) := by
  have built (blocks : List SackBlock) :
      buildBlocks { s with acker := j } oldSeqno blocks = s.buildBlocks oldSeqno blocks := by
    simp only [buildBlocks, same.seqno, same.sackRight, same.sackLeft, same.maxseen]
  simp only [appendAck, built, same.seqno, same.maxseen, dup]
  split_ifs <;> simp [Option.map_map, Function.comp_def]

theorem appendAck_acker {t : Sacker} {oldSeqno : Int} {reported : List SackBlock}
    (appended : s.appendAck oldSeqno = some (t, reported)) : t.acker = s.acker := by
  have same : Acker.SameWindow s.acker s.acker := ⟨rfl, rfl, rfl, rfl⟩
  have again := appendAck_sameWindow same rfl oldSeqno
  rw [appended, Option.map_some] at again
  exact congrArg (fun answer => answer.1.acker) (Option.some.inj again)

end Sacker

/-! ### One packet -/

/-- What an ACK with these blocks says of the packets that arrived. -/
structure Ack.Reports (ack : Ack) (s : Sacker) (blocks : List SackBlock) : Prop where
  seqno : ack.seqno = s.acker.seqno
  sackArea : ack.sackArea = blocks.map fun block => (block.left, block.right)

/-- A packet of this incarnation is answered with an ACK that says what has arrived so far. -/
theorem SackSink.recv_tells {s : SackSink} {x : Arrival} {calls : List Segment}
    {blocks : List SackBlock} (K : SinkConfig) (now : ℚ) (tells : s.sacker.Tells calls blocks)
    (valid : ValidCalls (calls ++ [x.segment])) (current : ¬ x.packet.ts < s.lastreset) :
    ∃ t ack reported, s.recv K x now = some (t, some ack) ∧
      t.sacker.Tells (calls ++ [x.segment]) reported ∧ ack.Reports t.sacker reported ∧
      ack.ts = now ∧ t.lastreset = s.lastreset := by
  have before := tells.withAcker (Acker.updateTs_sameWindow s.sacker.acker x.packet.seqno
    x.packet.ts K.tsEchoRfc1323)
  obtain ⟨t, reported, received, after, -, -⟩ := before.receive valid
  -- the window is updated first, and the blocks are built from it
  rw [Sacker.receive, Option.bind_eq_bind, Option.bind_eq_some_iff] at received
  obtain ⟨⟨acker, numToDeliver⟩, updated, appended⟩ := received
  have kept : t.acker = acker := Sacker.appendAck_acker appended
  let ecnUnacked := updateEcnUnacked x acker.ecnUnacked
  have marked := Sacker.appendAck_sameWindow (s := { s.sacker with acker })
    (j := { acker with ecnUnacked }) ⟨rfl, rfl, rfl, rfl⟩ rfl x.packet.seqno
  rw [show Sacker.appendAck { s.sacker with acker } x.packet.seqno = some (t, reported)
    from appended, Option.map_some] at marked
  let nf : Ack := {
    seqno := acker.seqno
    ts := now
    tsEcho := if K.tsEchoBugfix then acker.tsToEcho else x.packet.ts
    ecnecho := if x.packet.ect then ecnUnacked else x.packet.ecnecho
    sackArea := reported.map fun block => (block.left, block.right) }
  refine ⟨⟨{ t with acker := { acker with ecnUnacked, lastAckSent := acker.seqno } },
    s.bytes + numToDeliver, s.lastreset⟩, nf, reported, ?_, after.withAcker ?_, ⟨rfl, rfl⟩, rfl,
    rfl⟩
  · simp only [Arrival.segment] at updated
    simp only [recv, if_neg current, updated, Option.bind_eq_bind, Option.bind_some, ack]
    rw [marked]
    rfl
  · rw [kept]
    exact ⟨rfl, rfl, rfl, rfl⟩

/-- A sink is reset from outside only. -/
theorem SackSink.recv_lastreset {K : SinkConfig} {s t : SackSink} {x : Arrival} {now : ℚ}
    {ack : Option Ack} (received : s.recv K x now = some (t, ack)) : t.lastreset = s.lastreset := by
  simp only [recv] at received
  split at received
  · cases received
    rfl
  · simp only [Option.bind_eq_bind, Option.bind_eq_some_iff, SackSink.ack] at received
    obtain ⟨_, -, _, ⟨_, -, made⟩, done⟩ := received
    cases made
    cases done
    rfl

end Saps.Tcp
