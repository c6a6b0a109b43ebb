import Mathlib.Logic.Function.Basic
import Saps.Tcp.Agent

/-!
# The receiver

`TcpSink` with its `Acker`: what it remembers of the segments that arrived, and
the ACK it answers each of them with. No packet is saved for a delayed ACK, the
ACK carries no SACK blocks, and Quick-Start is off. Numbers are unbounded here;
`IntAcker` has the receive window in the `int`s of the source.
-/
namespace Saps.Tcp

/-- `seen` holds the bytes of a segment at its number modulo `wndmask + 1`, a power of two. -/
structure Acker where
  next : Int
  maxseen : Int
  wndmask : Int
  seen : Int → Int
  isDup : Bool
  ecnUnacked : Bool
  tsToEcho : ℚ
  lastAckSent : Int

namespace Acker

variable (k : Acker)

/-- `seen_[i & wndmask_]`. -/
def seenAt (i : Int) : Int := k.seen (i % (k.wndmask + 1))

def store (i numBytes : Int) : Acker :=
  { k with seen := Function.update k.seen (i % (k.wndmask + 1)) numBytes }

/-- `resize_buffers(int sz)`: the cells from `next_` to `maxseen_ + 1` move, the others are 0. -/
def resizeBuffers (sz : Int) : Acker :=
  let moved := (List.range (k.maxseen + 2 - k.next).toNat).map fun (i : Nat) => k.next + i
  let empty := { k with wndmask := sz - 1, seen := fun _ => 0 }
  moved.foldl (fun new i => new.store i (k.seenAt i)) empty

def updateTs (seqno : Int) (ts : ℚ) (rfc1323 : Bool) : Acker :=
  if rfc1323 ∧ seqno = k.lastAckSent + 1 then { k with tsToEcho := ts }
  else if ts ≥ k.tsToEcho ∧ seqno ≤ k.lastAckSent + 1 then { k with tsToEcho := ts }
  else k

/-- The loop that resizes the buffer until `seq` fits, for at most the given number of rounds. -/
def makeRoom (seq : Int) : Nat → Acker → Acker
  | 0, k => k
  | rounds + 1, k =>
    if seq + 1 - k.next ≥ k.wndmask then
      makeRoom seq rounds (k.resizeBuffers ((k.wndmask + 1) * 2))
    else k

/-- A new maximum: the segments skipped are unseen, and so is the one after it. -/
def raiseMaxseen (seq numBytes : Int) : Acker :=
  let skipped := (List.range (seq - (k.maxseen + 1)).toNat).map fun (i : Nat) => k.maxseen + 1 + i
  let k := skipped.foldl (fun new i => new.store i 0) k
  let k := { k with maxseen := seq }
  (k.store seq numBytes).store (seq + 1) 0

/-- The loop over the segments now in order; more turns than cells mean that it never ends. -/
def advance : Nat → Int → Int → Option (Int × Int)
  | 0, _, _ => none
  | turns + 1, next, numToDeliver =>
    if k.seenAt next ≠ 0 then advance turns (next + 1) (numToDeliver + k.seenAt next)
    else some (next, numToDeliver)

/-- The part of `update()` for a segment between `next_` and `maxseen_`. -/
def receiveInWindow (seq numBytes : Int) (justMarkedAsSeen : Bool) : Option (Acker × Int) :=
  let k := { k with isDup := k.isDup || (decide (k.seenAt seq ≠ 0) && !justMarkedAsSeen) }
  let k := k.store seq numBytes
  (k.advance (k.wndmask + 2).toNat k.next 0).map fun (next, numToDeliver) =>
    ({ k with next }, numToDeliver)

/-- `update(int seq, int numBytes)`; no result if its last loop never ends. -/
def update (seq numBytes : Int) : Option (Acker × Int) :=
  let k := makeRoom seq (seq + 2 - k.next).toNat k
  let justMarkedAsSeen := decide (seq > k.maxseen)
  let k := if justMarkedAsSeen then k.raiseMaxseen seq numBytes else k
  -- a segment left of the window was seen before
  let k := { k with isDup := decide (seq < k.next) }
  if seq ≥ k.next ∧ seq ≤ k.maxseen then k.receiveInWindow seq numBytes justMarkedAsSeen
  else some (k, 0)

/-- `Seqno()`: the left edge of the receive window less one. -/
def seqno : Int := k.next - 1

end Acker

/-- The variables bound on the sink that the plain `TcpSink` reads. -/
structure SinkConfig where
  tsEchoBugfix : Bool := true
  tsEchoRfc1323 : Bool := false

structure TcpSink where
  acker : Acker
  bytes : Int
  lastreset : ℚ

/-- A sink as its constructors leave it. -/
def TcpSink.fresh : TcpSink where
  acker := {
    next := 0
    maxseen := 0
    wndmask := 63
    seen := fun _ => 0
    isDup := false
    ecnUnacked := false
    tsToEcho := 0
    lastAckSent := 0 }
  bytes := 0
  lastreset := 0

/-- A packet as it arrives: `ce` is set if the network marked it. -/
structure Arrival where
  packet : DataPacket
  ce : Bool
deriving DecidableEq, Repr

/-- CWR clears `ecn_unacked_`, and a mark on the same packet sets it again. -/
def updateEcnUnacked (x : Arrival) (ecnUnacked : Bool) : Bool :=
  let ecnUnacked := if x.packet.congAction then false else ecnUnacked
  if x.packet.ect && x.ce then true else ecnUnacked

namespace TcpSink

variable (K : SinkConfig)

def ack (x : Arrival) (now : ℚ) (s : TcpSink) : TcpSink × Ack :=
  let ecnUnacked := updateEcnUnacked x s.acker.ecnUnacked
  let nf : Ack := {
    seqno := s.acker.seqno
    ts := now
    tsEcho := if K.tsEchoBugfix then s.acker.tsToEcho else x.packet.ts
    -- ECN-Echo on a packet that is not ECN-capable negotiates ECN
    ecnecho := if x.packet.ect then ecnUnacked else x.packet.ecnecho }
  ({ s with acker := { s.acker with ecnUnacked, lastAckSent := nf.seqno } }, nf)

/-- `recv(Packet* pkt, Handler*)`; a packet of a previous incarnation gets no ACK. -/
def recv (x : Arrival) (now : ℚ) (s : TcpSink) : Option (TcpSink × Option Ack) :=
  if x.packet.ts < s.lastreset then some (s, none)
  else
    let acker := s.acker.updateTs x.packet.seqno x.packet.ts K.tsEchoRfc1323
    (acker.update x.packet.seqno x.packet.size).map fun (acker, numToDeliver) =>
      let (s, nf) := ack K x now { s with acker, bytes := s.bytes + numToDeliver }
      (s, some nf)

end TcpSink

/-! ### The loops of `update()` -/

namespace Acker

variable {k : Acker}

@[simp] theorem store_next (i numBytes : Int) : (k.store i numBytes).next = k.next := rfl

@[simp] theorem store_maxseen (i numBytes : Int) : (k.store i numBytes).maxseen = k.maxseen := rfl

@[simp] theorem store_wndmask (i numBytes : Int) : (k.store i numBytes).wndmask = k.wndmask := rfl

@[simp] theorem store_ecnUnacked (i numBytes : Int) :
    (k.store i numBytes).ecnUnacked = k.ecnUnacked := rfl

/-- What storing in a cell keeps, storing in any number of cells keeps. -/
theorem foldl_store {β : Type} (f : Acker → β) (kept : ∀ k i numBytes, f (k.store i numBytes) = f k)
    (value : Int → Int) (indices : List Int) :
    f (indices.foldl (fun new i => new.store i (value i)) k) = f k := by
  induction indices generalizing k with
  | nil => rfl
  | cons i indices ih => rw [List.foldl_cons, ih, kept]

@[simp] theorem resizeBuffers_next (sz : Int) : (k.resizeBuffers sz).next = k.next :=
  foldl_store next (fun _ _ _ => rfl) k.seenAt _

@[simp] theorem resizeBuffers_wndmask (sz : Int) : (k.resizeBuffers sz).wndmask = sz - 1 :=
  foldl_store wndmask (fun _ _ _ => rfl) k.seenAt _

@[simp] theorem resizeBuffers_ecnUnacked (sz : Int) :
    (k.resizeBuffers sz).ecnUnacked = k.ecnUnacked :=
  foldl_store ecnUnacked (fun _ _ _ => rfl) k.seenAt _

@[simp] theorem raiseMaxseen_ecnUnacked (seq numBytes : Int) :
    (k.raiseMaxseen seq numBytes).ecnUnacked = k.ecnUnacked :=
  foldl_store ecnUnacked (fun _ _ _ => rfl) (fun _ => 0) _

@[simp] theorem updateTs_ecnUnacked (seqno : Int) (ts : ℚ) (rfc1323 : Bool) :
    (k.updateTs seqno ts rfc1323).ecnUnacked = k.ecnUnacked := by
  simp only [updateTs]
  split_ifs <;> rfl

@[simp] theorem makeRoom_ecnUnacked (seq : Int) (rounds : Nat) :
    (makeRoom seq rounds k).ecnUnacked = k.ecnUnacked := by
  induction rounds generalizing k with
  | zero => rfl
  | succ rounds ih =>
    simp only [makeRoom]
    split
    · rw [ih, resizeBuffers_ecnUnacked]
    · rfl

/-- Every resizing adds a cell at least, so the rounds granted by `update()` suffice. -/
theorem makeRoom_fits {seq : Int} {rounds : Nat} (mask : 0 ≤ k.wndmask)
    (enough : seq + 1 - k.next < k.wndmask + rounds) :
    seq + 1 - (makeRoom seq rounds k).next < (makeRoom seq rounds k).wndmask := by
  induction rounds generalizing k with
  | zero => simpa [makeRoom] using enough
  | succ rounds ih =>
    simp only [makeRoom]
    split
    next full =>
      apply ih
      · rw [resizeBuffers_wndmask]
        omega
      · rw [resizeBuffers_wndmask, resizeBuffers_next]
        push_cast at enough
        omega
    next fits => omega

theorem receiveInWindow_ecnUnacked {j : Acker} {seq numBytes numToDeliver : Int}
    {justMarkedAsSeen : Bool}
    (received : k.receiveInWindow seq numBytes justMarkedAsSeen = some (j, numToDeliver)) :
    j.ecnUnacked = k.ecnUnacked := by
  obtain ⟨delivered, -, same⟩ := Option.map_eq_some_iff.mp received
  cases same
  rfl

theorem update_ecnUnacked {j : Acker} {seq numBytes numToDeliver : Int}
    (updated : k.update seq numBytes = some (j, numToDeliver)) : j.ecnUnacked = k.ecnUnacked := by
  simp only [update, decide_eq_true_eq] at updated
  split_ifs at updated
  · rw [receiveInWindow_ecnUnacked updated, raiseMaxseen_ecnUnacked, makeRoom_ecnUnacked]
  · cases updated
    simp only [raiseMaxseen_ecnUnacked, makeRoom_ecnUnacked]
  · rw [receiveInWindow_ecnUnacked updated, makeRoom_ecnUnacked]
  · cases updated
    simp only [makeRoom_ecnUnacked]

end Acker

end Saps.Tcp
