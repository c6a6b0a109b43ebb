import Mathlib.Data.Rat.Floor

/-!
# The RED queue

`REDQueue` of the switches. `PacketQueue`, what `Queue::reset()` does to it, the
C library and the random numbers are parameters; statistics, traces and the
targets that dropped packets go to are left out.
-/
namespace Saps.Queue

structure Packet where
  size : Int
  ect : Bool
  ce : Bool
deriving DecidableEq, Repr

/-- What the code relies on of the queue below: packets in the order of their arrival. -/
structure PacketQueue (Q : Type) where
  contents : Q → List Packet
  enque : Q → Packet → Q
  deque : Q → Option (Packet × Q)
  /-- `remove(lookup(n))`. -/
  removeAt : Q → Nat → Q
  /-- What `Queue::reset()` leaves of the queue. -/
  reset : Q → Q
  contents_enque : ∀ q pkt, contents (enque q pkt) = contents q ++ [pkt]
  contents_removeAt : ∀ q n, contents (removeAt q n) = (contents q).eraseIdx n

namespace PacketQueue

variable {Q : Type} (queue : PacketQueue Q)

def length (q : Q) : Int := (queue.contents q).length

def byteLength (q : Q) : Int := ((queue.contents q).map Packet.size).sum

end PacketQueue

/-- The functions of the C library that RED calls. -/
structure Maths where
  exp : ℚ → ℚ
  pow : ℚ → ℚ → ℚ

structure Link where
  bandwidth : ℚ

/-- The early drop parameters, as bound with the defaults of the simulator. -/
structure Edp where
  meanPktsize : Int := 1000
  idlePktsize : Int := 100
  bytes : Bool := false
  wait : Bool := true
  setbit : Bool := true
  gentle : Bool := false
  thMin : ℚ := 50
  thMinPkts : ℚ := 0
  thMax : ℚ := 50
  thMaxPkts : ℚ := 0
  maxPInv : ℚ := 10
  markP : ℚ := 1
  useMarkP : Bool := true
  qW : ℚ := 1
  adaptive : Int := 0
  cautious : Int := 0
  alpha : ℚ := 1 / 100
  beta : ℚ := 9 / 10
  interval : ℚ := 1 / 2
  fengAdaptive : Int := 0
  targetdelay : ℚ := 5 / 1000
  top : ℚ := 1 / 2
  bottom : ℚ := 0
  ptc : ℚ := 0
  delay : ℚ := 0

inductive Status where
  | between
  | below
  | above
deriving DecidableEq, Repr

/-- The early drop variables. -/
structure Edv where
  vAve : ℚ
  vProb1 : ℚ
  vSlope : ℚ
  vProb : ℚ
  vA : ℚ
  vB : ℚ
  vC : ℚ
  vD : ℚ
  count : Int
  countBytes : Int
  old : Int
  curMaxP : ℚ
  lastset : ℚ
  status : Status

structure REDQueue (Q : Type) where
  edp : Edp
  edv : Edv
  q : Q
  qlim : Int
  link : Option Link
  qib : Bool
  dropFront : Bool
  dropRand : Bool
  ns1Compat : Bool
  idle : Bool
  idletime : ℚ
  curq : Int

/-- What an arrival draws: `Random::uniform()` and `Random::integer(k)`. -/
structure Draws where
  uniform : ℚ
  integer : Nat → Nat

/-- The conversion of a `double` to an `int`. -/
def truncate (x : ℚ) : Int := if 0 ≤ x then ⌊x⌋ else ⌈x⌉

/-! ### Parameters -/

def initializeParams (exp : ℚ → ℚ) (link : Link) (edp : Edp) : Edp :=
  let edp :=
    if edp.qW = 0 then { edp with qW := 1 - exp (-1 / edp.ptc) }
    else if edp.qW = -1 then
      let rtt := 3 * (edp.delay + 1 / edp.ptc)
      let rtt := if rtt < 1 / 10 then 1 / 10 else rtt
      { edp with qW := 1 - exp (-1 / (10 * rtt * edp.ptc)) }
    else if edp.qW = -2 then { edp with qW := 1 - exp (-10 / edp.ptc) }
    else edp
  let edp :=
    if edp.thMinPkts = 0 then
      let targetqueue := edp.targetdelay * edp.ptc
      { edp with thMinPkts := if 5 < targetqueue / 2 then targetqueue / 2 else 5 }
    else edp
  let edp := if edp.thMaxPkts = 0 then { edp with thMaxPkts := 3 * edp.thMinPkts } else edp
  if edp.bottom = 0 then
    let bottom1 := 80000 / link.bandwidth
    { edp with bottom := if bottom1 < 1 / 100 then bottom1 else 1 / 100 }
  else edp

/-- What `reset()` makes of the parameters. -/
def resetEdp (exp : ℚ → ℚ) (link : Option Link) (qib : Bool) (edp : Edp) : Edp :=
  let edp := match link with
    | some link =>
      initializeParams exp link { edp with ptc := link.bandwidth / (8 * edp.meanPktsize) }
    | none => edp
  let edp := if edp.thMaxPkts = 0 then { edp with thMaxPkts := 3 * edp.thMinPkts } else edp
  if qib then
    { edp with
      thMin := edp.thMinPkts * edp.meanPktsize
      thMax := edp.thMaxPkts * edp.meanPktsize }
  else { edp with thMin := edp.thMinPkts, thMax := edp.thMaxPkts }

/-- What `reset()` makes of the variables. -/
def resetEdv (edp : Edp) (edv : Edv) : Edv :=
  let thDiff := if edp.thMax - edp.thMin = 0 then 1 else edp.thMax - edp.thMin
  let curMaxP := 1 / edp.maxPInv
  let edv := { edv with
    vAve := 0
    vSlope := 0
    count := 0
    countBytes := 0
    old := 0
    vA := 1 / thDiff
    curMaxP
    vB := -edp.thMin / thDiff
    lastset := 0 }
  if edp.gentle then { edv with vC := (1 - curMaxP) / edp.thMax, vD := 2 * curMaxP - 1 } else edv

/-! ### The average -/

def updateMaxPFeng (edp : Edp) (newAve : ℚ) (edv : Edv) : Edv :=
  let edv :=
    if edp.thMin < newAve ∧ newAve < edp.thMax then { edv with status := .between } else edv
  let edv :=
    if newAve < edp.thMin ∧ edv.status ≠ .below then
      { edv with status := .below, curMaxP := edv.curMaxP / edp.alpha }
    else edv
  if newAve > edp.thMax ∧ edv.status ≠ .above then
    { edv with status := .above, curMaxP := edv.curMaxP * edp.beta }
  else edv

def updateMaxP (edp : Edp) (newAve now : ℚ) (edv : Edv) : Edv :=
  let part := 4 / 10 * (edp.thMax - edp.thMin)
  if newAve < edp.thMin + part ∧ edv.curMaxP > edp.bottom then
    { edv with curMaxP := edv.curMaxP * edp.beta, lastset := now }
  else if newAve > edp.thMax - part ∧ edp.top > edv.curMaxP then
    let alpha := if edp.alpha > 1 / 4 * edv.curMaxP then 1 / 4 * edv.curMaxP else edp.alpha
    { edv with curMaxP := edv.curMaxP + alpha, lastset := now }
  else edv

/-- The loop over the arrivals pretended for an idle period. -/
def decay (qW : ℚ) : Nat → ℚ → ℚ
  | 0, newAve => newAve
  | turns + 1, newAve => decay qW turns (newAve * (1 - qW))

/-- `estimator(nqueued, m, ave, q_w)`, which also adapts `max_p`. -/
def estimator (edp : Edp) (nqueued m : Int) (ave qW now : ℚ) (edv : Edv) : ℚ × Edv :=
  let newAve := decay qW (m - 1).toNat ave
  let newAve := newAve * (1 - qW)
  let newAve := newAve + qW * nqueued
  let edv :=
    if edp.adaptive = 1 then
      if edp.fengAdaptive = 1 then updateMaxPFeng edp newAve edv
      else if now > edv.lastset + edp.interval then updateMaxP edp newAve now edv
      else edv
    else edv
  (newAve, edv)

/-! ### The drop probability -/

def calculatePNew (vAve thMax : ℚ) (gentle : Bool) (vA vB vC vD maxP : ℚ) : ℚ :=
  let p :=
    if gentle ∧ vAve ≥ thMax then vC * vAve + vD
    else if ¬ gentle ∧ vAve ≥ thMax then 1
    else (vA * vAve + vB) * maxP
  if p > 1 then 1 else p

def modifyP (p : ℚ) (count countBytes : Int) (bytes : Bool) (meanPktsize : Int) (wait : Bool)
    (size : Int) : ℚ :=
  let count1 : ℚ := if bytes then (countBytes.tdiv meanPktsize : Int) else count
  let p :=
    if wait then
      if count1 * p < 1 then 0
      else if count1 * p < 2 then p / (2 - count1 * p)
      else 1
    else if count1 * p < 1 then p / (1 - count1 * p)
    else 1
  let p := if bytes ∧ p < 1 then p * size / meanPktsize else p
  if p > 1 then 1 else p

namespace REDQueue

variable {Q : Type} (queue : PacketQueue Q) (maths : Maths)

def reset (now : ℚ) (s : REDQueue Q) : REDQueue Q :=
  let edp := resetEdp maths.exp s.link s.qib s.edp
  { s with
    edp
    edv := resetEdv edp s.edv
    idle := true
    idletime := now
    q := queue.reset s.q }

/-- The queue size, in the unit of the limit. -/
def qlen (s : REDQueue Q) : Int := if s.qib then queue.byteLength s.q else queue.length s.q

def deque (now : ℚ) (s : REDQueue Q) : REDQueue Q × Option Packet :=
  match queue.deque s.q with
  | some (pkt, q) => ({ s with q, idle := false }, some pkt)
  | none => ({ s with idle := true, idletime := now }, none)

/-- `drop_early(pkt)`: whether to drop, the packet with the mark it got, and the state. -/
def dropEarly (pkt : Packet) (u : ℚ) (s : REDQueue Q) : Bool × Packet × REDQueue Q :=
  let edp := s.edp
  let vProb1 := calculatePNew s.edv.vAve edp.thMax edp.gentle s.edv.vA s.edv.vB s.edv.vC s.edv.vD
    s.edv.curMaxP
  let vProb := modifyP vProb1 s.edv.count s.edv.countBytes edp.bytes edp.meanPktsize edp.wait
    pkt.size
  let s := { s with edv := { s.edv with vProb1, vProb } }
  let fraction := maths.pow (1 - edp.qW) (edp.ptc * (5 / 100))
  if edp.cautious = 1 ∧ (qlen queue s : ℚ) < fraction * s.edv.vAve then (false, pkt, s)
  else
    let ratio := qlen queue s / (fraction * s.edv.vAve)
    let u := if edp.cautious = 2 ∧ ratio < 1 then u * (1 / ratio) else u
    if u ≤ vProb then
      -- drop or mark
      let s := { s with edv := { s.edv with count := 0, countBytes := 0 } }
      if edp.setbit ∧ pkt.ect ∧ (¬ edp.useMarkP ∨ vProb1 ≤ edp.markP) then
        (false, { pkt with ce := true }, s)
      else (true, pkt, s)
    else (false, pkt, s)

/-- The index of the packet that `pickPacketToDrop()` picks. -/
def victim (integer : Nat → Nat) (s : REDQueue Q) : Nat :=
  let length := (queue.contents s.q).length
  if s.dropFront then min 1 (length - 1)
  else if s.dropRand then integer length
  else length - 1

inductive Droptype where
  | none
  | forced
  | unforced
deriving DecidableEq, Repr

/-- What `enque()` leaves: the queue, the packet with its mark, and the packets dropped. -/
structure Enqueued (Q : Type) where
  s : REDQueue Q
  pkt : Packet
  dropped : List Packet

/-- The average at an arrival, after what is pretended for an idle period. -/
def average (now : ℚ) (s : REDQueue Q) : REDQueue Q :=
  let edp := s.edp
  let ptc := if edp.cautious = 3 then edp.ptc * edp.meanPktsize / edp.idlePktsize else edp.ptc
  let m := if s.idle then truncate (ptc * (now - s.idletime)) else 0
  let (vAve, edv) := estimator edp (qlen queue s) (m + 1) s.edv.vAve edp.qW now s.edv
  { s with idle := false, edv := { edv with vAve } }

/-- The tally of arriving traffic since the last early drop. -/
def tally (pkt : Packet) (s : REDQueue Q) : REDQueue Q :=
  { s with
    edv := { s.edv with
      count := s.edv.count + 1
      countBytes := s.edv.countBytes + pkt.size }
    curq := qlen queue s }

/-- The drop logic, up to the check of the limit. -/
def dropLogic (pkt : Packet) (u : ℚ) (s : REDQueue Q) : Droptype × Packet × REDQueue Q :=
  let edp := s.edp
  let qavg := s.edv.vAve
  if qavg ≥ edp.thMin ∧ qlen queue s > 1 then
    if ¬ edp.useMarkP ∧
        ((¬ edp.gentle ∧ qavg ≥ edp.thMax) ∨ (edp.gentle ∧ qavg ≥ 2 * edp.thMax)) then
      (.forced, pkt, s)
    else if s.edv.old = 0 then
      -- the average has just crossed the threshold
      (.none, pkt, { s with edv := { s.edv with count := 1, countBytes := pkt.size, old := 1 } })
    else
      let (drop, pkt, s) := dropEarly queue maths pkt u s
      (if drop then .unforced else .none, pkt, s)
  else (.none, pkt, { s with edv := { s.edv with vProb := 0, old := 0 } })

/-- The end of `enque()`: the packet enters the queue or is dropped. -/
def settle (droptype : Droptype) (integer : Nat → Nat) (pkt : Packet) (s : REDQueue Q) : Enqueued Q :=
  match droptype with
  | .unforced => { s, pkt, dropped := [pkt] }
  | .none => { s := { s with q := queue.enque s.q pkt }, pkt, dropped := [] }
  | .forced =>
    -- a forced drop takes a packet of the queue, which may be the one that just came
    let s := { s with q := queue.enque s.q pkt }
    let n := victim queue integer s
    let edv := if s.ns1Compat then s.edv else { s.edv with count := 0, countBytes := 0 }
    { s := { s with q := queue.removeAt s.q n, edv }
      pkt
      dropped := (queue.contents s.q)[n]?.toList }

/-- `enque(Packet* pkt)`. -/
def enque (pkt : Packet) (now : ℚ) (draws : Draws) (s : REDQueue Q) : Enqueued Q :=
  let s := tally queue pkt (average queue now s)
  let len := qlen queue s
  let limit := if s.qib then s.qlim * s.edp.meanPktsize else s.qlim
  let (droptype, pkt, s) := dropLogic queue maths pkt draws.uniform s
  settle queue (if len ≥ limit then .forced else droptype) draws.integer pkt s

end REDQueue

end Saps.Queue
