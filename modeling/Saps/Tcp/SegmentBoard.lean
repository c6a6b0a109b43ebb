import Saps.Tcp.Sack1

/-!
# A sender to run

A scoreboard that keeps SACKed segments in a list, and the DCTCP configuration of
the simulation script over the library's defaults, so that runs can be computed.
-/
namespace Saps.Tcp

structure SackedSegments where
  lastAck : Int
  segments : List Int
  retransmitted : Int
  changed : Bool
deriving DecidableEq, Repr

namespace SackedSegments

/-- The numbers from `left` up to but not including `right`. -/
def numbers (left right : Int) : List Int :=
  (List.range (right - left).toNat).map fun (offset : Nat) => left + offset

def update (lastAck : Int) (ack : Ack) (b : SackedSegments) : SackedSegments :=
  let reported := ack.sackArea.flatMap fun (left, right) => numbers left right
  let new := reported.filter fun s => decide (s ∉ b.segments)
  { b with lastAck, segments := b.segments ++ new, changed := !new.isEmpty }

/-- The lowest hole below a SACKed segment that was not retransmitted yet, or -1. -/
def nextHole (b : SackedSegments) : Int :=
  let first := max b.lastAck b.retransmitted + 1
  let below := b.segments.flatMap fun top => numbers first top
  let holes := below.filter fun s => decide (s ∉ b.segments)
  holes.foldl (fun least s => if least = -1 ∨ s < least then s else least) (-1)

end SackedSegments

def segmentBoard : ScoreBoard SackedSegments where
  empty := ⟨-1, [], -1, false⟩
  clearScoreBoard _ := ⟨-1, [], -1, false⟩
  updateScoreBoard := SackedSegments.update
  checkUpdate b := b.changed
  isChanged b := b.changed
  getNextRetran b := (b.nextHole, b)
  getNextUnacked s b := (s, b)
  markRetran s b := { b with retransmitted := s }

/-- `windowOption_ 0` calls no function of the C library. -/
def dctcpSetup : Setup SackedSegments where
  ecn := true
  oldEcn := true
  dctcp := true
  slowStartRestart := false
  wndOption := .perWindow
  libm := { pow := fun _ _ => 1, log := fun _ => 0, exp := fun _ => 1 }
  board := segmentBoard

/-- The stimuli one by one, all at time 0; after the last one the application is idle. -/
def scripted (script : List Stimulus) (k : Nat) : Input :=
  { now := 0, stimulus := script.getD k (.advanceby 0), turns := 20 }

def ackFor (seqno : Int) : Stimulus := .ack { seqno }

def ackWithEcho (seqno : Int) : Stimulus := .ack { seqno, ecnecho := true }

/-- The sender after the whole script. -/
def afterScript (script : List Stimulus) : Except Fault (Agent SackedSegments) :=
  agentAt dctcpSetup (fresh dctcpSetup) (scripted script) script.length

/-- The entries of a history from number `i` up to but not including number `j`. -/
def entriesBetween (a : Agent SackedSegments) (i j : Nat) : List Entry :=
  (a.entries.drop i).take (j - i)

end Saps.Tcp
