import Mathlib.Data.List.GetD
import Saps.Tcp.Sink

/-!
# The SACK receiver

`SackStack`, the history of the blocks reported last, and `Sacker`, which puts
SACK blocks on every ACK. An index outside the stack is a failure. Segment numbers are
unbounded here; `IntSacker` has them as `int`s.
-/
namespace Saps.Tcp

/-- `Sf_Entry`, and a block in the header of an ACK: the segments from `left` to `right - 1`. -/
structure SackBlock where
  left : Int
  right : Int
deriving DecidableEq, Repr

/-- A cell without a block. -/
def SackBlock.unset : SackBlock := ⟨-1, -1⟩

structure SackStack where
  size : Int
  cnt : Int
  SFE : Int → SackBlock

namespace SackStack

/-- `SackStack(int sz)`. -/
def create (sz : Int) : SackStack where
  size := sz
  cnt := 0
  SFE := fun _ => .unset

variable (s : SackStack)

/-- `head_left(n)` and `head_right(n)`. -/
def head (n : Int) : Option SackBlock :=
  if 0 ≤ n ∧ n < s.size then some (s.SFE n) else none

def store (n : Int) (block : SackBlock) : SackStack :=
  { s with SFE := Function.update s.SFE n block }

def setHead (n : Int) (block : SackBlock) : Option SackStack :=
  if 0 ≤ n ∧ n < s.size then some (s.store n block) else none

/-- `reset()`: the cells `i` to `i + turns - 1` are unset. -/
def resetFrom (i : Int) : Nat → SackStack → Option SackStack
  | 0, s => some s
  | turns + 1, s => do
    let s ← s.setHead i .unset
    resetFrom (i + 1) turns s

def reset : Option SackStack :=
  (resetFrom 0 s.cnt.toNat s).map fun s => { s with cnt := 0 }

/-- The loop of `push()`: the cells `n` to `n + turns - 1` move down by one, the last one first. -/
def shiftDown (n : Int) : Nat → SackStack → Option SackStack
  | 0, s => some s
  | turns + 1, s => do
    let block ← s.head (n + turns)
    let s ← s.setHead (n + turns + 1) block
    shiftDown n turns s

def push (n : Int := 0) : Option SackStack :=
  -- overflow check
  let s := if s.cnt ≥ s.size then { s with cnt := s.size - 1 } else s
  (shiftDown n (s.cnt - n).toNat s).map fun s => { s with cnt := s.cnt + 1 }

/-- The loop of `pop()`: the cells `i + 1` to `i + turns` move up by one, the first one first. -/
def shiftUp (i : Int) : Nat → SackStack → Option SackStack
  | 0, s => some s
  | turns + 1, s => do
    let block ← s.head (i + 1)
    let s ← s.setHead i block
    shiftUp (i + 1) turns s

def pop (n : Int := 0) : Option SackStack := do
  let turns := (s.cnt - 1 - n).toNat
  let s ← shiftUp n turns s
  let s ← s.setHead (n + turns) .unset
  some { s with cnt := s.cnt - 1 }

end SackStack

namespace Acker

variable (k : Acker)

/-- The loop rightward from `i`: the first hole. -/
def holeRight : Nat → Int → Option Int
  | 0, _ => none
  | turns + 1, i => if k.seenAt i = 0 then some i else holeRight turns (i + 1)

/-- The loop leftward from `i`: the first hole. -/
def holeLeft : Nat → Int → Option Int
  | 0, _ => none
  | turns + 1, i => if k.seenAt i = 0 then some i else holeLeft turns (i - 1)

/-- `sack_right`; if there is no hole up to `maxseen_`, the next expected packet. -/
def sackRight (oldSeqno : Int) : Int :=
  (k.holeRight (k.maxseen + 1 - oldSeqno).toNat oldSeqno).getD (k.maxseen + 1)

/-- `sack_left` of a block that ends at `right`; -1 if there is no hole above the cumulative ACK. -/
def sackLeft (right : Int) : Int :=
  ((k.holeLeft (right - 1 - k.seqno).toNat (right - 1)).map fun i => i + 1).getD (-1)

end Acker

structure Sacker where
  acker : Acker
  baseNblocks : Int
  dsacks : Bool
  sf : SackStack

namespace Sacker

/-- The constructor and `configure()`, with at most `NSA` blocks allowed. -/
def fresh (nblocks : Int) : Sacker where
  acker := TcpSink.fresh.acker
  baseNblocks := nblocks
  dsacks := false
  sf := .create nblocks

/-- The limit that the TCP header sets. -/
def NSA : Int := 3

/-- The loop over the older blocks: those the newest one covers leave the stack, the others are
reported as long as there is room. The list holds the blocks of the header so far. -/
def otherBlocks (baseNblocks maxseen : Int) (recent : SackBlock) :
    Nat → Int → SackStack → List SackBlock → Option (SackStack × List SackBlock)
  | 0, _, _, _ => none
  | turns + 1, k, sf, blocks =>
    if blocks.length < baseNblocks then do
      let block ← sf.head k
      -- no more history
      if block.left < 0 ∨ block.right < 0 ∨ block.right > maxseen + 1 then
        some (sf, blocks)
      else if recent.left ≤ block.left ∧ recent.right ≥ block.right then do
        let sf ← sf.pop k
        otherBlocks baseNblocks maxseen recent turns k sf blocks
      else otherBlocks baseNblocks maxseen recent turns (k + 1) sf (blocks ++ [block])
    else some (sf, blocks)

variable (s : Sacker)

/-- The part of `append_ack()` that builds the first block and checks the others. -/
def buildBlocks (oldSeqno : Int) (blocks : List SackBlock) :
    Option (SackStack × List SackBlock) := do
  let seqno := s.acker.seqno
  let sackRight := s.acker.sackRight oldSeqno
  -- left of the window the block is neither recorded nor sent
  let sackLeft := if oldSeqno ≤ seqno then 0 else s.acker.sackLeft sackRight
  let recent : SackBlock := ⟨sackLeft, sackRight⟩
  let blocks := if oldSeqno ≤ seqno then blocks else blocks ++ [recent]
  let (sf, blocks) ← otherBlocks s.baseNblocks s.acker.maxseen recent
    (s.baseNblocks + s.sf.cnt + 1).toNat 0 s.sf blocks
  if oldSeqno > seqno then do
    -- put the most recent block onto the stack
    let sf ← sf.push
    let sf ← sf.setHead 0 recent
    some (sf, blocks)
  else some (sf, blocks)

/-- `append_ack(ch, h, old_seqno)`: the blocks put in the header. -/
def appendAck (oldSeqno : Int) : Option (Sacker × List SackBlock) :=
  let seqno := s.acker.seqno
  if oldSeqno < 0 then some (s, [])
  else if seqno ≥ s.acker.maxseen ∧ s.sf.cnt ≠ 0 then
    s.sf.reset.map fun sf => ({ s with sf }, [])
  else if (seqno < s.acker.maxseen ∨ s.acker.isDup) ∧ s.baseNblocks > 0 then
    let blocks : List SackBlock :=
      if s.dsacks && s.acker.isDup then [⟨oldSeqno, oldSeqno + 1⟩] else []
    if blocks.length ≥ s.baseNblocks then some (s, blocks)
    else (s.buildBlocks oldSeqno blocks).map fun (sf, blocks) => ({ s with sf }, blocks)
  else some (s, [])

/-- What `TcpSink::recv()` does with a segment: `update()`, then `append_ack()`. -/
def receive (seqno numBytes : Int) : Option (Sacker × List SackBlock) := do
  let (acker, _) ← s.acker.update seqno numBytes
  appendAck { s with acker } seqno

end Sacker

/-! ### The stack as a list -/

/-- The blocks on the stack, the most recent one first. -/
structure SackStack.Holds (s : SackStack) (blocks : List SackBlock) : Prop where
  cnt : s.cnt = blocks.length
  room : blocks.length ≤ s.size
  cells : ∀ i : Nat, i < s.size → s.SFE i = blocks.getD i .unset

namespace SackStack

variable {s : SackStack} {blocks : List SackBlock}

theorem holds_create {sz : Int} (positive : 0 ≤ sz) : Holds (create sz) [] where
  cnt := rfl
  room := positive
  cells := fun _ _ => rfl

@[simp] theorem store_size (n : Int) (block : SackBlock) : (s.store n block).size = s.size := rfl

@[simp] theorem store_cnt (n : Int) (block : SackBlock) : (s.store n block).cnt = s.cnt := rfl

theorem store_SFE (n : Int) (block : SackBlock) (j : Int) :
    (s.store n block).SFE j = if j = n then block else s.SFE j :=
  Function.update_apply s.SFE n block j

theorem head_eq {n : Int} (low : 0 ≤ n) (high : n < s.size) : s.head n = some (s.SFE n) :=
  if_pos ⟨low, high⟩

theorem setHead_eq {n : Int} {block : SackBlock} (low : 0 ≤ n) (high : n < s.size) :
    s.setHead n block = some (s.store n block) :=
  if_pos ⟨low, high⟩

theorem resetFrom_eq {i : Int} {turns : Nat} (low : 0 ≤ i) (high : i + turns ≤ s.size) :
    ∃ SFE, resetFrom i turns s = some { s with SFE } ∧
      ∀ j, SFE j = if i ≤ j ∧ j < i + turns then .unset else s.SFE j := by
  induction turns generalizing i s with
  | zero => exact ⟨s.SFE, rfl, fun j => by rw [if_neg (by omega)]⟩
  | succ turns ih =>
    push_cast at high
    obtain ⟨SFE, run, cells⟩ :=
      @ih (s.store i .unset) (i + 1) (by omega) (by rw [store_size]; omega)
    refine ⟨SFE, ?_, fun j => ?_⟩
    · rw [resetFrom, setHead_eq low (by omega)]
      exact run
    · rw [cells j, store_SFE]
      split_ifs <;> first | rfl | omega

/-- The last cell moves first, so no cell is overwritten before it has moved. -/
theorem shiftDown_eq {n : Int} {turns : Nat} (low : 0 ≤ n) (high : n + turns < s.size) :
    ∃ SFE, shiftDown n turns s = some { s with SFE } ∧
      ∀ j, SFE j = if n < j ∧ j ≤ n + turns then s.SFE (j - 1) else s.SFE j := by
  induction turns generalizing s with
  | zero => exact ⟨s.SFE, rfl, fun j => by rw [if_neg (by omega)]⟩
  | succ turns ih =>
    push_cast at high
    obtain ⟨SFE, run, cells⟩ :=
      @ih (s.store (n + turns + 1) (s.SFE (n + turns))) (by rw [store_size]; omega)
    refine ⟨SFE, ?_, fun j => ?_⟩
    · rw [shiftDown, head_eq (by omega) (by omega), Option.bind_eq_bind, Option.bind_some,
        setHead_eq (by omega) (by omega)]
      exact run
    · push_cast
      rw [cells j, store_SFE, store_SFE]
      -- the cell that this turn fills is behind those of the others
      rcases eq_or_ne j (n + turns + 1) with rfl | other
      · rw [if_neg (by omega), if_pos rfl, if_pos (by omega), add_sub_cancel_right]
      · rw [if_neg other]
        split_ifs <;> first | rfl | omega

theorem shiftUp_eq {i : Int} {turns : Nat} (low : 0 ≤ i) (high : i + turns < s.size) :
    ∃ SFE, shiftUp i turns s = some { s with SFE } ∧
      ∀ j, SFE j = if i ≤ j ∧ j < i + turns then s.SFE (j + 1) else s.SFE j := by
  induction turns generalizing i s with
  | zero => exact ⟨s.SFE, rfl, fun j => by rw [if_neg (by omega)]⟩
  | succ turns ih =>
    push_cast at high
    obtain ⟨SFE, run, cells⟩ := @ih (s.store i (s.SFE (i + 1))) (i + 1) (by omega)
      (by rw [store_size]; omega)
    refine ⟨SFE, ?_, fun j => ?_⟩
    · rw [shiftUp, head_eq (by omega) (by omega), Option.bind_eq_bind, Option.bind_some,
        setHead_eq (by omega) (by omega)]
      exact run
    · push_cast
      rw [cells j, store_SFE, store_SFE]
      -- the first cell is filled by this turn, which comes before the others
      rcases eq_or_ne j i with rfl | other
      · rw [if_neg (by omega), if_pos rfl, if_pos (by omega)]
      · rw [if_neg other]
        split_ifs <;> first | rfl | omega

namespace Holds

/-- A cell without a block is unset. -/
theorem unset (holds : s.Holds blocks) {i : Nat} (past : blocks.length ≤ i) (high : i < s.size) :
    s.SFE i = .unset := by
  rw [holds.cells i high, List.getD_eq_default _ _ past]

theorem head (holds : s.Holds blocks) {n : Nat} (high : n < s.size) :
    s.head n = some (blocks.getD n .unset) := by
  rw [head_eq (by omega) high, holds.cells n high]

theorem reset (holds : s.Holds blocks) : ∃ t, s.reset = some t ∧ t.Holds [] ∧ t.size = s.size := by
  have room := holds.room
  obtain ⟨SFE, run, cells⟩ := @resetFrom_eq s 0 blocks.length (by omega) (by omega)
  refine ⟨{ s with SFE, cnt := 0 }, ?_, ⟨rfl, by dsimp only [List.length_nil]; omega, ?_⟩, rfl⟩
  · rw [SackStack.reset, holds.cnt, Int.toNat_natCast, run, Option.map_some]
  · intro i high
    dsimp only at high ⊢
    rw [cells, List.getD_nil]
    split_ifs with old
    · rfl
    · exact holds.unset (by omega) high

/-- The stack after `push()` and the assignments to its head: the block that does not fit goes. -/
theorem push (holds : s.Holds blocks) (positive : 0 < s.size) (block : SackBlock) :
    ∃ t u, s.push = some t ∧ t.setHead 0 block = some u ∧
      u.Holds (block :: blocks.take (s.size - 1).toNat) ∧ u.size = s.size := by
  have room := holds.room
  have cnt := holds.cnt
  set kept := blocks.take (s.size - 1).toNat with takes
  have length : kept.length = min (s.size - 1).toNat blocks.length := List.length_take
  -- a full stack drops its last block first
  have checked : (if s.cnt ≥ s.size then { s with cnt := s.size - 1 } else s) =
      { s with cnt := kept.length } := by
    split_ifs with overflow
    · congr 1
      omega
    · rw [show (kept.length : Int) = s.cnt by omega]
  obtain ⟨SFE, run, cells⟩ :=
    @shiftDown_eq { s with cnt := kept.length } 0 kept.length (by omega) (by dsimp only; omega)
  refine ⟨{ s with cnt := kept.length + 1, SFE }, _, ?_, setHead_eq (le_refl _) positive, ?_, rfl⟩
  · simp only [SackStack.push, checked, Int.sub_zero, Int.toNat_natCast, run, Option.map_some]
  · refine ⟨by simp, by simp only [List.length_cons, store_size]; omega, fun i high => ?_⟩
    rw [store_size] at high
    dsimp only at high
    rw [store_SFE]
    cases i with
    | zero => rfl
    | succ i =>
      push_cast at high ⊢
      rw [if_neg (by omega), List.getD_cons_succ, cells, add_sub_cancel_right]
      split_ifs with moved
      · have inside : i < kept.length := by omega
        rw [holds.cells i (by omega), List.getD_eq_getElem?_getD, List.getD_eq_getElem?_getD, takes,
          List.getElem?_take_of_lt (by omega)]
      · have past := @unset s blocks holds (i + 1) (by omega) high
        rw [List.getD_eq_default _ _ (by omega)]
        exact past

theorem pop (holds : s.Holds blocks) {n : Nat} (inside : n < blocks.length) :
    ∃ t, s.pop n = some t ∧ t.Holds (blocks.eraseIdx n) ∧ t.size = s.size := by
  have room := holds.room
  have cnt := holds.cnt
  obtain ⟨SFE, run, cells⟩ :=
    @shiftUp_eq s n (s.cnt - 1 - n).toNat (by omega) (by omega)
  have last : (n : Int) + (s.cnt - 1 - n).toNat = blocks.length - 1 := by omega
  rw [last] at cells
  have length := List.length_eraseIdx_of_lt inside
  refine ⟨{ ({ s with SFE } : SackStack).store (blocks.length - 1) .unset with cnt := s.cnt - 1 },
    ?_, ⟨by dsimp only; omega, by dsimp only [store_size]; omega, fun i high => ?_⟩, rfl⟩
  · rw [SackStack.pop]
    simp only [run, last, Option.bind_eq_bind, Option.bind_some]
    rw [setHead_eq (by omega) (by dsimp only; omega), Option.bind_some]
    rfl
  · dsimp only [store_size] at high ⊢
    rw [store_SFE]
    dsimp only
    rw [cells]
    -- blocks behind the popped one move up, and the last cell is cleared
    rcases lt_or_ge i (blocks.length - 1) with kept | past
    · have below := holds.cells i high
      have above := holds.cells (i + 1) (by push_cast; omega)
      rw [if_neg (by omega), List.getD_eq_getElem?_getD, List.getElem?_eraseIdx]
      rw [List.getD_eq_getElem?_getD] at below above
      push_cast at above
      split_ifs <;> first | assumption | omega
    · rw [List.getD_eq_default _ _ (by omega)]
      split_ifs
      · rfl
      · omega
      · exact holds.unset (by omega) high

end Holds

end SackStack

end Saps.Tcp
