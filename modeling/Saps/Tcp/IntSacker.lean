import Saps.Tcp.IntAcker
import Saps.Tcp.SackBlocks

/-!
# SACK blocks in `int`s

`Sacker` on top of the receive window in `int`s. While the segments stay within reach of the
window, its ACKs are those over unbounded numbers.
-/
namespace Saps.Tcp.IntSacker

open SignedWord (wrap)
open Acker (Tracks)
open IntAcker (InReach EachCall wrap_eq)
open Sacker (Tells fresh NSA)

/-! ### The blocks of an ACK -/

/-- `sack_right`, by the loop `for (i = old_seqno; i <= maxseen_; i++)`. No result if the loop
never ends. -/
def sackRight (k : Acker) : Nat → Int → Option Int
  | 0, _ => none
  | turns + 1, i =>
    if i ≤ k.maxseen then
      if k.seenAt i = 0 then some i else sackRight k turns (wrap 32 (i + 1))
    else some (wrap 32 (k.maxseen + 1))

/-- `sack_left` of a block that ends at `right`. -/
def sackLeft (k : Acker) (right : Int) : Int :=
  let last := wrap 32 (right - 1)
  ((k.holeLeft (last - k.seqno).toNat last).map fun i => wrap 32 (i + 1)).getD (-1)

/-- The part of `append_ack()` that builds the first block and checks the others. -/
def buildBlocks (s : Sacker) (oldSeqno : Int) (blocks : List SackBlock) :
    Option (SackStack × List SackBlock) := do
  let seqno := s.acker.seqno
  -- beyond `maxseen_` there are only the cells of the buffer to look at
  let turns := (s.acker.maxseen + 1 - oldSeqno).toNat + (s.acker.wndmask + 2).toNat
  let sackRight ← sackRight s.acker turns oldSeqno
  let sackLeft := if oldSeqno ≤ seqno then 0 else sackLeft s.acker sackRight
  let recent : SackBlock := ⟨sackLeft, sackRight⟩
  let blocks := if oldSeqno ≤ seqno then blocks else blocks ++ [recent]
  -- the loop compares with `maxseen_ + 1`
  let (sf, blocks) ← Sacker.otherBlocks s.baseNblocks (wrap 32 (s.acker.maxseen + 1) - 1) recent
    (s.baseNblocks + s.sf.cnt + 1).toNat 0 s.sf blocks
  if oldSeqno > seqno then do
    let sf ← sf.push
    let sf ← sf.setHead 0 recent
    some (sf, blocks)
  else some (sf, blocks)

/-- `append_ack(ch, h, old_seqno)`. -/
def appendAck (s : Sacker) (oldSeqno : Int) : Option (Sacker × List SackBlock) :=
  let seqno := s.acker.seqno
  if oldSeqno < 0 then some (s, [])
  else if seqno ≥ s.acker.maxseen ∧ s.sf.cnt ≠ 0 then
    s.sf.reset.map fun sf => ({ s with sf }, [])
  else if (seqno < s.acker.maxseen ∨ s.acker.isDup) ∧ s.baseNblocks > 0 then
    let blocks : List SackBlock :=
      if s.dsacks && s.acker.isDup then [⟨oldSeqno, wrap 32 (oldSeqno + 1)⟩] else []
    if blocks.length ≥ s.baseNblocks then some (s, blocks)
    else (buildBlocks s oldSeqno blocks).map fun (sf, blocks) => ({ s with sf }, blocks)
  else some (s, [])

/-- What `TcpSink::recv()` does with a segment: `update()`, then `append_ack()`. -/
def receive (s : Sacker) (seqno numBytes : Int) : Option (Sacker × List SackBlock) := do
  let (acker, _) ← IntAcker.update s.acker seqno numBytes
  appendAck { s with acker } seqno

/-- The state after the segments, and the blocks of the ACK of the last one. -/
def receives (nblocks : Int) (calls : List Segment) : Option (Sacker × List SackBlock) :=
  calls.foldlM (fun (s, _) x => receive s x.seq x.numBytes) (fresh nblocks, [])

/-! ### The same blocks -/

variable {calls : List Segment} {x : Segment} {k : Acker} {s : Sacker} {blocks : List SackBlock}

theorem sackRight_eq {turns : Nat} {start : Int} (low : 0 ≤ start) (high : k.maxseen < 2 ^ 31 - 2)
    (low' : 0 ≤ k.maxseen) (enough : (k.maxseen + 1 - start).toNat < turns) :
    sackRight k turns start = some (k.sackRight start) := by
  rw [Acker.sackRight]
  generalize left : (k.maxseen + 1 - start).toNat = rest at enough
  -- on what is left up to `maxseen_`; the turns of the loop only have to be more
  induction rest generalizing start turns with
  | zero =>
    obtain ⟨turns, rfl⟩ := Nat.exists_eq_add_one_of_ne_zero enough.ne'
    rw [sackRight, if_neg (by omega), wrap_eq (by omega) (by omega)]
    rfl
  | succ rest ih =>
    obtain ⟨turns, rfl⟩ : ∃ more, turns = more + 1 := ⟨turns - 1, by omega⟩
    rw [sackRight, if_pos (by omega), Acker.holeRight]
    split_ifs
    · rfl
    · rw [wrap_eq (n := start + 1) (by omega) (by omega)]
      exact ih (by omega) (by omega) (by omega)

private theorem holeLeft_le {turns : Nat} {i hole : Int} (found : k.holeLeft turns i = some hole) :
    hole ≤ i ∧ i - turns < hole := by
  induction turns generalizing i with
  | zero => exact nomatch found
  | succ turns ih =>
    rw [Acker.holeLeft] at found
    push_cast
    split_ifs at found
    · cases found
      omega
    · have further := ih found
      omega

theorem sackLeft_eq {right : Int} (low : k.seqno < right) (next : 0 ≤ k.next)
    (high : right < 2 ^ 31) : sackLeft k right = k.sackLeft right := by
  have first : -1 ≤ k.seqno := by
    rw [Acker.seqno]
    omega
  rw [sackLeft, Acker.sackLeft, wrap_eq (n := right - 1) (by omega) (by omega)]
  cases found : k.holeLeft (right - 1 - k.seqno).toNat (right - 1) with
  | none => rfl
  | some hole =>
    obtain ⟨upper, lower⟩ := holeLeft_le found
    simp only [Option.map_some, Option.getD_some]
    exact wrap_eq (by omega) (by omega)

theorem buildBlocks_eq {oldSeqno : Int} (tracks : s.acker.Tracks calls) (low : 0 ≤ oldSeqno)
    (inside : oldSeqno ≤ s.acker.maxseen) (high : s.acker.maxseen < 2 ^ 31 - 2) :
    buildBlocks s oldSeqno blocks = s.buildBlocks oldSeqno blocks := by
  have narrow := tracks.narrow
  have reached := tracks.reached
  have nonneg := tracks.maxseen_nonneg
  obtain ⟨start, stop, -, -⟩ :=
    @Acker.sackRight_spec s.acker oldSeqno (by omega) tracks.toRecorded.unseen
  have right := @sackRight_eq s.acker ((s.acker.maxseen + 1 - oldSeqno).toNat +
    (s.acker.wndmask + 2).toNat) oldSeqno low high nonneg (by omega)
  have last : wrap 32 (s.acker.maxseen + 1) - 1 = s.acker.maxseen := by
    rw [wrap_eq (by omega) (by omega), add_sub_cancel_right]
  -- the left edge is computed for a segment above the cumulative ACK only
  have left : (if oldSeqno ≤ s.acker.seqno then 0
        else sackLeft s.acker (s.acker.sackRight oldSeqno)) =
      if oldSeqno ≤ s.acker.seqno then 0
        else s.acker.sackLeft (s.acker.sackRight oldSeqno) := by
    split_ifs with below
    · rfl
    · exact sackLeft_eq (by omega) tracks.nonneg (by omega)
  simp only [buildBlocks, Sacker.buildBlocks, right, Option.bind_eq_bind, Option.bind_some, left,
    last]

theorem appendAck_eq {oldSeqno : Int} (tracks : s.acker.Tracks calls) (low : 0 ≤ oldSeqno)
    (inside : oldSeqno ≤ s.acker.maxseen) (high : s.acker.maxseen < 2 ^ 31 - 2) :
    appendAck s oldSeqno = s.appendAck oldSeqno := by
  rw [appendAck, Sacker.appendAck, wrap_eq (n := oldSeqno + 1) (by omega) (by omega)]
  simp only [buildBlocks_eq tracks low inside high]

theorem receive_eq (tracks : s.acker.Tracks calls) (valid : ValidCalls (calls ++ [x]))
    (each : EachCall InReach (calls ++ [x])) :
    receive s x.seq x.numBytes = s.receive x.seq x.numBytes := by
  have high := IntAcker.maxseen_lt tracks.toRecorded (each.before (List.prefix_append calls [x]))
  obtain ⟨j, numToDeliver, updated, new, -⟩ := tracks.update valid
  obtain ⟨-, nonneg, -⟩ := validCalls_append.mp valid
  have inside := new.le_maxseen (received_append.mpr (.inr rfl))
  have higher := IntAcker.maxseen_lt new.toRecorded each
  simp only [receive, Sacker.receive, IntAcker.update_eq tracks valid each.last high, updated,
    Option.map_some, Option.bind_eq_bind, Option.bind_some]
  exact @appendAck_eq (calls ++ [x]) { s with acker := j } x.seq new nonneg inside higher

/-! ### Runs -/

theorem receives_append {nblocks : Int} : receives nblocks (calls ++ [x]) =
    (receives nblocks calls).bind fun (s, _) => receive s x.seq x.numBytes := by
  rw [receives, List.foldlM_append]
  simp [receives]

theorem receives_first {nblocks : Int} : receives nblocks [x] =
    (IntAcker.update Acker.fresh x.seq x.numBytes).bind fun (acker, _) =>
      appendAck { fresh nblocks with acker } x.seq :=
  @receives_append [] x nblocks

/-- Segments in reach are received as they would be with unbounded numbers. -/
theorem receives_eq {nblocks : Int} (positive : 0 < nblocks) (valid : ValidCalls calls)
    (each : EachCall InReach calls) : receives nblocks calls = Sacker.receives nblocks calls := by
  induction calls using List.reverseRecOn with
  | nil => rfl
  | append_singleton calls x ih =>
    have earlier := (validCalls_append.mp valid).1
    obtain ⟨s, blocks, run, tells, -⟩ := Sacker.receives_tell positive earlier
    rw [receives_append, Sacker.receives_append,
      ih earlier (each.before (List.prefix_append calls [x])), run, Option.bind_some,
      Option.bind_some]
    exact receive_eq tells.tracks valid each

/-- The ACK of every segment, as long as all of them are in reach: no index leaves the stack, and
the blocks are true, maximal and disjoint, the one with the segment in front. -/
theorem receives_blocks (nblocks : Int) (calls : List Segment) (x : Segment)
    (allowed : 1 ≤ nblocks ∧ nblocks ≤ NSA) (valid : ValidCalls (calls ++ [x]))
    (each : EachCall InReach (calls ++ [x])) :
    ∃ s blocks, receives nblocks (calls ++ [x]) = some (s, blocks) ∧
      (blocks.length : Int) ≤ nblocks ∧
      (∀ block ∈ blocks, s.acker.seqno < block.left ∧ block.left < block.right ∧
        block.right ≤ s.acker.maxseen + 1 ∧
        (∀ i, block.left ≤ i → i < block.right → Received (calls ++ [x]) i) ∧
        ¬ Received (calls ++ [x]) (block.left - 1) ∧ ¬ Received (calls ++ [x]) block.right) ∧
      blocks.Pairwise (fun a b => a.right ≤ b.left ∨ b.right ≤ a.left) ∧
      (s.acker.seqno < x.seq → ∃ newest others, blocks = newest :: others ∧
        newest.left ≤ x.seq ∧ x.seq < newest.right) := by
  rw [receives_eq (by omega) valid each]
  exact Sacker.exists_blocks (by omega) valid

/-- The largest `int` is received into the buffer of a fresh sink. Its block ends before it
starts. -/
theorem largestSegment_misreported :
    ((receives 3 [⟨2 ^ 31 - 1, 1⟩]).map fun (_, blocks) => blocks) =
        some [⟨2 ^ 31 - 1, -2 ^ 31⟩] ∧
      receives 3 [⟨2 ^ 30 - 2, 1⟩] = none := by
  refine ⟨?_, by decide +kernel⟩
  have updated := @IntAcker.update_empty Acker.fresh (2 ^ 31 - 1) 1 (fun _ => rfl) rfl (by decide)
    (by decide)
  rw [receives_first, updated]
  decide +kernel

/-- Three holes, and more blocks than an ACK has room for. -/
def holeyCalls : List Segment := [⟨1, 10⟩, ⟨3, 10⟩, ⟨5, 10⟩, ⟨7, 10⟩]

/-- The segment that joins two blocks. -/
theorem holeyCalls_blocks :
    (receives 3 (holeyCalls ++ [⟨4, 10⟩])).map (fun (_, blocks) => blocks) =
        some [⟨3, 6⟩, ⟨7, 8⟩] ∧
      ∃ s blocks, receives 3 (holeyCalls ++ [⟨4, 10⟩]) = some (s, blocks) ∧
        (blocks.length : Int) ≤ 3 ∧
        (∀ block ∈ blocks, s.acker.seqno < block.left ∧ block.left < block.right ∧
          block.right ≤ s.acker.maxseen + 1 ∧
          (∀ i, block.left ≤ i → i < block.right → Received (holeyCalls ++ [⟨4, 10⟩]) i) ∧
          ¬ Received (holeyCalls ++ [⟨4, 10⟩]) (block.left - 1) ∧
          ¬ Received (holeyCalls ++ [⟨4, 10⟩]) block.right) ∧
        blocks.Pairwise (fun a b => a.right ≤ b.left ∨ b.right ≤ a.left) ∧
        (s.acker.seqno < 4 → ∃ newest others, blocks = newest :: others ∧
          newest.left ≤ 4 ∧ 4 < newest.right) :=
  ⟨by decide +kernel,
    receives_blocks 3 holeyCalls ⟨4, 10⟩ (by decide) (by simp [holeyCalls, ValidCalls])
      (@IntAcker.eachCall_of_bounded (holeyCalls ++ [⟨4, 10⟩]) 8 10 (by decide) (by decide)
        (by decide)).inReach⟩

end Saps.Tcp.IntSacker
