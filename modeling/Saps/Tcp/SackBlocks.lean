import Saps.Library.MaximalRun
import Saps.Tcp.Reassembly
import Saps.Tcp.Sacker

/-!
# What SACK blocks tell

After every segment the blocks of the ACK are on the stack, and they are
maximal runs of received segments above the cumulative ACK.
-/
namespace Saps.Tcp

variable {calls : List Segment} {x : Segment} {k : Acker}

/-! ### The newest block -/

namespace Acker

theorem holeRight_some {turns : Nat} {i hole : Int} (found : k.holeRight turns i = some hole) :
    i ≤ hole ∧ hole < i + turns ∧ k.seenAt hole = 0 ∧
      ∀ s, i ≤ s → s < hole → k.seenAt s ≠ 0 := by
  induction turns generalizing i with
  | zero => exact nomatch found
  | succ turns ih =>
    rw [holeRight] at found
    push_cast
    split_ifs at found with unseen
    · cases found
      exact ⟨le_refl _, by omega, unseen, fun s left right => by omega⟩
    · obtain ⟨left, right, hole, seen⟩ := ih found
      refine ⟨by omega, by omega, hole, fun s lower upper => ?_⟩
      rcases eq_or_lt_of_le lower with rfl | inside
      · exact unseen
      · exact seen s (by omega) upper

theorem holeRight_none {turns : Nat} {i : Int} (found : k.holeRight turns i = none) :
    ∀ s, i ≤ s → s < i + turns → k.seenAt s ≠ 0 := by
  induction turns generalizing i with
  | zero => intro s left right; omega
  | succ turns ih =>
    rw [holeRight] at found
    push_cast
    split_ifs at found with unseen
    intro s left right
    rcases eq_or_lt_of_le left with rfl | inside
    · exact unseen
    · exact ih found s (by omega) (by omega)

theorem holeLeft_some {turns : Nat} {i hole : Int} (unseen : k.seenAt hole = 0) (below : hole ≤ i)
    (enough : i - hole < turns) :
    ∃ found, k.holeLeft turns i = some found ∧ hole ≤ found ∧ found ≤ i ∧ k.seenAt found = 0 ∧
      ∀ s, found < s → s ≤ i → k.seenAt s ≠ 0 := by
  induction turns generalizing i with
  | zero => omega
  | succ turns ih =>
    rw [holeLeft]
    push_cast at enough
    split_ifs with first
    · exact ⟨i, rfl, below, le_refl i, first, fun s left right => by omega⟩
    -- the segment is seen, so the hole is further left
    · have short : hole ≠ i := by
        rintro rfl
        exact first unseen
      obtain ⟨found, run, left, right, missing, seen⟩ := @ih (i - 1) (by omega) (by omega)
      refine ⟨found, run, left, by omega, missing, fun s lower upper => ?_⟩
      rcases eq_or_lt_of_le upper with rfl | inside
      · exact first
      · exact seen s lower (by omega)

/-- The block is filled from the segment on, and its right edge is the next hole. -/
theorem sackRight_spec {start : Int} (inside : start ≤ k.maxseen + 1)
    (unseen : k.seenAt (k.maxseen + 1) = 0) :
    start ≤ k.sackRight start ∧ k.sackRight start ≤ k.maxseen + 1 ∧
      k.seenAt (k.sackRight start) = 0 ∧
      ∀ s, start ≤ s → s < k.sackRight start → k.seenAt s ≠ 0 := by
  rw [sackRight]
  cases found : k.holeRight (k.maxseen + 1 - start).toNat start with
  | none =>
    have seen := holeRight_none found
    exact ⟨inside, le_refl _, unseen, fun s left right => seen s left (by
      rw [Option.getD_none] at right
      omega)⟩
  | some hole =>
    obtain ⟨left, right, missing, seen⟩ := holeRight_some found
    exact ⟨left, by rw [Option.getD_some]; omega, missing, seen⟩

/-- What was received in order up to `stop` is in the block. -/
theorem le_sackRight {start stop : Int} (inside : stop ≤ k.maxseen + 1)
    (seen : ∀ s, start ≤ s → s < stop → k.seenAt s ≠ 0) : stop ≤ k.sackRight start := by
  rw [sackRight]
  cases found : k.holeRight (k.maxseen + 1 - start).toNat start with
  | none => exact inside
  | some hole =>
    obtain ⟨left, -, missing, -⟩ := holeRight_some found
    rw [Option.getD_some]
    by_contra short
    exact seen hole left (by omega) missing

theorem Tracks.seen_iff (tracks : Tracks calls k) (valid : ValidCalls calls) {s : Int}
    (left : k.next ≤ s) (right : s ≤ k.maxseen + 1) : k.seenAt s ≠ 0 ↔ Received calls s := by
  rw [tracks.shows s left right, lastBytes_ne_zero_iff valid]

/-- A segment received above the cumulative ACK lies in a maximal run, which is the first block. -/
theorem Tracks.newest_block (tracks : Tracks calls k) (valid : ValidCalls calls) {seq : Int}
    (received : Received calls seq) (above : k.seqno < seq) :
    let right := k.sackRight seq
    let left := k.sackLeft right
    k.seqno < left ∧ left ≤ seq ∧ seq < right ∧ MaximalRun (Received calls) left right := by
  intro right left
  have below := tracks.le_maxseen received
  have edge : k.next < seq := by
    rw [seqno] at above
    rcases eq_or_lt_of_le (show k.next ≤ seq by omega) with same | inside
    · exact absurd (same ▸ received) tracks.missing
    · exact inside
  have shows := fun s => @tracks.seen_iff calls k valid s
  have unseen : k.seenAt (k.maxseen + 1) = 0 := by
    by_contra seen
    have above := tracks.le_maxseen ((shows _ tracks.reached (le_refl _)).mp seen)
    omega
  obtain ⟨start, stop, rightHole, filled⟩ := @sackRight_spec k seq (by omega) unseen
  -- the segment itself is seen, so both walks leave it inside
  have short : right ≠ seq := by
    intro same
    exact (shows seq edge.le (by omega)).mpr received (same ▸ rightHole)
  have missing : k.seenAt k.next = 0 := by
    by_contra seen
    exact tracks.missing ((shows _ (le_refl _) tracks.reached).mp seen)
  obtain ⟨hole, run, lower, upper, leftHole, seen⟩ :=
    @holeLeft_some k (right - 1 - k.seqno).toNat (right - 1) k.next missing (by omega)
      (by rw [seqno]; omega)
  have leftEdge : left = hole + 1 := by
    simp only [left, sackLeft, run, Option.map_some, Option.getD_some]
  have before : hole < seq := by
    by_contra inside
    exact filled hole (by omega) (by omega) leftHole
  rw [leftEdge]
  refine ⟨by rw [seqno]; omega, by omega, by omega, ⟨by omega, fun s from_ below => ?_, ?_, ?_⟩⟩
  · exact (shows s (by omega) (by omega)).mp (seen s (by omega) (by omega))
  · rw [add_sub_cancel_right]
    exact fun received => (shows hole lower (by omega)).mpr received leftHole
  · exact fun received => (shows right (by omega) stop).mpr received rightHole

end Acker

/-! ### The older blocks -/

namespace Sacker

/-- A block of the history that the loop does not take for an unset cell. -/
def Readable (maxseen : Int) (block : SackBlock) : Prop :=
  0 ≤ block.left ∧ 0 ≤ block.right ∧ block.right ≤ maxseen + 1

def Covers (recent block : SackBlock) : Prop :=
  recent.left ≤ block.left ∧ block.right ≤ recent.right

/-- How the loop ends after reporting `more` of the blocks in `rest`: the older blocks are reported
in their order, none of them covered, and what is reported stays on the stack. -/
structure Reports (baseNblocks : Int) (recent : SackBlock) (first kept rest : List SackBlock)
    (t : SackStack) (more unread : List SackBlock) : Prop where
  holds : t.Holds (kept ++ more ++ unread)
  size : t.size = baseNblocks
  part : more.Sublist rest
  uncovered : ∀ block ∈ more, ¬ Covers recent block
  room : ((first ++ (kept ++ more)).length : Int) ≤ baseNblocks
  -- only the end of the history and the end of the room stop the loop
  all : unread = [] ∨ ((first ++ (kept ++ more)).length : Int) = baseNblocks

section

variable {baseNblocks maxseen : Int} {recent block : SackBlock}
  {first kept rest more unread : List SackBlock} {sf t : SackStack}

theorem Reports.skip (reports : Reports baseNblocks recent first kept rest t more unread) :
    Reports baseNblocks recent first kept (block :: rest) t more unread :=
  { reports with part := reports.part.cons block }

theorem Reports.report
    (reports : Reports baseNblocks recent first (kept ++ [block]) rest t more unread)
    (uncovered : ¬ Covers recent block) :
    Reports baseNblocks recent first kept (block :: rest) t (block :: more) unread where
  holds := by simpa using reports.holds
  size := reports.size
  part := reports.part.cons_cons block
  uncovered := List.forall_mem_cons.mpr ⟨uncovered, reports.uncovered⟩
  room := by simpa using reports.room
  all := by simpa using reports.all

theorem kept_lt (more : ((first ++ kept).length : Int) < baseNblocks) :
    (kept.length : Int) < baseNblocks := by
  rw [List.length_append] at more
  push_cast at more
  omega

theorem otherBlocks_eq {turns : Nat} (holds : sf.Holds (kept ++ rest)) (size : sf.size = baseNblocks)
    (readable : ∀ block ∈ rest, Readable maxseen block)
    (room : ((first ++ kept).length : Int) ≤ baseNblocks) (enough : rest.length < turns) :
    ∃ t more unread, otherBlocks baseNblocks maxseen recent turns kept.length sf (first ++ kept) =
        some (t, first ++ (kept ++ more)) ∧
      Reports baseNblocks recent first kept rest t more unread := by
  induction rest generalizing kept turns sf with
  | nil =>
    obtain ⟨turns, rfl⟩ : ∃ more, turns = more + 1 := ⟨turns - 1, by simp at enough; omega⟩
    refine ⟨sf, [], [], ?_, by simpa using holds, size, List.Sublist.refl _, by simp,
      by simpa using room, .inl rfl⟩
    rw [otherBlocks]
    split_ifs with more
    · rw [holds.head (size ▸ kept_lt more)]
      simp [SackBlock.unset]
    · simp
  | cons block rest ih =>
    obtain ⟨turns, rfl⟩ : ∃ more, turns = more + 1 := ⟨turns - 1, by omega⟩
    rw [List.length_cons] at enough
    rw [otherBlocks]
    split_ifs with more
    · have top : (kept ++ block :: rest).getD kept.length .unset = block := by
        simp [List.getD_eq_getElem?_getD]
      obtain ⟨left, right, below⟩ := readable block (by simp)
      have others : ∀ other ∈ rest, Readable maxseen other := fun other member =>
        readable other (by simp [member])
      rw [holds.head (size ▸ kept_lt more), top, Option.bind_eq_bind, Option.bind_some,
        if_neg (by omega)]
      by_cases covered : Covers recent block
      -- the newest block covers this one, which leaves the history
      · obtain ⟨t, popped, holds, same⟩ := holds.pop (n := kept.length) (by simp)
        have erased : (kept ++ block :: rest).eraseIdx kept.length = kept ++ rest := by
          simp [List.eraseIdx_append_of_length_le]
        rw [erased] at holds
        obtain ⟨u, more, unread, run, reports⟩ :=
          @ih kept t turns holds (same.trans size) others room (by omega)
        refine ⟨u, more, unread, ?_, reports.skip⟩
        have covered : recent.left ≤ block.left ∧ recent.right ≥ block.right := covered
        rw [if_pos covered, popped]
        exact run
      -- it is reported, and the loop goes on behind it
      · rw [← List.singleton_append, ← List.append_assoc] at holds
        obtain ⟨u, more, unread, run, reports⟩ :=
          @ih (kept ++ [block]) sf turns holds size others (by simp at more ⊢; omega) (by omega)
        refine ⟨u, block :: more, unread, ?_, reports.report covered⟩
        have uncovered : ¬ (recent.left ≤ block.left ∧ recent.right ≥ block.right) := covered
        rw [if_neg uncovered]
        simpa using run
    -- all the room is taken: the rest stays unread
    · refine ⟨sf, [], block :: rest, by simp, by simpa using holds, size, List.nil_sublist _, by simp,
        by simpa using room, .inr ?_⟩
      rw [List.append_nil]
      omega

end

/-! ### The state after every ACK -/

/-- The blocks of the last ACK are the history, and all of them are true. -/
structure Tells (calls : List Segment) (s : Sacker) (blocks : List SackBlock) : Prop where
  tracks : s.acker.Tracks calls
  dsacks : s.dsacks = false
  positive : 0 < s.baseNblocks
  size : s.sf.size = s.baseNblocks
  holds : s.sf.Holds blocks
  above : ∀ block ∈ blocks, s.acker.seqno < block.left
  maximal : ∀ block ∈ blocks, MaximalRun (Received calls) block.left block.right
  apart : blocks.Pairwise fun a b => a.right ≤ b.left ∨ b.right ≤ a.left

variable {s : Sacker} {blocks : List SackBlock} {j : Acker} {block : SackBlock}

/-- Above the cumulative ACK, a block the newest one does not cover stays maximal. -/
theorem keep_above (old : k.Tracks calls) (new : j.Tracks (calls ++ [x])) (after : k.next ≤ j.next)
    (above : j.seqno < x.seq) (high : k.seqno < block.left)
    (maximal : MaximalRun (Received calls) block.left block.right) {newest : SackBlock}
    (around : MaximalRun (Received (calls ++ [x])) newest.left newest.right)
    (meets : newest.left ≤ x.seq ∧ x.seq < newest.right) (uncovered : ¬ Covers newest block) :
    j.seqno < block.left ∧ MaximalRun (Received (calls ++ [x])) block.left block.right := by
  constructor
  · have same : j.next ≤ k.next := by
      by_contra further
      have received := new.delivered k.next old.nonneg (by omega)
      rcases received_append.mp received with earlier | now
      · exact old.missing earlier
      · rw [Acker.seqno] at above
        omega
    rw [Acker.seqno] at high ⊢
    omega
  · exact maximal.grow_uncovered (fun s => received_append) around meets uncovered

/-- Left of the window, an older block stays maximal if the cumulative ACK did not reach it. -/
theorem keep_below (old : k.Tracks calls) (new : j.Tracks (calls ++ [x])) (after : k.next ≤ j.next)
    (valid : ValidCalls (calls ++ [x]))
    (shows : ∀ s, k.next ≤ s → s ≤ j.maxseen + 1 → j.seenAt s = lastBytes (calls ++ [x]) s)
    (below : x.seq ≤ j.seqno) (high : k.seqno < block.left)
    (maximal : MaximalRun (Received calls) block.left block.right)
    (uncovered : ¬ Covers ⟨0, j.sackRight x.seq⟩ block) :
    j.seqno < block.left ∧ MaximalRun (Received (calls ++ [x])) block.left block.right := by
  obtain ⟨earlier, nonneg, -⟩ := validCalls_append.mp valid
  rw [Acker.seqno] at below high
  have joins : ∀ s, Received (calls ++ [x]) s ↔ Received calls s ∨ x.seq = s := fun s =>
    received_append
  have filled : ∀ s, block.left ≤ s → s < block.right → j.next ≠ s := by
    rintro s left right rfl
    exact new.missing ((joins _).mpr (.inl (maximal.filled _ left right)))
  have nonempty := maximal.nonempty
  have reached := new.reached
  rw [Acker.seqno]
  rcases eq_or_ne x.seq k.next with inOrder | other
  -- in order: the window moves on over the blocks it now reaches
  · have gap : k.next ≠ block.left := by
      intro same
      exact old.missing (same ▸ maximal.filled _ (le_refl _) nonempty)
    have covered : j.next ≤ j.sackRight x.seq := by
      refine Acker.le_sackRight reached fun s left right => ?_
      rw [shows s (by omega) (by omega), lastBytes_ne_zero_iff valid]
      exact new.delivered s (by omega) right
    have further : j.next < block.right := by
      by_contra within
      exact uncovered ⟨by dsimp only; omega, by dsimp only; omega⟩
    have short : j.next ≤ block.left := by
      by_contra inside
      exact filled j.next (by omega) further rfl
    have apart : j.next ≠ block.left := filled block.left (le_refl _) nonempty
    exact ⟨by omega, maximal.grow joins (by omega) (by omega)⟩
  -- out of order below the window: nothing new was received
  · have same : j.next ≤ k.next := by
      by_contra further
      rcases (joins _).mp (new.delivered k.next old.nonneg (by omega)) with known | now
      · exact old.missing known
      · exact other now
    have known : Received calls x.seq := old.delivered x.seq nonneg (by omega)
    refine ⟨by omega, maximal.grow joins ?_ ?_⟩
    · exact fun edge => maximal.left (edge ▸ known)
    · exact fun edge => maximal.right (edge ▸ known)

theorem Tells.readable (tells : Tells calls s blocks) (new : j.Tracks (calls ++ [x]))
    (member : block ∈ blocks) : Readable j.maxseen block := by
  have high := tells.above block member
  have maximal := tells.maximal block member
  have nonempty := maximal.nonempty
  have nonneg := tells.tracks.nonneg
  have last := maximal.filled (block.right - 1) (by omega) (by omega)
  have below := new.le_maxseen (received_append.mpr (.inl last))
  rw [Acker.seqno] at high
  exact ⟨by omega, by omega, by omega⟩

/-- A segment left of the window only takes blocks away. -/
theorem Tells.build_below (tells : Tells calls s blocks) (new : j.Tracks (calls ++ [x]))
    (after : s.acker.next ≤ j.next) (valid : ValidCalls (calls ++ [x]))
    (shows : ∀ i, s.acker.next ≤ i → i ≤ j.maxseen + 1 → j.seenAt i = lastBytes (calls ++ [x]) i)
    (below : x.seq ≤ j.seqno) :
    ∃ sf reported, buildBlocks { s with acker := j } x.seq [] = some (sf, reported) ∧
      Tells (calls ++ [x]) { s with acker := j, sf } reported := by
  have size := tells.size
  have cnt := tells.holds.cnt
  obtain ⟨sf, more, unread, run, holds, same, part, uncovered, room, all⟩ :=
    @otherBlocks_eq s.baseNblocks j.maxseen ⟨0, j.sackRight x.seq⟩ [] [] blocks s.sf
      (s.baseNblocks + s.sf.cnt + 1).toNat tells.holds size
      (fun block => tells.readable new) tells.positive.le (by have := tells.positive; omega)
  simp only [List.nil_append] at run holds all
  -- no more blocks are stored than an ACK has room for
  have whole : unread = [] := by
    rcases all with none | full
    · exact none
    · have within := holds.room
      rw [List.length_append, same] at within
      push_cast at within
      exact List.eq_nil_of_length_eq_zero (by omega)
  subst whole
  have kept : ∀ block ∈ more, j.seqno < block.left ∧
      MaximalRun (Received (calls ++ [x])) block.left block.right := fun block member =>
    keep_below tells.tracks new after valid shows below (tells.above block (part.subset member))
      (tells.maximal block (part.subset member)) (uncovered block member)
  refine ⟨sf, more, ?_, new, tells.dsacks, tells.positive, same, by simpa using holds,
    fun block member => (kept block member).1, fun block member => (kept block member).2,
    tells.apart.sublist part⟩
  simp only [buildBlocks, if_pos below, if_neg below.not_gt]
  exact (congrArg (· >>= _) run).trans rfl

/-- A segment above the cumulative ACK puts its own block in front. -/
theorem Tells.build_above (tells : Tells calls s blocks) (new : j.Tracks (calls ++ [x]))
    (after : s.acker.next ≤ j.next) (valid : ValidCalls (calls ++ [x])) (above : j.seqno < x.seq) :
    ∃ sf newest reported, buildBlocks { s with acker := j } x.seq [] = some (sf, newest :: reported) ∧
      newest.left ≤ x.seq ∧ x.seq < newest.right ∧
      Tells (calls ++ [x]) { s with acker := j, sf } (newest :: reported) := by
  have size := tells.size
  have cnt := tells.holds.cnt
  have positive := tells.positive
  obtain ⟨high, left, right, maximal⟩ :=
    new.newest_block valid (received_append.mpr (.inr rfl)) above
  let newest : SackBlock := ⟨j.sackLeft (j.sackRight x.seq), j.sackRight x.seq⟩
  obtain ⟨sf, more, unread, run, holds, same, part, uncovered, room, all⟩ :=
    @otherBlocks_eq s.baseNblocks j.maxseen newest [newest] [] blocks s.sf
      (s.baseNblocks + s.sf.cnt + 1).toNat tells.holds size
      (fun block => tells.readable new) (by simp; omega) (by omega)
  simp only [List.nil_append] at run holds room all
  obtain ⟨pushed, top, push, set, stack, sameSize⟩ := holds.push (by omega) newest
  -- the older block that the header has no room for is the one that the overflow check drops
  have fits : (more ++ unread).take (sf.size - 1).toNat = more := by
    have length : ((newest :: more).length : Int) = more.length + 1 := by simp
    rw [List.singleton_append, length] at room all
    rcases all with rfl | full
    · rw [List.append_nil, List.take_of_length_le (by omega)]
    · rw [show (sf.size - 1).toNat = more.length by omega, List.take_left]
  rw [fits] at stack
  have kept : ∀ block ∈ more, j.seqno < block.left ∧
      MaximalRun (Received (calls ++ [x])) block.left block.right := fun block member =>
    keep_above tells.tracks new after above (tells.above block (part.subset member))
      (tells.maximal block (part.subset member)) maximal ⟨left, right⟩ (uncovered block member)
  refine ⟨top, newest, more, ?_, left, right, new, tells.dsacks, positive, sameSize.trans same,
    stack, ?_, ?_, ?_⟩
  · simp only [buildBlocks, if_neg above.not_ge, if_pos above]
    refine (congrArg (· >>= _) run).trans ?_
    simp only [Option.bind_eq_bind, Option.bind_some, List.singleton_append, push]
    exact (congrArg (Option.bind · _) set).trans rfl
  · exact List.forall_mem_cons.mpr ⟨high, fun block member => (kept block member).1⟩
  · exact List.forall_mem_cons.mpr ⟨maximal, fun block member => (kept block member).2⟩
  · refine List.pairwise_cons.mpr ⟨fun block member => ?_, tells.apart.sublist part⟩
    exact maximal.disjoint (kept block member).2 (uncovered block member)

/-- With no history left the ACK carries no block. -/
theorem Tells.cleared (tells : Tells calls s blocks) (new : j.Tracks (calls ++ [x])) {sf : SackStack}
    (holds : sf.Holds []) (size : sf.size = s.baseNblocks) :
    Tells (calls ++ [x]) { s with acker := j, sf } [] where
  tracks := new
  dsacks := tells.dsacks
  positive := tells.positive
  size := size
  holds := holds
  above := by simp
  maximal := by simp
  apart := .nil

/-- One segment: `update()`, then `append_ack()`. -/
theorem Tells.receive (tells : Tells calls s blocks) (valid : ValidCalls (calls ++ [x])) :
    ∃ t reported, s.receive x.seq x.numBytes = some (t, reported) ∧
      Tells (calls ++ [x]) t reported ∧ t.baseNblocks = s.baseNblocks ∧
      (t.acker.seqno < x.seq → ∃ newest others, reported = newest :: others ∧
        newest.left ≤ x.seq ∧ x.seq < newest.right) := by
  obtain ⟨j, numToDeliver, updated, new, after, shows, -, -⟩ := tells.tracks.update valid
  obtain ⟨-, nonneg, -⟩ := validCalls_append.mp valid
  have below := new.le_maxseen (received_append.mpr (.inr rfl))
  have positive := tells.positive
  have noDsack : (s.dsacks && j.isDup) = false := by rw [tells.dsacks, Bool.false_and]
  simp only [Sacker.receive, updated, Option.bind_eq_bind, Option.bind_some, appendAck,
    if_neg nonneg.not_gt, noDsack, Bool.false_eq_true, if_false, List.length_nil]
  split_ifs with emptied more full
  · obtain ⟨sf, reset, holds, same⟩ := tells.holds.reset
    refine ⟨_, _, congrArg (Option.map _) reset, tells.cleared new holds (same.trans tells.size), rfl,
      fun above => ?_⟩
    dsimp only at above
    omega
  · exact absurd full (by push_cast; omega)
  -- blocks are built behind the cumulative ACK or with the newest one first
  · rcases le_or_gt x.seq j.seqno with left | above
    · obtain ⟨sf, reported, built, tells⟩ := tells.build_below new after valid shows left
      exact ⟨_, _, congrArg (Option.map _) built, tells, rfl, fun above => absurd above left.not_gt⟩
    · obtain ⟨sf, newest, reported, built, left, right, tells⟩ :=
        tells.build_above new after valid above
      exact ⟨_, _, congrArg (Option.map _) built, tells, rfl,
        fun _ => ⟨newest, reported, rfl, left, right⟩⟩
  · -- the cumulative ACK is at the right edge, and the history is empty
    have edge : j.seqno ≥ j.maxseen := by
      by_contra inside
      exact more ⟨.inl (not_le.mp inside), positive⟩
    have none : blocks = [] := by
      by_contra some
      have length := List.length_pos_of_ne_nil some
      exact emptied ⟨edge, by rw [tells.holds.cnt]; omega⟩
    subst none
    exact ⟨_, _, rfl, tells.cleared new tells.holds tells.size, rfl,
      fun above => by dsimp only at above; omega⟩

/-! ### Runs -/

/-- The state after the segments, and the blocks of the ACK of the last one. -/
def receives (nblocks : Int) (calls : List Segment) : Option (Sacker × List SackBlock) :=
  calls.foldlM (fun (s, _) x => s.receive x.seq x.numBytes) (fresh nblocks, [])

theorem tells_fresh {nblocks : Int} (positive : 0 < nblocks) : Tells [] (fresh nblocks) [] where
  tracks := Acker.tracks_fresh
  dsacks := rfl
  positive := positive
  size := rfl
  holds := SackStack.holds_create positive.le
  above := by simp
  maximal := by simp
  apart := .nil

theorem receives_append {nblocks : Int} : receives nblocks (calls ++ [x]) =
    (receives nblocks calls).bind fun (s, _) => s.receive x.seq x.numBytes := by
  rw [receives, List.foldlM_append]
  simp [receives]

theorem receives_tell {nblocks : Int} (positive : 0 < nblocks) (valid : ValidCalls calls) :
    ∃ s blocks, receives nblocks calls = some (s, blocks) ∧ Tells calls s blocks ∧
      s.baseNblocks = nblocks := by
  induction calls using List.reverseRecOn with
  | nil => exact ⟨fresh nblocks, [], rfl, tells_fresh positive, rfl⟩
  | append_singleton calls x ih =>
    obtain ⟨s, blocks, run, tells, base⟩ := ih (validCalls_append.mp valid).1
    obtain ⟨t, reported, received, tells, same, -⟩ := tells.receive valid
    refine ⟨t, reported, ?_, tells, same.trans base⟩
    rw [receives_append, run]
    exact received

/-- The ACK of every segment, whatever came before: no index leaves the stack, and the blocks are
true, maximal and disjoint, the one with the segment in front. -/
theorem exists_blocks {nblocks : Int} (positive : 0 < nblocks)
    (valid : ValidCalls (calls ++ [x])) :
    ∃ s blocks, receives nblocks (calls ++ [x]) = some (s, blocks) ∧
      (blocks.length : Int) ≤ nblocks ∧
      (∀ block ∈ blocks, s.acker.seqno < block.left ∧ block.left < block.right ∧
        block.right ≤ s.acker.maxseen + 1 ∧
        (∀ i, block.left ≤ i → i < block.right → Received (calls ++ [x]) i) ∧
        ¬ Received (calls ++ [x]) (block.left - 1) ∧ ¬ Received (calls ++ [x]) block.right) ∧
      blocks.Pairwise (fun a b => a.right ≤ b.left ∨ b.right ≤ a.left) ∧
      (s.acker.seqno < x.seq → ∃ newest others, blocks = newest :: others ∧
        newest.left ≤ x.seq ∧ x.seq < newest.right) := by
  obtain ⟨s, blocks, run, tells, base⟩ := receives_tell positive (validCalls_append.mp valid).1
  obtain ⟨t, reported, received, tells, same, first⟩ := tells.receive valid
  refine ⟨t, reported, ?_, ?_, fun block member => ?_, tells.apart, first⟩
  · rw [receives_append, run]
    exact received
  · have room := tells.holds.room
    rwa [tells.size, same, base] at room
  · have maximal := tells.maximal block member
    have nonempty := maximal.nonempty
    have last := tells.tracks.le_maxseen (maximal.filled (block.right - 1) (by omega) (by omega))
    exact ⟨tells.above block member, nonempty, by omega, maximal.filled, maximal.left, maximal.right⟩

end Sacker

end Saps.Tcp
