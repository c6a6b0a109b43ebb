import Mathlib.Algebra.Order.BigOperators.Group.Finset
import Mathlib.Data.List.Find
import Saps.Library.SignedWord
import Saps.Tcp.Reassembly

/-!
# The receive window in `int`s

`Acker::update()` with the `int`s of the source, whose sums wrap: a buffer that is doubled
too often gets a negative size, which is not allocated. While the segments stay within reach
of the window this is `Acker.update`, and the calls reassemble what arrives.
-/
namespace Saps.Tcp.IntAcker

open SignedWord (wrap fits_iff wrap_of_fits wrap_wrap_add)
open Acker (Tracks Recorded Reassembles)

/-- The values of `i` in `for (i = first; i <= last; i++)`, a loop that does not end if `last`
is the largest `int`. -/
def upTo (first last : Int) : Option (List Int) :=
  if first ≤ last ∧ last = 2 ^ 31 - 1 then none
  else some ((List.range (last + 1 - first).toNat).map fun (i : Nat) => first + i)

/-- `resize_buffers(int sz)`. -/
def resizeBuffers (k : Acker) (sz : Int) : Option Acker :=
  -- an array of negative size is not allocated
  if sz < 0 then none
  else do
    let moved ← upTo k.next (wrap 32 (k.maxseen + 1))
    let empty := { k with wndmask := sz - 1, seen := fun _ => 0 }
    some (moved.foldl (fun new i => new.store i (k.seenAt i)) empty)

/-- The loop that resizes the buffer until `seq` fits. No more than 31 doublings make an `int`. -/
def makeRoom (seq : Int) : Nat → Acker → Option Acker
  | 0, _ => none
  | rounds + 1, k =>
    if wrap 32 (wrap 32 (seq + 1) - k.next) ≥ k.wndmask then do
      let k ← resizeBuffers k (wrap 32 (wrap 32 (k.wndmask + 1) * 2))
      makeRoom seq rounds k
    else some k

def raiseMaxseen (k : Acker) (seq numBytes : Int) : Acker :=
  let first := wrap 32 (k.maxseen + 1)
  let skipped := (List.range (seq - first).toNat).map fun (i : Nat) => first + i
  let k := skipped.foldl (fun new i => new.store i 0) k
  let k := { k with maxseen := seq }
  (k.store seq numBytes).store (wrap 32 (seq + 1)) 0

def advance (k : Acker) : Nat → Int → Int → Option (Int × Int)
  | 0, _, _ => none
  | turns + 1, next, numToDeliver =>
    if k.seenAt next ≠ 0 then
      advance k turns (wrap 32 (next + 1)) (wrap 32 (numToDeliver + k.seenAt next))
    else some (next, numToDeliver)

def receiveInWindow (k : Acker) (seq numBytes : Int) (justMarkedAsSeen : Bool) :
    Option (Acker × Int) :=
  let k := { k with isDup := k.isDup || (decide (k.seenAt seq ≠ 0) && !justMarkedAsSeen) }
  let k := k.store seq numBytes
  (advance k (k.wndmask + 2).toNat k.next 0).map fun (next, numToDeliver) =>
    ({ k with next }, numToDeliver)

/-- `update(int seq, int numBytes)`; no result if a loop never ends or the program does. -/
def update (k : Acker) (seq numBytes : Int) : Option (Acker × Int) := do
  let k ← makeRoom seq 32 k
  let justMarkedAsSeen := decide (seq > k.maxseen)
  let k := if justMarkedAsSeen then raiseMaxseen k seq numBytes else k
  let k := { k with isDup := decide (seq < k.next) }
  if seq ≥ k.next ∧ seq ≤ k.maxseen then receiveInWindow k seq numBytes justMarkedAsSeen
  else some (k, 0)

/-- The state after the calls, and the sum of the values they returned. -/
def updates (calls : List Segment) : Option (Acker × Int) :=
  calls.foldlM (fun (k, returned) x =>
    (update k x.seq x.numBytes).map fun (k, numToDeliver) => (k, returned + numToDeliver))
    (Acker.fresh, 0)

/-- The calls up to the one that moved `next_` past `s`. -/
def deliveryOf (calls : List Segment) (s : Int) : Option (List Segment) :=
  calls.inits.find? fun made => (updates made).any fun (k, _) => decide (s < k.next)

/-- The byte count with which `s` was delivered. -/
def deliveredBytes (calls : List Segment) (s : Int) : Int :=
  ((deliveryOf calls s).map fun made => lastBytes made s).getD 0

/-! ### Calls within reach -/

/-- The next call finds room in the buffer, and its `int`s room behind the segment. -/
structure InReach (calls : List Segment) (x : Segment) : Prop where
  seq : x.seq < 2 ^ 31 - 2
  jump : ∀ n, IsLeast {s | 0 ≤ s ∧ ¬ Received calls s} n → x.seq - n < 2 ^ 30 - 2

/-- What a call in reach has to deliver is an `int` too. -/
structure CallFits (calls : List Segment) (x : Segment) : Prop extends InReach calls x where
  bytes : ∀ n m, IsLeast {s | 0 ≤ s ∧ ¬ Received calls s} n →
    (∀ s, n ≤ s → s < m → Received (calls ++ [x]) s) →
      ∑ s ∈ Finset.Ico n m, lastBytes (calls ++ [x]) s < 2 ^ 31

/-- Every call meets the condition after the calls before it. -/
def EachCall (fits : List Segment → Segment → Prop) (calls : List Segment) : Prop :=
  ∀ made x, made ++ [x] <+: calls → fits made x

variable {calls : List Segment} {x : Segment} {k : Acker}

theorem EachCall.before {fits : List Segment → Segment → Prop} {made : List Segment}
    (each : EachCall fits calls) (earlier : made <+: calls) : EachCall fits made :=
  fun before x past => each before x (past.trans earlier)

theorem EachCall.last {fits : List Segment → Segment → Prop}
    (each : EachCall fits (calls ++ [x])) : fits calls x :=
  each calls x (List.prefix_refl _)

theorem EachCall.inReach (each : EachCall CallFits calls) : EachCall InReach calls :=
  fun made x earlier => (each made x earlier).toInReach

/-- No segment in reach is near the largest `int`. -/
theorem maxseen_lt (recorded : Recorded calls k) (each : EachCall InReach calls) :
    k.maxseen < 2 ^ 31 - 2 := by
  rcases recorded.maxseen.1 with zero | ⟨x, received, same⟩
  · rw [zero]
    decide
  · obtain ⟨made, later, rfl⟩ := List.append_of_mem received
    have earlier : made ++ [x] <+: made ++ x :: later := ⟨later, by simp⟩
    rw [← same]
    exact (each made x earlier).seq

/-! ### The loops -/

theorem wrap_eq {n : Int} (low : -2 ^ 31 ≤ n) (high : n < 2 ^ 31) : wrap 32 n = n :=
  wrap_of_fits (fits_iff.mpr ⟨low, high⟩)

theorem resizeBuffers_eq {sz : Int} (size : 0 ≤ sz) (low : 0 ≤ k.maxseen)
    (high : k.maxseen < 2 ^ 31 - 2) : resizeBuffers k sz = some (k.resizeBuffers sz) := by
  have last : wrap 32 (k.maxseen + 1) = k.maxseen + 1 := wrap_eq (by omega) (by omega)
  have ends : ¬(k.next ≤ k.maxseen + 1 ∧ k.maxseen + 1 = 2 ^ 31 - 1) := by omega
  have cells : k.maxseen + 1 + 1 - k.next = k.maxseen + 2 - k.next := by omega
  rw [resizeBuffers, if_neg size.not_gt, last, upTo, if_neg ends, cells]
  rfl

/-- While the last doubling is an `int`, 31 of them make room for any segment. -/
theorem makeRoom_eq {seq : Int} {rounds turns : Nat} (seq_nonneg : 0 ≤ seq)
    (seq_high : seq < 2 ^ 31 - 2) (next : 0 ≤ k.next) (low : 0 ≤ k.maxseen)
    (high : k.maxseen < 2 ^ 31 - 2) (mask : 0 ≤ k.wndmask) (jump : seq - k.next < 2 ^ 30 - 2)
    (reached : k.next ≤ k.maxseen + 1)
    (doublings : seq + 2 - k.next < (k.wndmask + 1) * 2 ^ turns)
    (enough : seq + 1 - k.next < k.wndmask + rounds) :
    makeRoom seq (turns + 1) k = some (Acker.makeRoom seq rounds k) := by
  have ahead : wrap 32 (wrap 32 (seq + 1) - k.next) = seq + 1 - k.next := by
    rw [wrap_eq (n := seq + 1) (by omega) (by omega), wrap_eq (by omega) (by omega)]
  -- every doubling leaves one less before the buffer covers the distance
  induction turns generalizing k rounds with
  | zero =>
    have fits : ¬seq + 1 - k.next ≥ k.wndmask := by omega
    rw [makeRoom, ahead, if_neg fits]
    cases rounds with
    | zero => rfl
    | succ rounds => rw [Acker.makeRoom, if_neg fits]
  | succ turns ih =>
    rw [makeRoom, ahead]
    split_ifs with full
    · obtain ⟨rounds, rfl⟩ : ∃ more, rounds = more + 1 := ⟨rounds - 1, by omega⟩
      -- the distance is below 2³⁰, so that a buffer it does not fit in can be doubled once more
      have doubled : wrap 32 (wrap 32 (k.wndmask + 1) * 2) = (k.wndmask + 1) * 2 := by
        rw [wrap_eq (n := k.wndmask + 1) (by omega) (by omega), wrap_eq (by omega) (by omega)]
      rw [Acker.makeRoom, if_pos full, doubled, resizeBuffers_eq (by omega) low high,
        Option.bind_eq_bind, Option.bind_some]
      push_cast at enough
      apply ih
      · simpa using next
      · simpa using low
      · simpa using high
      · simp only [Acker.resizeBuffers_wndmask]
        omega
      · simpa using jump
      · simpa using reached
      · simp only [Acker.resizeBuffers_wndmask, Acker.resizeBuffers_next]
        rw [sub_add_cancel, mul_assoc, ← pow_succ']
        exact doublings
      · simp only [Acker.resizeBuffers_wndmask, Acker.resizeBuffers_next]
        omega
      · simpa using ahead
    · cases rounds with
      | zero => rfl
      | succ rounds => rw [Acker.makeRoom, if_neg full]

theorem raiseMaxseen_eq {seq numBytes : Int} (low : 0 ≤ k.maxseen) (high : k.maxseen < 2 ^ 31 - 2)
    (seq_nonneg : 0 ≤ seq) (seq_high : seq < 2 ^ 31 - 2) :
    raiseMaxseen k seq numBytes = k.raiseMaxseen seq numBytes := by
  rw [raiseMaxseen, wrap_eq (n := k.maxseen + 1) (by omega) (by omega),
    wrap_eq (n := seq + 1) (by omega) (by omega), Acker.raiseMaxseen]

/-- In an empty buffer there is nothing to clear. -/
theorem raiseMaxseen_empty (empty : ∀ cell, k.seen cell = 0) (seq numBytes : Int) :
    raiseMaxseen k seq numBytes =
      ({ k with maxseen := seq }.store seq numBytes).store (wrap 32 (seq + 1)) 0 := by
  simp only [raiseMaxseen, Acker.foldl_clear empty]

/-- The loop stops at an unseen segment whose number is an `int`; only the sum may wrap. -/
theorem advance_eq {turns : Nat} {next stop numToDeliver : Int} (unseen : k.seenAt stop = 0)
    (low : 0 ≤ next) (before : next ≤ stop) (high : stop < 2 ^ 31) :
    advance k turns next (wrap 32 numToDeliver) =
      (k.advance turns next numToDeliver).map fun (next, numToDeliver) =>
        (next, wrap 32 numToDeliver) := by
  induction turns generalizing next numToDeliver with
  | zero => rfl
  | succ turns ih =>
    by_cases seen : k.seenAt next = 0
    · simp [advance, Acker.advance, seen]
    have short : next < stop := by
      refine lt_of_le_of_ne before ?_
      rintro rfl
      exact seen unseen
    rw [advance, Acker.advance, if_pos seen, if_pos seen, wrap_wrap_add,
      wrap_eq (n := next + 1) (by omega) (by omega)]
    exact ih (by omega) (by omega)

theorem receiveInWindow_eq {seq numBytes : Int} {justMarkedAsSeen : Bool}
    (recorded : Recorded calls (k.store seq numBytes)) (high : k.maxseen < 2 ^ 31 - 2) :
    receiveInWindow k seq numBytes justMarkedAsSeen =
      (k.receiveInWindow seq numBytes justMarkedAsSeen).map fun (k, numToDeliver) =>
        (k, wrap 32 numToDeliver) := by
  let isDup := k.isDup || (decide (k.seenAt seq ≠ 0) && !justMarkedAsSeen)
  have marked := recorded.withDup isDup
  have stopped := @advance_eq { k.store seq numBytes with isDup } (k.wndmask + 2).toNat k.next
    (k.maxseen + 1) 0 marked.unseen marked.nonneg marked.reached (by omega)
  rw [SignedWord.wrap_zero] at stopped
  simp only [receiveInWindow, Acker.receiveInWindow, Option.map_map]
  exact (congrArg (Option.map _) stopped).trans (Option.map_map _ _ _)

theorem update_empty {seq numBytes : Int} (empty : ∀ cell, k.seen cell = 0)
    (room : makeRoom seq 32 k = some k) (higher : k.maxseen < seq) (left : k.next ≤ seq) :
    update k seq numBytes = receiveInWindow
      { ({ k with maxseen := seq }.store seq numBytes).store (wrap 32 (seq + 1)) 0 with
        isDup := false } seq numBytes true := by
  simp [update, room, higher, left, left.not_gt, raiseMaxseen_empty empty]

/-! ### Runs -/

/-- A call in reach leaves the window that unbounded numbers would, and returns what they
would, as an `int`. -/
theorem update_eq (tracks : Tracks calls k) (valid : ValidCalls (calls ++ [x]))
    (reach : InReach calls x) (high : k.maxseen < 2 ^ 31 - 2) :
    update k x.seq x.numBytes = (k.update x.seq x.numBytes).map fun (k, numToDeliver) =>
      (k, wrap 32 numToDeliver) := by
  obtain ⟨earlier, nonneg, positive⟩ := validCalls_append.mp valid
  have narrow := tracks.narrow
  have reached := tracks.reached
  have seq_high := reach.seq
  have next := tracks.nonneg
  have jump := reach.jump k.next (tracks.reassembles earlier).next
  have mask : (k.wndmask + 1) * 2 ^ 31 ≥ 1 * 2 ^ 31 :=
    Int.mul_le_mul_of_nonneg_right (by omega) (by decide)
  have roomy := tracks.makeRoom x.seq (x.seq + 2 - k.next).toNat
  have fits := @Acker.makeRoom_fits k x.seq (x.seq + 2 - k.next).toNat (by omega) (by omega)
  have made := @makeRoom_eq k x.seq (x.seq + 2 - k.next).toNat 31 nonneg seq_high next
    tracks.maxseen_nonneg high (by omega) jump reached (by omega) (by omega)
  have high : (Acker.makeRoom x.seq (x.seq + 2 - k.next).toNat k).maxseen < 2 ^ 31 - 2 := by
    rwa [roomy.maxseen.unique tracks.maxseen]
  generalize room : Acker.makeRoom x.seq (x.seq + 2 - k.next).toNat k = m at roomy fits made high
  have reached := roomy.reached
  -- the segment is new, to the left of the window, or inside
  rcases lt_or_ge m.maxseen x.seq with higher | right
  · have left : m.next ≤ x.seq := by omega
    let raised := { m.raiseMaxseen x.seq x.numBytes with isDup := false }
    have recorded : Recorded (calls ++ [x]) (raised.store x.seq x.numBytes) :=
      (roomy.raise higher fits).withDup false
    rw [Acker.update_new room left higher]
    have same : update k x.seq x.numBytes = receiveInWindow raised x.seq x.numBytes true := by
      simp [update, made, higher, left, left.not_gt, raised,
        raiseMaxseen_eq roomy.maxseen_nonneg high nonneg seq_high]
    rw [same]
    exact receiveInWindow_eq recorded seq_high
  · rcases lt_or_ge x.seq m.next with left | left
    · rw [Acker.update_left room left right]
      simp [update, made, left, right.not_gt, left.not_ge]
    · let found := { m with isDup := false }
      have recorded : Recorded (calls ++ [x]) (found.store x.seq x.numBytes) :=
        (roomy.inside left right).withDup false
      rw [Acker.update_inside room left right]
      have same : update k x.seq x.numBytes = receiveInWindow found x.seq x.numBytes false := by
        simp [update, made, left, right, left.not_gt, right.not_gt, found]
      rw [same]
      exact receiveInWindow_eq recorded high

theorem updates_append : updates (calls ++ [x]) = (updates calls).bind fun (k, returned) =>
    (update k x.seq x.numBytes).map fun (k, numToDeliver) => (k, returned + numToDeliver) := by
  rw [updates, List.foldlM_append]
  simp [updates]

theorem lastBytes_nonneg (valid : ValidCalls calls) (s : Int) : 0 ≤ lastBytes calls s := by
  induction calls using List.reverseRecOn with
  | nil => exact le_refl 0
  | append_singleton calls x ih =>
    obtain ⟨earlier, -, positive⟩ := validCalls_append.mp valid
    rw [lastBytes_append]
    split_ifs
    · exact positive.le
    · exact ih earlier

theorem lastBytes_le {most : Int} (nonneg : 0 ≤ most) (small : ∀ x ∈ calls, x.numBytes ≤ most)
    (s : Int) : lastBytes calls s ≤ most := by
  induction calls using List.reverseRecOn with
  | nil => exact nonneg
  | append_singleton calls x ih =>
    rw [lastBytes_append]
    split_ifs
    · exact small x (by simp)
    · exact ih fun y member => small y (by simp [member])

/-- Calls that fit run as they would with unbounded numbers. -/
theorem updates_eq (valid : ValidCalls calls) (each : EachCall CallFits calls) :
    updates calls = Acker.updates calls := by
  induction calls using List.reverseRecOn with
  | nil => rfl
  | append_singleton calls x ih =>
    have earlier := (validCalls_append.mp valid).1
    have before := each.before (List.prefix_append calls [x])
    obtain ⟨k, returned, accounts⟩ := Acker.exists_accounts earlier
    have high := maxseen_lt accounts.toRecorded before.inReach
    obtain ⟨j, numToDeliver, updated, tracks, after, -, sum, -⟩ := accounts.toTracks.update valid
    -- the bytes that are delivered are those of the segments in order, the new one included
    have fits : wrap 32 numToDeliver = numToDeliver := by
      have most := each.last.bytes k.next j.next (accounts.toTracks.reassembles earlier).next
        fun s left right => tracks.delivered s (accounts.nonneg.trans left) right
      have least : 0 ≤ numToDeliver := by
        rw [sum]
        exact Finset.sum_nonneg fun s _ => lastBytes_nonneg valid s
      rw [← sum] at most
      exact wrap_eq (by omega) most
    rw [updates_append, Acker.updates_append, ih earlier before, accounts.run, Option.bind_some,
      Option.bind_some]
    simp only [update_eq accounts.toTracks valid each.last.toInReach high, updated,
      Option.map_some, fits]

theorem deliveredBytes_eq (valid : ValidCalls calls) (each : EachCall CallFits calls) (s : Int) :
    deliveredBytes calls s = Acker.deliveredBytes calls s := by
  rw [deliveredBytes, Acker.deliveredBytes, deliveryOf, Acker.deliveryOf]
  congr 2
  apply List.find?_congr
  intro made earlier
  have earlier := (List.mem_inits made calls).mp earlier
  rw [updates_eq (fun x member => valid x (earlier.subset member)) (each.before earlier)]

/-- Whatever the order, the gaps and the jumps: as long as every call fits, after it the window
tells what arrived, the call tells whether it was a duplicate, and every segment is delivered
exactly once. -/
theorem updates_reassemble (calls : List Segment) (valid : ValidCalls calls)
    (each : EachCall CallFits calls) :
    ∃ k returned, updates calls = some (k, returned) ∧ Reassembles calls k ∧
      (∀ earlier x, calls = earlier ++ [x] → (k.isDup = true ↔ Received earlier x.seq)) ∧
      returned = ∑ s ∈ Finset.Ico 0 k.next, deliveredBytes calls s := by
  obtain ⟨k, returned, run, reassembles, dup, sum⟩ := Acker.exists_reassembles valid
  refine ⟨k, returned, (updates_eq valid each).trans run, reassembles, dup, ?_⟩
  rw [sum]
  exact Finset.sum_congr rfl fun s _ => (deliveredBytes_eq valid each s).symm

/-- Two halves of 2³¹ bytes are returned as a negative number, and a jump of 2³⁰ - 2 asks for
a buffer of negative size. -/
theorem longCalls_lost :
    ((updates [⟨1, 2 ^ 30⟩, ⟨0, 2 ^ 30⟩]).map fun (k, returned) => (k.next, returned)) =
        some (2, -2 ^ 31) ∧
      ∑ s ∈ Finset.Ico 0 2, deliveredBytes [⟨1, 2 ^ 30⟩, ⟨0, 2 ^ 30⟩] s = 2 ^ 31 ∧
      updates [⟨2 ^ 30 - 2, 1⟩] = none := by
  refine ⟨by decide +kernel, by decide +kernel, by decide +kernel⟩

/-- Calls fit if the segments are numbered below `most`, and that many of the largest size
are an `int`. -/
theorem eachCall_of_bounded {most numBytes : Int} (few : most ≤ 2 ^ 30 - 2)
    (small : most * numBytes < 2 ^ 31)
    (bounded : ∀ x ∈ calls, (0 ≤ x.seq ∧ x.seq < most) ∧ 0 < x.numBytes ∧ x.numBytes ≤ numBytes) :
    EachCall CallFits calls := by
  intro made x earlier
  have last := bounded x (earlier.subset (by simp))
  have valid : ValidCalls (made ++ [x]) := fun y member => by
    have known := bounded y (earlier.subset member)
    exact ⟨known.1.1, known.2.1⟩
  refine ⟨⟨by omega, fun n least => ?_⟩, fun n m least received => ?_⟩
  · have nonneg := least.1.1
    omega
  · have nonneg := least.1.1
    -- the stretch is part of the numbers there are
    have inside : Finset.Ico n m ⊆ Finset.Ico 0 most := by
      intro s stretch
      obtain ⟨left, right⟩ := Finset.mem_Ico.mp stretch
      obtain ⟨y, member, rfl⟩ := received s left right
      exact Finset.mem_Ico.mpr (bounded y (earlier.subset member)).1
    calc ∑ s ∈ Finset.Ico n m, lastBytes (made ++ [x]) s
        ≤ ∑ s ∈ Finset.Ico 0 most, lastBytes (made ++ [x]) s :=
          Finset.sum_le_sum_of_subset_of_nonneg inside fun s _ _ => lastBytes_nonneg valid s
      _ ≤ (Finset.Ico 0 most).card • numBytes :=
          Finset.sum_le_card_nsmul _ _ _ fun s _ => lastBytes_le (by omega)
            (fun y member => (bounded y (earlier.subset member)).2.2) s
      _ = most * numBytes := by
          rw [Int.card_Ico, nsmul_eq_mul, Int.toNat_of_nonneg (by omega), sub_zero]
      _ < 2 ^ 31 := small

/-- A gap, a jump past the buffer, the segment that fills the gap, and a duplicate. -/
def jumpingCalls : List Segment := [⟨1, 10⟩, ⟨70, 5⟩, ⟨0, 20⟩, ⟨1, 3⟩]

theorem jumpingCalls_reassembled :
    ((updates jumpingCalls).map fun (k, returned) => (k.next, k.wndmask, k.isDup, returned)) =
        some (2, 127, true, 30) ∧
      ∃ k returned, updates jumpingCalls = some (k, returned) ∧ Reassembles jumpingCalls k ∧
        (∀ earlier x, jumpingCalls = earlier ++ [x] →
          (k.isDup = true ↔ Received earlier x.seq)) ∧
        returned = ∑ s ∈ Finset.Ico 0 k.next, deliveredBytes jumpingCalls s :=
  ⟨by decide +kernel, updates_reassemble jumpingCalls (by simp [jumpingCalls, ValidCalls])
    (@eachCall_of_bounded jumpingCalls 71 20 (by decide) (by decide) (by decide))⟩

end Saps.Tcp.IntAcker
