import Mathlib.Algebra.BigOperators.Group.Finset.Basic
import Mathlib.Algebra.Order.Interval.Finset.SuccPred
import Mathlib.Data.List.Infix
import Mathlib.Data.Int.ConditionallyCompleteOrder
import Mathlib.Data.Int.Interval
import Mathlib.Data.Int.SuccPred
import Mathlib.Order.Bounds.Basic
import Saps.Tcp.Sink

/-!
# Reassembly

`Acker::update()` called for segment after segment, in any order and with any
gaps: what the receive window shows after each call is what the calls brought.
-/
namespace Saps.Tcp

/-- The arguments of one call of `update(int seq, int numBytes)`. -/
structure Segment where
  seq : Int
  numBytes : Int
deriving DecidableEq, Repr

def Received (calls : List Segment) (s : Int) : Prop := ∃ x ∈ calls, x.seq = s

/-- The byte count of the last arrival of `s`. -/
def lastBytes (calls : List Segment) (s : Int) : Int :=
  calls.foldl (fun numBytes x => if x.seq = s then x.numBytes else numBytes) 0

/-- What `TcpSink::recv()` passes on: sequence numbers count from 0, and no packet is empty. -/
def ValidCalls (calls : List Segment) : Prop := ∀ x ∈ calls, 0 ≤ x.seq ∧ 0 < x.numBytes

namespace Acker

def fresh : Acker := TcpSink.fresh.acker

/-- The state after the calls, and the sum of the values they returned. -/
def updates (calls : List Segment) : Option (Acker × Int) :=
  calls.foldlM (fun (k, returned) x =>
    (k.update x.seq x.numBytes).map fun (k, numToDeliver) => (k, returned + numToDeliver))
    (fresh, 0)

/-- The calls up to the one that moved `next_` past `s`. -/
def deliveryOf (calls : List Segment) (s : Int) : Option (List Segment) :=
  calls.inits.find? fun made => (updates made).any fun (k, _) => decide (s < k.next)

/-- The byte count with which `s` was delivered. -/
def deliveredBytes (calls : List Segment) (s : Int) : Int :=
  ((deliveryOf calls s).map fun made => lastBytes made s).getD 0

/-- What the window of an `Acker` says about the calls made so far. -/
structure Reassembles (calls : List Segment) (k : Acker) : Prop where
  next : IsLeast {s | 0 ≤ s ∧ ¬ Received calls s} k.next
  -- 0 as long as nothing was received
  maxseen : IsGreatest (insert 0 {s | Received calls s}) k.maxseen
  seen : ∀ s, k.next ≤ s → s ≤ k.maxseen → (k.seenAt s ≠ 0 ↔ Received calls s)

end Acker

/-! ### Arrival histories -/

section

variable {calls : List Segment} {x : Segment} {s : Int}

@[simp] theorem received_append :
    Received (calls ++ [x]) s ↔ Received calls s ∨ x.seq = s := by
  simp [Received, or_and_right, exists_or]

@[simp] theorem lastBytes_append :
    lastBytes (calls ++ [x]) s = if x.seq = s then x.numBytes else lastBytes calls s := by
  simp [lastBytes]

theorem validCalls_append : ValidCalls (calls ++ [x]) ↔
    ValidCalls calls ∧ 0 ≤ x.seq ∧ 0 < x.numBytes := by
  simp only [ValidCalls, List.mem_append, List.mem_singleton, or_imp, forall_and, forall_eq]
  tauto

theorem lastBytes_eq_zero (missing : ¬ Received calls s) : lastBytes calls s = 0 := by
  induction calls using List.reverseRecOn with
  | nil => rfl
  | append_singleton calls x ih =>
    rw [received_append, not_or] at missing
    rw [lastBytes_append, if_neg missing.2, ih missing.1]

theorem lastBytes_ne_zero_iff (valid : ValidCalls calls) :
    lastBytes calls s ≠ 0 ↔ Received calls s := by
  induction calls using List.reverseRecOn with
  | nil => simp [lastBytes, Received]
  | append_singleton calls x ih =>
    obtain ⟨earlier, -, positive⟩ := validCalls_append.mp valid
    rw [lastBytes_append, received_append, ← ih earlier]
    split_ifs with last
    · exact iff_of_true positive.ne' (.inr last)
    · simp [last]

end

namespace Acker

variable {k : Acker} {calls : List Segment} {x : Segment}

/-! ### Cells -/

/-- Numbers less than a turn of the buffer apart have cells of their own. -/
theorem emod_inj {i s : Int} (below : i - s ≤ k.wndmask) (above : s - i ≤ k.wndmask)
    (same : s % (k.wndmask + 1) = i % (k.wndmask + 1)) : s = i := by
  have turns := Int.dvd_of_emod_eq_zero (Int.emod_eq_emod_iff_emod_sub_eq_zero.mp same)
  have apart : |s - i| < k.wndmask + 1 := abs_lt.mpr ⟨by omega, by omega⟩
  exact sub_eq_zero.mp (Int.eq_zero_of_abs_lt_dvd turns apart)

theorem seenAt_store {i s numBytes : Int} (below : i - s ≤ k.wndmask) (above : s - i ≤ k.wndmask) :
    (k.store i numBytes).seenAt s = if s = i then numBytes else k.seenAt s := by
  simp only [seenAt, store, Function.update_apply]
  split_ifs with same equal equal
  · rfl
  · exact absurd (emod_inj below above same) equal
  · exact absurd (congrArg (· % (k.wndmask + 1)) equal) same
  · rfl

/-- Storing in the cells of several numbers changes what is seen of these and of no others near. -/
theorem seenAt_foldl_store {value : Int → Int} {indices : List Int} {s : Int}
    (near : ∀ i ∈ indices, i - s ≤ k.wndmask ∧ s - i ≤ k.wndmask) :
    (indices.foldl (fun new i => new.store i (value i)) k).seenAt s =
      if s ∈ indices then value s else k.seenAt s := by
  induction indices generalizing k with
  | nil => simp
  | cons i indices ih =>
    obtain ⟨below, above⟩ := near i (by simp)
    rw [List.foldl_cons, @ih (k.store i (value i)) fun j later => near j (by simp [later]),
      seenAt_store below above]
    by_cases later : s ∈ indices
    · simp [later]
    · by_cases first : s = i
      · simp [first]
      · simp [later, first]

theorem mem_stretch {start s : Int} {count : Nat} :
    s ∈ (List.range count).map (fun (i : Nat) => start + (i : Int)) ↔
      start ≤ s ∧ s < start + count := by
  simp only [List.mem_map, List.mem_range]
  constructor
  · rintro ⟨i, inside, rfl⟩
    omega
  · rintro ⟨lower, upper⟩
    exact ⟨(s - start).toNat, by omega, by omega⟩

@[simp] theorem resizeBuffers_maxseen (sz : Int) : (k.resizeBuffers sz).maxseen = k.maxseen :=
  foldl_store maxseen (fun _ _ _ => rfl) k.seenAt _

/-- A resized buffer shows what the old one showed between `next_` and `maxseen_ + 1`. -/
theorem seenAt_resizeBuffers {sz s : Int} (larger : k.wndmask ≤ sz - 1)
    (narrow : k.maxseen + 1 - k.next < k.wndmask) (left : k.next ≤ s) (right : s ≤ k.maxseen + 1) :
    (k.resizeBuffers sz).seenAt s = k.seenAt s := by
  rw [resizeBuffers, seenAt_foldl_store, if_pos]
  · exact mem_stretch.mpr ⟨left, by omega⟩
  · intro i moved
    obtain ⟨lower, upper⟩ := mem_stretch.mp moved
    constructor <;> dsimp only <;> omega

@[simp] theorem raiseMaxseen_next (seq numBytes : Int) :
    (k.raiseMaxseen seq numBytes).next = k.next :=
  foldl_store next (fun _ _ _ => rfl) (fun _ => 0) _

@[simp] theorem raiseMaxseen_wndmask (seq numBytes : Int) :
    (k.raiseMaxseen seq numBytes).wndmask = k.wndmask :=
  foldl_store wndmask (fun _ _ _ => rfl) (fun _ => 0) _

@[simp] theorem raiseMaxseen_maxseen (seq numBytes : Int) :
    (k.raiseMaxseen seq numBytes).maxseen = seq := rfl

/-- Past the old maximum a new one is all that is seen. -/
theorem seenAt_raiseMaxseen {seq numBytes s : Int} (fits : seq + 1 - k.next < k.wndmask)
    (higher : k.maxseen < seq) (reached : k.next ≤ k.maxseen + 1)
    (left : k.next ≤ s) (right : s ≤ seq + 1) :
    (k.raiseMaxseen seq numBytes).seenAt s =
      if s = seq then numBytes else if k.maxseen < s then 0 else k.seenAt s := by
  let skipped := (List.range (seq - (k.maxseen + 1)).toNat).map
    fun (i : Nat) => k.maxseen + 1 + (i : Int)
  let cleared := skipped.foldl (fun new i => new.store i 0) k
  -- clearing the skipped cells changes one cell a time, inside the window
  have mask : cleared.wndmask = k.wndmask := foldl_store wndmask (fun _ _ _ => rfl) (fun _ => 0) _
  have raised : (k.raiseMaxseen seq numBytes).seenAt s =
      ((cleared.store seq numBytes).store (seq + 1) 0).seenAt s := rfl
  have clear : cleared.seenAt s = if s ∈ skipped then 0 else k.seenAt s :=
    seenAt_foldl_store fun i skips => by
      obtain ⟨lower, upper⟩ := mem_stretch.mp skips
      constructor <;> omega
  have skips : s ∈ skipped ↔ k.maxseen + 1 ≤ s ∧ s < seq := by
    rw [mem_stretch]
    omega
  rw [raised, seenAt_store, seenAt_store, clear]
  · simp only [skips]
    split_ifs <;> first | rfl | omega
  all_goals simp only [store_wndmask, mask]; omega

theorem store_seenAt {i : Int} : k.store i (k.seenAt i) = k := by
  rw [store, seenAt, Function.update_eq_self]

/-- Nothing is there to clear in an empty buffer. -/
theorem foldl_clear (empty : ∀ cell, k.seen cell = 0) (indices : List Int) :
    indices.foldl (fun new i => new.store i 0) k = k := by
  induction indices with
  | nil => rfl
  | cons i indices ih =>
    have cleared : k.store i 0 = k := by
      rw [store, ← empty (i % (k.wndmask + 1)), Function.update_eq_self]
    rw [List.foldl_cons, cleared, ih]

/-! ### The invariant of the window -/

/-- The calls are in the window, but what is in order may not have been delivered yet. -/
structure Recorded (calls : List Segment) (k : Acker) : Prop where
  nonneg : 0 ≤ k.next
  delivered : ∀ s, 0 ≤ s → s < k.next → Received calls s
  maxseen : IsGreatest (insert 0 {s | Received calls s}) k.maxseen
  narrow : k.maxseen + 1 - k.next < k.wndmask
  shows : ∀ s, k.next ≤ s → s ≤ k.maxseen + 1 → k.seenAt s = lastBytes calls s

/-- The state between two calls. -/
structure Tracks (calls : List Segment) (k : Acker) : Prop extends Recorded calls k where
  missing : ¬ Received calls k.next

theorem Recorded.le_maxseen (recorded : Recorded calls k) {s : Int} (received : Received calls s) :
    s ≤ k.maxseen :=
  recorded.maxseen.2 (.inr received)

theorem Recorded.maxseen_nonneg (recorded : Recorded calls k) : 0 ≤ k.maxseen :=
  recorded.maxseen.2 (.inl rfl)

theorem Recorded.reached (recorded : Recorded calls k) : k.next ≤ k.maxseen + 1 := by
  by_contra beyond
  have nonneg := recorded.maxseen_nonneg
  have received := recorded.delivered (k.maxseen + 1) (by omega) (by omega)
  have below := recorded.le_maxseen received
  omega

/-- The cell behind `maxseen` is free. -/
theorem Recorded.unseen (recorded : Recorded calls k) : k.seenAt (k.maxseen + 1) = 0 := by
  rw [recorded.shows _ recorded.reached (le_refl _)]
  refine lastBytes_eq_zero fun received => ?_
  have below := recorded.le_maxseen received
  omega

theorem Recorded.withDup (recorded : Recorded calls k) (isDup : Bool) :
    Recorded calls { k with isDup } where
  nonneg := recorded.nonneg
  delivered := recorded.delivered
  maxseen := recorded.maxseen
  narrow := recorded.narrow
  shows := recorded.shows

theorem Tracks.withDup (tracks : Tracks calls k) (isDup : Bool) :
    Tracks calls { k with isDup } :=
  ⟨tracks.toRecorded.withDup isDup, tracks.missing⟩

theorem tracks_fresh : Tracks [] fresh where
  nonneg := le_refl 0
  delivered := fun s nonneg below => absurd below nonneg.not_gt
  maxseen := ⟨.inl rfl, by rintro s (rfl | ⟨x, none, -⟩); exacts [le_refl 0, nomatch none]⟩
  narrow := by decide
  shows := fun _ _ _ => rfl
  missing := by rintro ⟨x, none, -⟩; exact nomatch none

theorem Tracks.resizeBuffers (tracks : Tracks calls k) {sz : Int} (larger : k.wndmask ≤ sz - 1) :
    Tracks calls (k.resizeBuffers sz) where
  nonneg := by simpa using tracks.nonneg
  delivered := by simpa using tracks.delivered
  maxseen := by simpa using tracks.maxseen
  narrow := by
    have narrow := tracks.narrow
    simp only [resizeBuffers_maxseen, resizeBuffers_next, resizeBuffers_wndmask]
    omega
  shows := by
    simp only [resizeBuffers_maxseen, resizeBuffers_next]
    intro s left right
    rw [seenAt_resizeBuffers larger tracks.narrow left right, tracks.shows s left right]
  missing := by simpa using tracks.missing

theorem Tracks.makeRoom (tracks : Tracks calls k) (seq : Int) (rounds : Nat) :
    Tracks calls (makeRoom seq rounds k) := by
  induction rounds generalizing k with
  | zero => exact tracks
  | succ rounds ih =>
    have reached := tracks.reached
    have narrow := tracks.narrow
    simp only [Acker.makeRoom]
    split
    · exact ih (tracks.resizeBuffers (by omega))
    · exact tracks

theorem makeRoom_next (seq : Int) (rounds : Nat) : (makeRoom seq rounds k).next = k.next := by
  induction rounds generalizing k with
  | zero => rfl
  | succ rounds ih =>
    simp only [makeRoom]
    split
    · rw [ih, resizeBuffers_next]
    · rfl

/-- A segment left of the window was received before. -/
theorem Tracks.left (tracks : Tracks calls k) (nonneg : 0 ≤ x.seq) (left : x.seq < k.next) :
    Tracks (calls ++ [x]) k := by
  have received := tracks.delivered x.seq nonneg left
  have same : ∀ s, Received (calls ++ [x]) s ↔ Received calls s := by
    intro s
    rw [received_append, or_iff_left_iff_imp]
    rintro rfl
    exact received
  refine ⟨⟨tracks.nonneg, ?_, ?_, tracks.narrow, ?_⟩, ?_⟩
  · simpa only [same] using tracks.delivered
  · simpa only [same] using tracks.maxseen
  · intro s inside below
    rw [lastBytes_append, if_neg (by omega), tracks.shows s inside below]
  · simpa only [same] using tracks.missing

/-- A segment inside the window goes to its cell. -/
theorem Recorded.inside (recorded : Recorded calls k) (left : k.next ≤ x.seq)
    (right : x.seq ≤ k.maxseen) : Recorded (calls ++ [x]) (k.store x.seq x.numBytes) where
  nonneg := recorded.nonneg
  delivered := fun s nonneg below => received_append.mpr (.inl (recorded.delivered s nonneg below))
  maxseen := by
    refine ⟨recorded.maxseen.1.imp_right fun received => received_append.mpr (.inl received), ?_⟩
    rintro s (rfl | received)
    · exact recorded.maxseen_nonneg
    · rcases received_append.mp received with earlier | rfl
      · exact recorded.le_maxseen earlier
      · exact right
  narrow := recorded.narrow
  shows := by
    intro s inside below
    have narrow := recorded.narrow
    simp only [store_next, store_maxseen] at inside below
    rw [seenAt_store (by omega) (by omega), lastBytes_append, recorded.shows s inside below]
    simp only [eq_comm]

/-- A new maximum moves the right edge of the window, and then goes to its cell once more. -/
theorem Tracks.raise (tracks : Tracks calls k) (higher : k.maxseen < x.seq)
    (fits : x.seq + 1 - k.next < k.wndmask) :
    Recorded (calls ++ [x]) ((k.raiseMaxseen x.seq x.numBytes).store x.seq x.numBytes) := by
  have reached := tracks.reached
  have nonneg := tracks.maxseen_nonneg
  have stored := @seenAt_raiseMaxseen k x.seq x.numBytes x.seq fits higher reached
    (by omega) (by omega)
  rw [if_pos rfl] at stored
  have again := @store_seenAt (k.raiseMaxseen x.seq x.numBytes) x.seq
  rw [stored] at again
  -- the segment is stored once more with the bytes it already shows
  rw [again]
  refine ⟨by simpa using tracks.nonneg, ?_, ?_, by simpa using fits, ?_⟩
  · intro s nonneg below
    rw [raiseMaxseen_next] at below
    exact received_append.mpr (.inl (tracks.delivered s nonneg below))
  · refine ⟨.inr (received_append.mpr (.inr rfl)), ?_⟩
    rw [raiseMaxseen_maxseen]
    rintro s (rfl | received)
    · omega
    · rcases received_append.mp received with earlier | rfl
      · exact (tracks.le_maxseen earlier).trans higher.le
      · exact le_refl _
  · intro s left right
    simp only [raiseMaxseen_next, raiseMaxseen_maxseen] at left right
    rw [seenAt_raiseMaxseen fits higher reached left right, lastBytes_append]
    by_cases last : x.seq = s
    · rw [if_pos last.symm, if_pos last]
    -- what lies above the old `maxseen` was cleared and never received
    · rw [if_neg (Ne.symm last), if_neg last]
      split_ifs with above
      · exact (lastBytes_eq_zero fun received => above.not_ge (tracks.le_maxseen received)).symm
      · exact tracks.shows s left (by omega)

/-! ### The delivery loop -/

/-- The loop stops at the first unseen segment, and delivers everything before it. -/
theorem advance_eq {turns : Nat} {next stop numToDeliver : Int} (unseen : k.seenAt stop = 0)
    (before : next ≤ stop) (enough : stop - next < turns) :
    ∃ last, next ≤ last ∧ last ≤ stop ∧ k.seenAt last = 0 ∧
      (∀ s, next ≤ s → s < last → k.seenAt s ≠ 0) ∧
      k.advance turns next numToDeliver =
        some (last, numToDeliver + ∑ s ∈ Finset.Ico next last, k.seenAt s) := by
  induction turns generalizing next numToDeliver with
  | zero => omega
  | succ turns ih =>
    by_cases seen : k.seenAt next = 0
    · refine ⟨next, le_refl next, before, seen, fun s left right => by omega, ?_⟩
      simp [advance, seen]
    -- a seen segment is not the stop, so the loop has a turn left for the rest
    · have short : next < stop := by
        refine lt_of_le_of_ne before ?_
        rintro rfl
        exact seen unseen
      obtain ⟨last, after, within, missing, all, advanced⟩ :=
        @ih (next + 1) (numToDeliver + k.seenAt next) (by omega) (by push_cast at enough; omega)
      refine ⟨last, by omega, within, missing, ?_, ?_⟩
      · intro s left right
        rcases eq_or_lt_of_le left with rfl | later
        · exact seen
        · exact all s (by omega) right
      · have first : next ∉ Finset.Ico (next + 1) last := by simp
        have stretch := Finset.insert_Ico_add_one_left_eq_Ico (show next < last by omega)
        rw [advance, if_pos seen, advanced, ← stretch, Finset.sum_insert first, add_assoc]

/-- What the delivery loop makes of a window in which the last call is recorded. -/
theorem Recorded.deliver (recorded : Recorded calls k) (valid : ValidCalls calls) :
    ∃ next numToDeliver, k.advance (k.wndmask + 2).toNat k.next 0 = some (next, numToDeliver) ∧
      Tracks calls { k with next } ∧ k.next ≤ next ∧
      numToDeliver = ∑ s ∈ Finset.Ico k.next next, lastBytes calls s := by
  have reached := recorded.reached
  have narrow := recorded.narrow
  have nonneg := recorded.nonneg
  -- the loop stops behind `maxseen` at the latest
  obtain ⟨next, after, within, missing, all, advanced⟩ :=
    @advance_eq k (k.wndmask + 2).toNat k.next (k.maxseen + 1) 0 recorded.unseen reached (by omega)
  have shows : ∀ s, k.next ≤ s → s ≤ k.maxseen + 1 → (k.seenAt s ≠ 0 ↔ Received calls s) := by
    intro s left right
    rw [recorded.shows s left right, lastBytes_ne_zero_iff valid]
  refine ⟨next, _, advanced, ⟨⟨?_, ?_, recorded.maxseen, ?_, ?_⟩, ?_⟩, after, ?_⟩
  · exact nonneg.trans after
  · intro s nonneg below
    rcases lt_or_ge s k.next with earlier | inside
    · exact recorded.delivered s nonneg earlier
    · exact (shows s inside (below.le.trans within)).mp (all s inside below)
  · exact lt_of_le_of_lt (by dsimp only; omega) narrow
  · exact fun s left right => recorded.shows s (after.trans left) right
  · exact fun received => (shows next after within).mpr received missing
  · rw [zero_add]
    refine Finset.sum_congr rfl fun s inside => ?_
    obtain ⟨left, right⟩ := Finset.mem_Ico.mp inside
    exact recorded.shows s left (by omega)

/-! ### One call -/

theorem Recorded.receive {seq numBytes : Int} {justMarkedAsSeen : Bool}
    (recorded : Recorded calls (k.store seq numBytes)) (valid : ValidCalls calls) :
    ∃ j numToDeliver, k.receiveInWindow seq numBytes justMarkedAsSeen = some (j, numToDeliver) ∧
      Tracks calls j ∧ k.next ≤ j.next ∧
      (∀ s, k.next ≤ s → s ≤ j.maxseen + 1 → j.seenAt s = lastBytes calls s) ∧
      numToDeliver = ∑ s ∈ Finset.Ico k.next j.next, lastBytes calls s ∧
      (j.isDup = true ↔ k.isDup = true ∨ k.seenAt seq ≠ 0 ∧ justMarkedAsSeen = false) := by
  let isDup := k.isDup || (decide (k.seenAt seq ≠ 0) && !justMarkedAsSeen)
  obtain ⟨next, numToDeliver, advanced, tracks, after, sum⟩ :=
    (recorded.withDup isDup).deliver valid
  refine ⟨{ k.store seq numBytes with isDup, next }, numToDeliver, ?_, tracks, after,
    recorded.shows, sum, ?_⟩
  · exact Option.map_eq_some_iff.mpr ⟨(next, numToDeliver), advanced, rfl⟩
  · simp [isDup]

section

variable {m : Acker} {seq numBytes : Int}

theorem update_new (room : makeRoom seq (seq + 2 - k.next).toNat k = m) (left : m.next ≤ seq)
    (higher : m.maxseen < seq) : k.update seq numBytes =
      receiveInWindow { m.raiseMaxseen seq numBytes with isDup := false } seq numBytes true := by
  simp [update, room, higher, left, left.not_gt]

theorem update_inside (room : makeRoom seq (seq + 2 - k.next).toNat k = m) (left : m.next ≤ seq)
    (right : seq ≤ m.maxseen) : k.update seq numBytes =
      receiveInWindow { m with isDup := false } seq numBytes false := by
  simp [update, room, left, right, left.not_gt, right.not_gt]

theorem update_left (room : makeRoom seq (seq + 2 - k.next).toNat k = m) (left : seq < m.next)
    (right : seq ≤ m.maxseen) : k.update seq numBytes = some ({ m with isDup := true }, 0) := by
  simp [update, room, left, right.not_gt, left.not_ge]

end

/-- One call of `update()`: the window follows, and what is now in order is delivered. What it
delivers stays in its cells. -/
theorem Tracks.update (tracks : Tracks calls k) (valid : ValidCalls (calls ++ [x])) :
    ∃ j numToDeliver, k.update x.seq x.numBytes = some (j, numToDeliver) ∧
      Tracks (calls ++ [x]) j ∧ k.next ≤ j.next ∧
      (∀ s, k.next ≤ s → s ≤ j.maxseen + 1 → j.seenAt s = lastBytes (calls ++ [x]) s) ∧
      numToDeliver = ∑ s ∈ Finset.Ico k.next j.next, lastBytes (calls ++ [x]) s ∧
      (j.isDup = true ↔ Received calls x.seq) := by
  obtain ⟨earlier, nonneg, positive⟩ := validCalls_append.mp valid
  have narrow := tracks.narrow
  have reached := tracks.reached
  have roomy := tracks.makeRoom x.seq (x.seq + 2 - k.next).toNat
  have fits := @makeRoom_fits k x.seq (x.seq + 2 - k.next).toNat (by omega) (by omega)
  have same := @makeRoom_next k x.seq (x.seq + 2 - k.next).toNat
  generalize room : Acker.makeRoom x.seq (x.seq + 2 - k.next).toNat k = m at roomy fits same
  rw [← same]
  have reached := roomy.reached
  rcases lt_or_ge m.maxseen x.seq with higher | right
  -- a segment beyond all others moves `maxseen`
  · have new : ¬ Received calls x.seq := fun received => higher.not_ge (roomy.le_maxseen received)
    rw [update_new room (by omega) higher]
    let raised := { m.raiseMaxseen x.seq x.numBytes with isDup := false }
    have left : raised.next = m.next := raiseMaxseen_next x.seq x.numBytes
    have recorded : Recorded (calls ++ [x]) (raised.store x.seq x.numBytes) :=
      (roomy.raise higher fits).withDup false
    obtain ⟨j, numToDeliver, received, moved, after, shows, sum, dup⟩ :=
      @recorded.receive _ _ _ _ true valid
    rw [left] at after shows sum
    refine ⟨j, numToDeliver, received, moved, after, shows, sum, dup.trans (iff_of_false ?_ new)⟩
    rintro (dup | ⟨-, old⟩)
    · exact nomatch dup
    · exact nomatch old
  · rcases lt_or_ge x.seq m.next with left | left
    -- one that was delivered already changes nothing
    · rw [update_left room left right]
      have kept := roomy.left nonneg left
      refine ⟨_, 0, rfl, kept.withDup true, le_refl _, kept.shows, by simp, ?_⟩
      exact iff_of_true rfl (roomy.delivered x.seq nonneg left)
    -- one inside the window was received if its cell says so
    · rw [update_inside room left right]
      let found := { m with isDup := false }
      have recorded : Recorded (calls ++ [x]) (found.store x.seq x.numBytes) :=
        (roomy.inside left right).withDup false
      obtain ⟨j, numToDeliver, received, moved, after, shows, sum, dup⟩ :=
      @recorded.receive _ _ _ _ false valid
      refine ⟨j, numToDeliver, received, moved, after, shows, sum, dup.trans ?_⟩
      have shown : found.seenAt x.seq = lastBytes calls x.seq := roomy.shows x.seq left (by omega)
      rw [← lastBytes_ne_zero_iff earlier, shown]
      simp [found]

/-! ### Runs -/

@[simp] theorem updates_append : updates (calls ++ [x]) = (updates calls).bind fun (k, returned) =>
    (k.update x.seq x.numBytes).map fun (k, numToDeliver) => (k, returned + numToDeliver) := by
  rw [updates, List.foldlM_append]
  simp [updates]

theorem deliveryOf_append {s : Int} : deliveryOf (calls ++ [x]) s = (deliveryOf calls s).or
    (if (updates (calls ++ [x])).any (fun (k, _) => decide (s < k.next)) then some (calls ++ [x])
      else none) := by
  rw [deliveryOf, List.inits_append, List.find?_append, deliveryOf]
  simp only [List.inits, List.tail_cons, List.map_cons, List.map_nil, List.find?_singleton]

/-- The state after the calls, with every segment left of the window accounted for. -/
structure Accounts (calls : List Segment) (k : Acker) (returned : Int) : Prop
    extends Tracks calls k where
  run : updates calls = some (k, returned)
  given : ∀ s, 0 ≤ s → s < k.next → (deliveryOf calls s).isSome
  pending : ∀ s, k.next ≤ s → deliveryOf calls s = none
  sum : returned = ∑ s ∈ Finset.Ico 0 k.next, deliveredBytes calls s

theorem accounts_nil : Accounts [] fresh 0 where
  toTracks := tracks_fresh
  run := rfl
  given := fun s nonneg below => absurd below nonneg.not_gt
  pending := fun s right => by
    have right : ¬ s < fresh.next := right.not_gt
    simp [deliveryOf, List.inits, updates, right]
  sum := rfl

theorem Accounts.update {returned : Int} (accounts : Accounts calls k returned)
    (valid : ValidCalls (calls ++ [x])) :
    ∃ j sum, Accounts (calls ++ [x]) j sum ∧ (j.isDup = true ↔ Received calls x.seq) := by
  obtain ⟨j, numToDeliver, updated, tracks, after, -, sum, dup⟩ := accounts.toTracks.update valid
  have run : updates (calls ++ [x]) = some (j, returned + numToDeliver) := by
    rw [updates_append, accounts.run, Option.bind_some]
    simp only [updated, Option.map_some]
  -- what was delivered before stays delivered then, and only this call delivers anything new
  have old : ∀ s, 0 ≤ s → s < k.next → deliveryOf (calls ++ [x]) s = deliveryOf calls s := by
    intro s nonneg below
    rw [deliveryOf_append, Option.or_of_isSome (accounts.given s nonneg below)]
  have new : ∀ s, k.next ≤ s →
      deliveryOf (calls ++ [x]) s = if s < j.next then some (calls ++ [x]) else none := by
    intro s right
    rw [deliveryOf_append, accounts.pending s right, run]
    simp
  refine ⟨j, returned + numToDeliver, ⟨tracks, run, ?_, ?_, ?_⟩, dup⟩
  · intro s nonneg below
    rcases lt_or_ge s k.next with earlier | right
    · rw [old s nonneg earlier]
      exact accounts.given s nonneg earlier
    · rw [new s right, if_pos below]
      rfl
  · intro s right
    rw [new s (after.trans right), if_neg right.not_gt]
  · have kept : ∑ s ∈ Finset.Ico 0 k.next, deliveredBytes calls s =
        ∑ s ∈ Finset.Ico 0 k.next, deliveredBytes (calls ++ [x]) s := by
      refine Finset.sum_congr rfl fun s inside => ?_
      obtain ⟨nonneg, below⟩ := Finset.mem_Ico.mp inside
      rw [deliveredBytes, deliveredBytes, old s nonneg below]
    have added : ∑ s ∈ Finset.Ico k.next j.next, lastBytes (calls ++ [x]) s =
        ∑ s ∈ Finset.Ico k.next j.next, deliveredBytes (calls ++ [x]) s := by
      refine Finset.sum_congr rfl fun s inside => ?_
      obtain ⟨left, below⟩ := Finset.mem_Ico.mp inside
      rw [deliveredBytes, new s left, if_pos below]
      rfl
    rw [accounts.sum, sum, kept, added, ← Finset.Ico_union_Ico_eq_Ico accounts.nonneg after,
      Finset.sum_union (Finset.Ico_disjoint_Ico_consecutive 0 k.next j.next)]

theorem exists_accounts (valid : ValidCalls calls) : ∃ k returned, Accounts calls k returned := by
  induction calls using List.reverseRecOn with
  | nil => exact ⟨fresh, 0, accounts_nil⟩
  | append_singleton calls x ih =>
    obtain ⟨k, returned, accounts⟩ := ih (validCalls_append.mp valid).1
    obtain ⟨j, sum, accounts, -⟩ := accounts.update valid
    exact ⟨j, sum, accounts⟩

theorem Tracks.reassembles (tracks : Tracks calls k) (valid : ValidCalls calls) :
    Reassembles calls k where
  next := by
    refine ⟨⟨tracks.nonneg, tracks.missing⟩, fun s ⟨nonneg, missing⟩ => ?_⟩
    by_contra below
    exact missing (tracks.delivered s nonneg (not_le.mp below))
  maxseen := tracks.maxseen
  seen := fun s left right => by
    rw [tracks.shows s left (by omega), lastBytes_ne_zero_iff valid]

/-- Whatever the order, the gaps and the jumps: after every call the window tells what arrived,
the call tells whether it was a duplicate, and every segment is delivered exactly once. -/
theorem exists_reassembles (valid : ValidCalls calls) :
    ∃ k returned, updates calls = some (k, returned) ∧ Reassembles calls k ∧
      (∀ earlier x, calls = earlier ++ [x] → (k.isDup = true ↔ Received earlier x.seq)) ∧
      returned = ∑ s ∈ Finset.Ico 0 k.next, deliveredBytes calls s := by
  rcases List.eq_nil_or_concat calls with rfl | ⟨earlier, x, rfl⟩
  · refine ⟨fresh, 0, rfl, tracks_fresh.reassembles valid, fun earlier x split => ?_, rfl⟩
    simp at split
  · rw [List.concat_eq_append] at valid ⊢
    obtain ⟨k, returned, accounts⟩ := exists_accounts (validCalls_append.mp valid).1
    obtain ⟨j, sum, accounts, dup⟩ := accounts.update valid
    refine ⟨j, sum, accounts.run, accounts.reassembles valid, fun earlier y split => ?_,
      accounts.sum⟩
    obtain ⟨rfl, last⟩ := List.append_inj' split rfl
    obtain rfl : x = y := by simpa using last
    exact dup

end Acker

end Saps.Tcp
