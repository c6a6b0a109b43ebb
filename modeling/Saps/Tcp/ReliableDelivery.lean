import Saps.Tcp.LossyConnection

/-!
# Reliable delivery

What holds of the two ends of a connection whatever the network loses,
duplicates, delays and reorders.
-/
namespace Saps.Tcp

/-! ### A lawful scoreboard -/

namespace SackedSegments

theorem mem_numbers {left right s : Int} : s ∈ numbers left right ↔ left ≤ s ∧ s < right := by
  simp only [numbers, List.mem_map, List.mem_range]
  constructor
  · rintro ⟨offset, inside, rfl⟩
    omega
  · rintro ⟨low, high⟩
    exact ⟨(s - left).toNat, by omega, by omega⟩

theorem least_mem (holes : List Int) (least : Int) :
    holes.foldl (fun least s => if least = -1 ∨ s < least then s else least) least = least ∨
      holes.foldl (fun least s => if least = -1 ∨ s < least then s else least) least ∈ holes := by
  induction holes generalizing least with
  | nil => exact .inl rfl
  | cons s holes ih =>
    rw [List.foldl_cons]
    rcases ih (if least = -1 ∨ s < least then s else least) with same | later
    · rw [same]
      split
      · exact .inr List.mem_cons_self
      · exact .inl rfl
    · exact .inr (List.mem_cons_of_mem _ later)

theorem nextHole_inside {b : SackedSegments} {n : Int} (started : -1 ≤ b.lastAck)
    (below : ∀ s ∈ b.segments, s < n) :
    b.nextHole = -1 ∨ 0 ≤ b.nextHole ∧ b.nextHole < n := by
  simp only [nextHole]
  generalize found : List.foldl _ (-1) _ = hole
  rcases least_mem _ (-1) with none | inside
  · exact .inl (found.symm.trans none)
  · rw [found] at inside
    obtain ⟨range, -⟩ := List.mem_filter.mp inside
    obtain ⟨top, segment, range⟩ := List.mem_flatMap.mp range
    obtain ⟨low, high⟩ := mem_numbers.mp range
    have last := below top segment
    exact .inr ⟨by omega, by omega⟩

end SackedSegments

def segmentBoard_laws : segmentBoard.Laws where
  Below b n := -1 ≤ b.lastAck ∧ ∀ s ∈ b.segments, s < n
  empty n := ⟨le_refl _, nofun⟩
  clear b n := ⟨le_refl _, nofun⟩
  mono below le := ⟨below.1, fun s member => (below.2 s member).trans_le le⟩
  update := by
    rintro b n lastAck ack ⟨-, below⟩ started blocks
    refine ⟨started, fun s member => ?_⟩
    rcases List.mem_append.mp member with old | new
    · exact below s old
    · obtain ⟨reported, -⟩ := List.mem_filter.mp new
      obtain ⟨block, listed, inside⟩ := List.mem_flatMap.mp reported
      exact (SackedSegments.mem_numbers.mp inside).2.trans_le (blocks block listed)
  markRetran seqno below := below
  getNextRetran below := below
  hole below := SackedSegments.nextHole_inside below.1 below.2
  news none := by simp [segmentBoard, SackedSegments.update, none]

theorem dctcpSetup_plain : dctcpSetup.Plain where
  wnd := by norm_num [dctcpSetup]
  size := by norm_num [dctcpSetup]
  baseHdrSize := by norm_num [dctcpSetup]
  tsOptionSize := by norm_num [dctcpSetup]
  partialAck := rfl
  sfrtoEnabled := rfl
  maxConnects := by norm_num [dctcpSetup]

/-! ### A run to look at -/

/-- Packets 1 and 2 arrive in the wrong order, 1 arrives twice, and an ACK arrives late. -/
def disturbed : List Delivery :=
  [.senderActs ⟨0, .advanceby 4, 20⟩, .dataArrives 0 0 false, .ackArrives 0 0 20,
    .dataArrives 2 0 true, .dataArrives 1 0 false, .dataArrives 1 0 false, .ackArrives 2 0 20,
    .ackArrives 1 0 20, .dataArrives 3 0 false, .dataArrives 4 0 false, .ackArrives 5 0 20]

/-- After the last event the application is idle. -/
def disturbedEvents (k : Nat) : Delivery := disturbed.getD k (.senderActs ⟨0, .advanceby 0, 20⟩)

theorem disturbedEvents_grow (k : Nat) : (disturbedEvents k).Grows := by
  rw [disturbedEvents, List.getD_eq_getElem?_getD]
  cases event : disturbed[k]? with
  | none => exact le_refl (0 : Int)
  | some e =>
    have member : e ∈ disturbed := List.mem_of_getElem? event
    simp only [disturbed, List.mem_cons, List.not_mem_nil, or_false] at member
    rcases member with rfl | rfl | rfl | rfl | rfl | rfl | rfl | rfl | rfl | rfl | rfl
    · exact (by decide : (0 : Int) ≤ 4)
    all_goals trivial

/-! ### Results -/

variable {σ : Type} (S : Setup σ) (K : SinkConfig) (nblocks : Int) (events : Nat → Delivery)

/-- The sender leaves no gap: the numbers it has sent are those from 0 to `maxseq_`. All of them
belong to the data handed over, and none was beyond the advertised window. -/
theorem sent_contiguous (laws : S.board.Laws) (plain : S.Plain) (positive : 0 < nblocks)
    (grows : ∀ j, (events j).Grows) (k : Nat) (c : LossyConnection σ)
    (reached : lossyAt S K nblocks events k = .ok c) :
    (∀ n, (∃ p ∈ sentPackets c.agent.entries, p.seqno = n) ↔ 0 ≤ n ∧ n ≤ c.agent.maxseq) ∧
      ∀ p ∈ sentPackets c.agent.entries,
        p.seqno < c.agent.curseq ∧ (p.seqno : ℚ) ≤ c.agent.highestAck + S.wnd := by
  have faithful : c.Faithful laws := lossyAt_faithful S K plain positive grows reached
  have orderly := faithful.orderly
  refine ⟨fun n => ⟨?_, fun inside => orderly.contiguous n inside.1 inside.2⟩, fun p sent => ?_⟩
  · rintro ⟨p, sent, rfl⟩
    obtain ⟨low, high, -⟩ := orderly.numbers p sent
    exact ⟨low, high⟩
  · obtain ⟨low, high, -⟩ := orderly.numbers p sent
    have high : p.seqno ≤ c.agent.maxseq := high
    have data : c.agent.maxseq < c.agent.curseq ∨ c.agent.maxseq = -1 := orderly.data
    have window : (c.agent.maxseq : ℚ) ≤ c.agent.highestAck + S.wnd := orderly.window
    have cast : (p.seqno : ℚ) ≤ c.agent.maxseq := by exact_mod_cast high
    exact ⟨by omega, cast.trans window⟩

theorem sent_contiguous_disturbed : ∃ c, lossyAt dctcpSetup {} 3 disturbedEvents 11 = .ok c ∧
    c.agent.maxseq = 4 ∧
    (∀ n, (∃ p ∈ sentPackets c.agent.entries, p.seqno = n) ↔ 0 ≤ n ∧ n ≤ c.agent.maxseq) ∧
      ∀ p ∈ sentPackets c.agent.entries,
        p.seqno < c.agent.curseq ∧ (p.seqno : ℚ) ≤ c.agent.highestAck + 1000000 := by
  obtain ⟨c, reached, last⟩ := DrivenRun.exists_of_any
    (x := lossyAt dctcpSetup {} 3 disturbedEvents 11)
    (p := fun c => decide (c.agent.maxseq = 4)) (by decide +kernel)
  exact ⟨c, reached, of_decide_eq_true last, sent_contiguous dctcpSetup {} 3 disturbedEvents
    segmentBoard_laws dctcpSetup_plain (by decide) disturbedEvents_grow 11 c reached⟩

/-- What is acknowledged has been delivered in order, and the sink never holds a packet that the
advertised window behind what it delivered does not cover. -/
theorem acknowledged_delivered (laws : S.board.Laws) (plain : S.Plain) (positive : 0 < nblocks)
    (grows : ∀ j, (events j).Grows) (k : Nat) (c : LossyConnection σ)
    (reached : lossyAt S K nblocks events k = .ok c) :
    c.agent.highestAck < c.next ∧
      (∀ n, 0 ≤ n → n ≤ c.agent.highestAck → c.Arrived n) ∧
      ∀ n, c.Arrived n → (n : ℚ) < c.next + S.wnd := by
  have faithful : c.Faithful laws := lossyAt_faithful S K plain positive grows reached
  have behind := faithful.behind
  refine ⟨behind, fun n low high => faithful.arrived low (by omega), fun n arrived => ?_⟩
  have last : (n : ℚ) ≤ c.agent.maxseq := by exact_mod_cast (faithful.arrived_le arrived).2
  have window : (c.agent.maxseq : ℚ) ≤ c.agent.highestAck + S.wnd := faithful.orderly.window
  have acked : (c.agent.highestAck : ℚ) < c.next := by exact_mod_cast behind
  linarith

/-- With packet 2 ahead of packet 1. -/
theorem acknowledged_delivered_disturbed : ∃ c,
    lossyAt dctcpSetup {} 3 disturbedEvents 4 = .ok c ∧ c.next = 1 ∧
      c.sink.sacker.acker.maxseen = 2 ∧ c.agent.highestAck < c.next ∧
      (∀ n, 0 ≤ n → n ≤ c.agent.highestAck → c.Arrived n) ∧
      ∀ n, c.Arrived n → (n : ℚ) < c.next + 1000000 := by
  obtain ⟨c, reached, last⟩ := DrivenRun.exists_of_any
    (x := lossyAt dctcpSetup {} 3 disturbedEvents 4)
    (p := fun c => decide (c.next = 1) && decide (c.sink.sacker.acker.maxseen = 2))
    (by decide +kernel)
  simp only [Bool.and_eq_true, decide_eq_true_eq] at last
  exact ⟨c, reached, last.1, last.2, acknowledged_delivered dctcpSetup {} 3 disturbedEvents
    segmentBoard_laws dctcpSetup_plain (by decide) disturbedEvents_grow 4 c reached⟩

/-- When the sender calls `finish()`, everything the application has handed over so far has been
delivered in order at the other end. -/
theorem closed_delivered (laws : S.board.Laws) (plain : S.Plain) (positive : 0 < nblocks)
    (grows : ∀ j, (events j).Grows) (k : Nat) (c d : LossyConnection σ)
    (reached : lossyAt S K nblocks events k = .ok c)
    (after : lossyAt S K nblocks events (k + 1) = .ok d) (before : c.agent.closed = false)
    (closed : d.agent.closed = true) : d.agent.curseq ≤ d.next := by
  have faithful : c.Faithful laws := lossyAt_faithful S K plain positive grows reached
  have arrived : d.Faithful laws := lossyAt_faithful S K plain positive grows after
  have behind := arrived.behind
  obtain ⟨b, o, same, answer⟩ := DrivenRun.stateAt_succ_iff.mp after
  cases same.symm.trans reached
  have stepped := DrivenRun.map_unit_eq_ok.mp answer
  have finished (stimulus : Stimulus) (agent : Agent σ) (last : d.agent = agent)
      (honest : stimulus.Honest c.agent.maxseq) (path : Moves S stimulus c.agent agent) :
      d.agent.curseq ≤ d.next := by
    subst last
    have done := path.closes plain honest faithful.orderly before closed
    have done : d.agent.curseq - 1 ≤ d.agent.highestAck := done
    omega
  cases event : events k with
  | senderActs i =>
    rw [event] at stepped
    obtain ⟨agent, rfl, responded, noAck⟩ := LossyConnection.senderActs_ok stepped
    have grow := grows k
    rw [event] at grow
    exact finished i.stimulus agent rfl ⟨grow, fun ack heard => absurd heard (noAck ack)⟩
      (respond_moves responded)
  | dataArrives index now ce =>
    -- a packet at the sink closes nothing
    rw [event] at stepped
    obtain ⟨packet, sink, ack, -, -, rfl⟩ := LossyConnection.dataArrives_ok stepped
    exact absurd (before.symm.trans closed) Bool.false_ne_true
  | ackArrives index now turns =>
    rw [event] at stepped
    obtain ⟨ack, agent, sent, rfl, responded⟩ := LossyConnection.ackArrives_ok stepped
    have honest := faithful.honest (faithful.truthful ack (List.mem_of_getElem? sent))
    exact finished (.ack ack) agent rfl (Stimulus.honest_ack honest) (respond_moves responded)

theorem closed_delivered_disturbed : ∃ c d,
    lossyAt dctcpSetup {} 3 disturbedEvents 10 = .ok c ∧
      lossyAt dctcpSetup {} 3 disturbedEvents 11 = .ok d ∧ c.agent.closed = false ∧
      d.agent.closed = true ∧ d.agent.curseq = 5 ∧ d.agent.curseq ≤ d.next := by
  obtain ⟨c, reached, open_⟩ := DrivenRun.exists_of_any
    (x := lossyAt dctcpSetup {} 3 disturbedEvents 10)
    (p := fun c => decide (c.agent.closed = false)) (by decide +kernel)
  obtain ⟨d, after, last⟩ := DrivenRun.exists_of_any
    (x := lossyAt dctcpSetup {} 3 disturbedEvents 11)
    (p := fun d => decide (d.agent.closed = true) && decide (d.agent.curseq = 5))
    (by decide +kernel)
  simp only [Bool.and_eq_true, decide_eq_true_eq] at last open_
  exact ⟨c, d, reached, after, open_, last.1, last.2, closed_delivered dctcpSetup {} 3
    disturbedEvents segmentBoard_laws dctcpSetup_plain (by decide) disturbedEvents_grow 10 c d
    reached after open_ last.1⟩

end Saps.Tcp
