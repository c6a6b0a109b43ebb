import Mathlib.Tactic.Linarith
import Mathlib.Tactic.SplitIfs
import Saps.Library.DrivenRun
import Saps.Script.FlowConservation

/-!
# What a finished flow writes

`done` writes the record of a flow that has just ended. It knows in which of the five states
of a failure the flow ended, and which flows are mice. The log that it writes is one that the
flow statistics conserve.
-/
namespace Saps.Script

/-- What `done` reads of the sender. -/
structure FinishedFlow where
  starts : ℚ
  ndatabytes : Int
  nrexmitbytes : Int
  ncwndcuts1 : Int
  nrexmit : Int
  isElephant : Int
  nrexmitpack : Int
  fromFailedLeaf : Int
  necnresponses : Int
  selectiveSpraying : Int
  poorPathFlow : Int
  toFailedLeaf : Int
  northSouthFlow : Int
  originallyHashed : Int
  intraRackFlow : Int
  size : ℚ
  realisticFailure : Int
  failureCase : Int
  failureStartTime : ℚ
  failureDetectionDelay : ℚ
  failureDuration : ℚ
deriving DecidableEq

namespace FinishedFlow

open FlowStatistics

def flowEndState (f : FinishedFlow) (now : ℚ) : Int :=
  if f.realisticFailure = 1 ∧ (f.failureCase = 1 ∨ f.failureCase = 2) then
    -- `endBeforeFailure`
    if now < f.failureStartTime then 0
    -- `endAfterFailureOccurred`
    else if now < f.failureStartTime + f.failureDetectionDelay then 1
    -- `endAfterFailureDetected`; a failure without a duration is never fixed
    else if f.failureDuration = 0 then 2
    else if now < f.failureStartTime + f.failureDuration then 2
    -- `endAfterFailureFixed`
    else if now < f.failureStartTime + f.failureDuration + f.failureDetectionDelay then 3
    -- `endAfterRestorationDetected`
    else 4
  else 0

def tinyMice (tinyMiceThresh : ℚ) (f : FinishedFlow) : Int :=
  if f.isElephant = 0 ∧ f.size / 1000 < tinyMiceThresh then 1 else 0

/-- The record, unless the flow took no time: then `expr` fails. -/
def done (tinyMiceThresh now : ℚ) (f : FinishedFlow) : Except Fault FlowRecord := do
  let duration := now - f.starts
  let throughput ← divide f.ndatabytes duration
  return {
    duration
    dataBytes := f.ndatabytes
    rexmitBytes := f.nrexmitbytes
    throughput
    cwndCuts1 := f.ncwndcuts1
    rexmit := f.nrexmit
    isElephant := f.isElephant
    rexmitPkts := f.nrexmitpack
    fromFailedLeaf := f.fromFailedLeaf
    necnResponses := f.necnresponses
    selectiveSpraying := f.selectiveSpraying
    poorPathFlow := f.poorPathFlow
    flowEndState := f.flowEndState now
    tinyMice := f.tinyMice tinyMiceThresh
    toFailedLeaf := f.toFailedLeaf
    northSouthFlow := f.northSouthFlow
    originallyHashed := f.originallyHashed
    intraRackFlow := f.intraRackFlow
    size := f.size }

/-- The log of flows that finish one after the other, each with the time of its end. -/
def logOf (tinyMiceThresh : ℚ) (flows : List (ℚ × FinishedFlow)) : Except Fault (List FlowRecord) :=
  flows.mapM fun flow => flow.2.done tinyMiceThresh flow.1

variable {f : FinishedFlow} {now tinyMiceThresh : ℚ} {r : FlowRecord}
variable {flows : List (ℚ × FinishedFlow)} {log : List FlowRecord}

theorem flowEndState_range (f : FinishedFlow) (now : ℚ) :
    0 ≤ f.flowEndState now ∧ f.flowEndState now ≤ 4 := by
  unfold flowEndState
  split_ifs <;> decide

theorem tinyMice_short (tiny : f.tinyMice tinyMiceThresh = 1) : f.isElephant = 0 := by
  unfold tinyMice at tiny
  split at tiny
  next short => exact short.1
  next => cases tiny

/-- A record is written for a flow that took some time. -/
theorem done_ok (took : now ≠ f.starts) : ∃ r, f.done tinyMiceThresh now = .ok r := by
  have nonzero : now - f.starts ≠ 0 := sub_ne_zero.mpr took
  rw [done, divide_ok nonzero]
  exact ⟨_, rfl⟩

/-- What the flow statistics rely on of a record. -/
theorem of_done (written : f.done tinyMiceThresh now = .ok r) :
    r.duration ≠ 0 ∧ (0 ≤ r.flowEndState ∧ r.flowEndState ≤ 4) ∧
      (r.tinyMice = 1 → r.isElephant = 0) := by
  -- without a duration nothing is written
  by_cases zero : now - f.starts = 0
  · rw [done, zero, divide_zero] at written
    cases written
  · rw [done, divide_ok zero] at written
    cases written
    exact ⟨zero, flowEndState_range f now, tinyMice_short⟩

theorem of_mem_logOf (written : logOf tinyMiceThresh flows = .ok log) (member : r ∈ log) :
    ∃ now f, (now, f) ∈ flows ∧ f.done tinyMiceThresh now = .ok r := by
  induction flows generalizing log with
  | nil =>
    cases written
    cases member
  | cons flow flows ih =>
    rw [logOf, List.mapM_cons] at written
    obtain ⟨record, first, rest⟩ := DrivenRun.bind_eq_ok.mp written
    obtain ⟨records, tail, all⟩ := DrivenRun.bind_eq_ok.mp rest
    cases all
    rcases List.mem_cons.mp member with rfl | later
    · exact ⟨flow.1, flow.2, List.mem_cons_self, first⟩
    · obtain ⟨now, f, listed, wrote⟩ := ih tail later
      exact ⟨now, f, List.mem_cons_of_mem _ listed, wrote⟩

/-- The statistics of every log that finished flows have written are conserved. -/
theorem conserved_logOf (written : logOf tinyMiceThresh flows = .ok log) :
    ∃ t, process log = .ok t ∧ Conserved log t := by
  have wrote : ∀ r ∈ log, r.duration ≠ 0 ∧ (0 ≤ r.flowEndState ∧ r.flowEndState ≤ 4) := by
    intro r member
    obtain ⟨now, f, -, done⟩ := of_mem_logOf written member
    exact ⟨(of_done done).1, (of_done done).2.1⟩
  refine ⟨.of log, process_ok_iff.mpr ⟨?_, rfl⟩, conserved_of fun r member => (wrote r member).2⟩
  exact fun r member _ => (wrote r member).1

end FinishedFlow

end Saps.Script
