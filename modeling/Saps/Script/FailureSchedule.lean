import Mathlib.Data.List.Sort
import Saps.Script.Done
import Saps.Spray.Config

/-!
# A failure in the middle of a run

The commands with which the script degrades or cuts links while a simulation runs, and mends
them, and what they make of a link. The senders and the records of the flows have their own
clocks for the same failure.
-/
namespace Saps.Script

/-- An uplink of a leaf switch, by its ends. -/
structure Uplink where
  leaf : Int
  spine : Int
deriving DecidableEq, Repr

/-- What the script knows of the failure; times are in seconds and bandwidths in megabits. The
bandwidths are given with a decimal point, so that `expr` does not divide them as integers. -/
structure FailureSettings where
  realisticFailure : Int
  failureCase : Int
  failureStartTime : ℚ
  failureDuration : ℚ
  failureDetectionDelay : ℚ
  putFailedLinkDown : Int
  multipleFailure : Int
  failureRatio : ℚ
  bwTorAgg : ℚ
  failed : Uplink
  secondFailed : Uplink
deriving Repr

inductive LinkCommand where
  | bandwidth (mbps : ℚ)
  | down
  | up
deriving DecidableEq, Repr

/-- A command to one link, with the time for which it is scheduled. -/
structure Scheduled where
  time : ℚ
  link : Uplink
  command : LinkCommand
deriving DecidableEq, Repr

structure LinkState where
  mbps : ℚ
  up : Bool
deriving DecidableEq, Repr

def LinkCommand.apply (command : LinkCommand) (link : LinkState) : LinkState :=
  match command with
  | .bandwidth mbps => { link with mbps }
  | .down => { link with up := false }
  | .up => { link with up := true }

namespace FailureSettings

variable (s : FailureSettings)

/-- The command to the failed link, and to the second one if there are several failures. -/
def toBoth (time : ℚ) (command : LinkCommand) : List Scheduled :=
  ⟨time, s.failed, command⟩ ::
    if s.multipleFailure = 1 then [⟨time, s.secondFailed, command⟩] else []

/-- The commands of the script, in the order in which it schedules them. -/
def schedule : Except Fault (List Scheduled) :=
  let restored := s.failureStartTime + s.failureDuration
  if s.realisticFailure = 1 then
    if s.failureCase = 1 then do
      let degraded ← divide s.bwTorAgg s.failureRatio
      pure (s.toBoth s.failureStartTime (.bandwidth degraded) ++
        if s.failureDuration > 0 then s.toBoth restored (.bandwidth s.bwTorAgg) else [])
    else if s.failureCase = 2 then
      if s.putFailedLinkDown = 1 then
        pure (s.toBoth s.failureStartTime .down ++
          if s.failureDuration > 0 then s.toBoth restored .up else [])
      else
        -- almost no bandwidth, and for the first link only
        pure (⟨s.failureStartTime, s.failed, .bandwidth (1 / 1000000)⟩ ::
          if s.failureDuration > 0 then [⟨restored, s.failed, .bandwidth s.bwTorAgg⟩] else [])
    else pure []
  else pure []

/-- The bandwidth with which a link is made. -/
def made (link : Uplink) : Except Fault ℚ :=
  if link = s.failed ∧ s.realisticFailure = 0 ∧ s.failureCase = 1 then
    divide s.bwTorAgg s.failureRatio
  else pure s.bwTorAgg

end FailureSettings

/-- The commands up to a time in the order in which they run: commands for the same time run in the
order in which they were scheduled. -/
def executed (commands : List Scheduled) (now : ℚ) : List Scheduled :=
  (commands.insertionSort fun a b => a.time ≤ b.time).filter fun c => decide (c.time ≤ now)

/-- A link after a list of commands, some of which are for other links. -/
def after (link : Uplink) (start : LinkState) (commands : List Scheduled) : LinkState :=
  commands.foldl (fun st c => if link = c.link then c.command.apply st else st) start

namespace FailureSettings

variable (s : FailureSettings)

/-- What a link is like at a time of the run. -/
def linkAt (link : Uplink) (now : ℚ) : Except Fault LinkState := do
  let mbps ← s.made link
  let commands ← s.schedule
  pure (after link ⟨mbps, true⟩ (executed commands now))

/-- The failure has begun and is not yet mended. -/
def Failing (now : ℚ) : Prop :=
  s.failureStartTime ≤ now ∧
    (s.failureDuration ≤ 0 ∨ now < s.failureStartTime + s.failureDuration)

instance (now : ℚ) : Decidable (s.Failing now) := inferInstanceAs (Decidable (_ ∧ _))

/-- The links that fail. A second one is left out if the first one only loses its bandwidth in a
full failure. -/
def Fails (link : Uplink) : Prop :=
  link = s.failed ∨
    s.multipleFailure = 1 ∧ link = s.secondFailed ∧ (s.failureCase = 1 ∨ s.putFailedLinkDown = 1)

instance (link : Uplink) : Decidable (s.Fails link) := inferInstanceAs (Decidable (_ ∨ _))

def whole : LinkState := ⟨s.bwTorAgg, true⟩

/-- What a link is like while it has failed. -/
def broken : LinkState :=
  if s.failureCase = 1 then ⟨s.bwTorAgg / s.failureRatio, true⟩
  else if s.putFailedLinkDown = 1 then ⟨s.bwTorAgg, false⟩
  else ⟨1 / 1000000, true⟩

/-- Failures happen while the run is on. -/
structure OnTheRun : Prop where
  realistic : s.realisticFailure = 1
  failureCase : s.failureCase = 1 ∨ s.failureCase = 2
  ratio : s.failureRatio ≠ 0
  duration : 0 ≤ s.failureDuration
  delay : 0 ≤ s.failureDetectionDelay

end FailureSettings

/-! ### What the commands make of a link -/

section

variable {first rest : List Scheduled} {start stop now : ℚ} {link : Uplink} {st : LinkState}

/-- Two groups of commands, each for one time. -/
theorem executed_append (begins : ∀ c ∈ first, c.time = start) (ends : ∀ c ∈ rest, c.time = stop)
    (ordered : start ≤ stop) :
    executed (first ++ rest) now =
      (if start ≤ now then first else []) ++ if stop ≤ now then rest else [] := by
  have sorted : (first ++ rest).Pairwise fun a b => a.time ≤ b.time := by
    refine List.pairwise_append.mpr ⟨?_, ?_, ?_⟩
    · exact List.pairwise_of_forall_mem_list fun a left b right =>
        ((begins a left).trans (begins b right).symm).le
    · exact List.pairwise_of_forall_mem_list fun a left b right =>
        ((ends a left).trans (ends b right).symm).le
    · intro a left b right
      rw [begins a left, ends b right]
      exact ordered
  have group : ∀ {commands : List Scheduled} {time : ℚ}, (∀ c ∈ commands, c.time = time) →
      commands.filter (fun c => decide (c.time ≤ now)) = if time ≤ now then commands else [] := by
    intro commands time same
    split_ifs with due
    · exact List.filter_eq_self.mpr fun c member => decide_eq_true ((same c member).trans_le due)
    · refine List.filter_eq_nil_iff.mpr fun c member => ?_
      rw [same c member, decide_eq_true_eq]
      exact due
  rw [executed, List.Pairwise.insertionSort_eq sorted, List.filter_append, group begins, group ends]

theorem after_append :
    after link st (first ++ rest) = after link (after link st first) rest :=
  List.foldl_append

end

namespace FailureSettings

variable {s : FailureSettings} {link : Uplink} {st : LinkState} {time : ℚ} {command : LinkCommand}

theorem toBoth_time {c : Scheduled} (member : c ∈ s.toBoth time command) : c.time = time := by
  simp only [toBoth] at member
  split at member
  · rcases List.mem_cons.mp member with rfl | member
    · rfl
    · rw [List.mem_singleton.mp member]
  · rw [List.mem_singleton.mp member]

theorem after_toBoth (again : ∀ st, command.apply (command.apply st) = command.apply st) :
    after link st (s.toBoth time command) =
      if link = s.failed ∨ s.multipleFailure = 1 ∧ link = s.secondFailed then command.apply st
      else st := by
  simp only [toBoth, after, List.foldl_cons]
  split_ifs with first several several both
  -- the first link may be the second one too
  all_goals simp_all

theorem linkAt_of_schedule {breaks mends : List Scheduled} (run : s.OnTheRun) (now : ℚ)
    (scheduled : s.schedule = .ok (breaks ++ if s.failureDuration > 0 then mends else []))
    (begins : ∀ c ∈ breaks, c.time = s.failureStartTime)
    (ends : ∀ c ∈ mends, c.time = s.failureStartTime + s.failureDuration)
    (breaking : after link s.whole breaks = if s.Fails link then s.broken else s.whole)
    (mending : after link (if s.Fails link then s.broken else s.whole) mends = s.whole) :
    s.linkAt link now = .ok (if s.Failing now ∧ s.Fails link then s.broken else s.whole) := by
  have made : s.made link = .ok s.bwTorAgg := by
    rw [FailureSettings.made, if_neg]
    · rfl
    · rintro ⟨-, static, -⟩
      exact absurd (static.symm.trans run.realistic) (by decide)
  have later : s.failureStartTime ≤ s.failureStartTime + s.failureDuration := by
    linarith [run.duration]
  have state : s.linkAt link now = .ok (after link s.whole
      (executed (breaks ++ if s.failureDuration > 0 then mends else []) now)) := by
    rw [linkAt, made, scheduled]
    rfl
  have mended : ∀ c ∈ if s.failureDuration > 0 then mends else [],
      c.time = s.failureStartTime + s.failureDuration := by
    intro c member
    split at member
    · exact ends c member
    · cases member
  rw [state, executed_append begins mended later, after_append]
  congr 1
  by_cases begun : s.failureStartTime ≤ now
  · by_cases lasts : s.failureDuration > 0
    · by_cases restored : s.failureStartTime + s.failureDuration ≤ now
      · have passed : ¬ (s.Failing now ∧ s.Fails link) := fun failing =>
          failing.1.2.elim lasts.not_ge restored.not_gt
        rw [if_pos begun, if_pos restored, if_pos lasts, if_neg passed, breaking, mending]
      · have failing : s.Failing now := ⟨begun, .inr (not_le.mp restored)⟩
        rw [if_pos begun, if_neg restored, breaking]
        simp [failing, after]
    · have failing : s.Failing now := ⟨begun, .inl (not_lt.mp lasts)⟩
      rw [if_pos begun, if_neg lasts, ite_self, breaking]
      simp [failing, after]
  · have early : ¬ (s.Failing now ∧ s.Fails link) := fun failing => begun failing.1.1
    rw [if_neg begun, if_neg fun due => begun (later.trans due), if_neg early]
    rfl

/-- While it has failed a link is broken, and before and behind that it is as it was made. -/
theorem linkAt_eq (run : s.OnTheRun) (link : Uplink) (now : ℚ) :
    s.linkAt link now = .ok (if s.Failing now ∧ s.Fails link then s.broken else s.whole) := by
  -- both links get a command that breaks them and one that mends them
  have both : ∀ breaking mending : LinkCommand,
      (∀ st, breaking.apply (breaking.apply st) = breaking.apply st) →
      (∀ st, mending.apply (mending.apply st) = mending.apply st) →
      breaking.apply s.whole = s.broken → mending.apply s.broken = s.whole →
      mending.apply s.whole = s.whole → (s.failureCase = 1 ∨ s.putFailedLinkDown = 1) →
      s.schedule = .ok (s.toBoth s.failureStartTime breaking ++
        if s.failureDuration > 0 then
          s.toBoth (s.failureStartTime + s.failureDuration) mending
        else []) →
      s.linkAt link now = .ok (if s.Failing now ∧ s.Fails link then s.broken else s.whole) := by
    intro breaking mending idem idem' breaks mends keeps kind scheduled
    have fails : s.Fails link ↔
        link = s.failed ∨ s.multipleFailure = 1 ∧ link = s.secondFailed := by
      simp [Fails, kind]
    refine linkAt_of_schedule run now scheduled (fun c => toBoth_time) (fun c => toBoth_time) ?_ ?_
    · rw [after_toBoth idem, breaks]
      simp only [fails]
    · rw [after_toBoth idem']
      simp only [fails]
      split_ifs
      · exact mends
      · rfl
  rcases run.failureCase with partly | fully
  · refine both (.bandwidth (s.bwTorAgg / s.failureRatio)) (.bandwidth s.bwTorAgg) (fun _ => rfl)
      (fun _ => rfl) ?_ ?_ rfl (.inl partly) ?_
    · simp [LinkCommand.apply, whole, broken, partly]
    · simp [LinkCommand.apply, whole, broken, partly]
    · simp [schedule, run.realistic, partly, divide_ok run.ratio]
  by_cases down : s.putFailedLinkDown = 1
  · refine both .down .up (fun _ => rfl) (fun _ => rfl) ?_ ?_ rfl (.inr down) ?_
    · simp [LinkCommand.apply, whole, broken, fully, down]
    · simp [LinkCommand.apply, whole, broken, fully, down]
    · simp [schedule, run.realistic, fully, down, pure, Except.pure]
  · -- only the first link gets any
    have fails : s.Fails link ↔ link = s.failed := by simp [Fails, fully, down]
    have scheduled : s.schedule =
        .ok ([⟨s.failureStartTime, s.failed, .bandwidth (1 / 1000000)⟩] ++
          if s.failureDuration > 0 then
            [⟨s.failureStartTime + s.failureDuration, s.failed, .bandwidth s.bwTorAgg⟩]
          else []) := by
      simp [schedule, run.realistic, fully, down]
      rfl
    refine linkAt_of_schedule run now scheduled (by simp) (by simp) ?_ ?_
    · simp [after, LinkCommand.apply, fails, broken, fully, down, whole]
    · simp only [after, List.foldl_cons, List.foldl_nil, fails]
      split_ifs
      · simp [LinkCommand.apply, broken, fully, down, whole]
      · rfl

/-! ### The clocks of the senders -/

/-- A sender that the script has told of the failure, and the flow it writes down in the end. -/
structure Told (s : FailureSettings) (cfg : Spray.SprayConfig) (f : FinishedFlow) : Prop where
  realistic : cfg.realisticFailure = true
  failureCase : cfg.failureCase = s.failureCase
  timing : cfg.timing = ⟨s.failureStartTime, s.failureDuration, s.failureDetectionDelay⟩
  flowRealistic : f.realisticFailure = s.realisticFailure
  flowCase : f.failureCase = s.failureCase
  flowStart : f.failureStartTime = s.failureStartTime
  flowDuration : f.failureDuration = s.failureDuration
  flowDelay : f.failureDetectionDelay = s.failureDetectionDelay

variable {cfg : Spray.SprayConfig} {f : FinishedFlow} {now : ℚ}

/-- A sender sees the failure as it was a detection delay ago, but for the very first instant. -/
theorem detected_iff (run : s.OnTheRun) (told : Told s cfg f) :
    cfg.failureDetected now = true ↔ s.Failing (now - s.failureDetectionDelay) ∧
      now ≠ s.failureStartTime + s.failureDetectionDelay := by
  have duration := run.duration
  have cases : cfg.failureCase ≠ 0 := by
    rw [told.failureCase]
    rcases run.failureCase with part | full <;> omega
  simp only [Spray.SprayConfig.failureDetected, told.realistic, told.timing, cases,
    Bool.and_eq_true, Bool.or_eq_true, decide_eq_true_eq, true_and, ne_eq, not_false_eq_true,
    Failing]
  constructor
  · rintro ⟨begun, lasts⟩
    refine ⟨⟨by linarith, ?_⟩, begun.ne'⟩
    rcases lasts with endless | ⟨-, before⟩
    · exact .inl endless.le
    · exact .inr (by linarith)
  · rintro ⟨⟨begun, lasts⟩, later⟩
    refine ⟨lt_of_le_of_ne (by linarith) (Ne.symm later), ?_⟩
    rcases duration.eq_or_lt with endless | positive
    · exact .inl endless.symm
    · refine .inr ⟨positive, ?_⟩
      have before := lasts.resolve_left positive.not_ge
      linarith

/-- The state that a flow writes down when it ends tells the failure and the senders' view of it,
but for that first instant and for a failure that was mended before it was ever detected. -/
theorem flowEndState_tells (run : s.OnTheRun) (told : Told s cfg f) :
    ((f.flowEndState now = 1 ∨ f.flowEndState now = 2 ↔ s.Failing now) ∧
      (f.flowEndState now = 2 ∨ f.flowEndState now = 3 ↔ cfg.failureDetected now = true)) ↔
      now ≠ s.failureStartTime + s.failureDetectionDelay ∧
        ¬ (0 < s.failureDuration ∧ s.failureStartTime + s.failureDuration ≤ now ∧
          now < s.failureStartTime + s.failureDetectionDelay) := by
  have duration := run.duration
  have delay := run.delay
  have state : f.flowEndState now =
      if now < s.failureStartTime then 0
      else if now < s.failureStartTime + s.failureDetectionDelay then 1
      else if s.failureDuration = 0 then 2
      else if now < s.failureStartTime + s.failureDuration then 2
      else if now < s.failureStartTime + s.failureDuration + s.failureDetectionDelay then 3
      else 4 := by
    rw [FinishedFlow.flowEndState, told.flowRealistic, told.flowCase, told.flowStart,
      told.flowDuration, told.flowDelay, if_pos ⟨run.realistic, run.failureCase⟩]
  rw [detected_iff run told, state]
  simp only [Failing]
  -- one case for each branch of the script
  split_ifs <;> norm_num <;> grind

/-- How the three clocks for one failure go together. -/
structure Clocks (s : FailureSettings) (cfg : Spray.SprayConfig) (f : FinishedFlow) : Prop where
  link : ∀ link now, s.linkAt link now =
    .ok (if s.Failing now ∧ s.Fails link then s.broken else s.whole)
  detected : ∀ now, cfg.failureDetected now = true ↔
    s.Failing (now - s.failureDetectionDelay) ∧
      now ≠ s.failureStartTime + s.failureDetectionDelay
  recorded : ∀ now,
    ((f.flowEndState now = 1 ∨ f.flowEndState now = 2 ↔ s.Failing now) ∧
      (f.flowEndState now = 2 ∨ f.flowEndState now = 3 ↔ cfg.failureDetected now = true)) ↔
      now ≠ s.failureStartTime + s.failureDetectionDelay ∧
        ¬ (0 < s.failureDuration ∧ s.failureStartTime + s.failureDuration ≤ now ∧
          now < s.failureStartTime + s.failureDetectionDelay)

/-- At any time of any run: what the commands have made of the links, what the senders detect and
what a flow that ends writes down are about the same failure. -/
theorem failure_clocks (run : s.OnTheRun) (told : Told s cfg f) : Clocks s cfg f where
  link := linkAt_eq run
  detected := fun _ => detected_iff run told
  recorded := fun _ => flowEndState_tells run told

/-- Two links lose nine tenths of their bandwidth for 1.8 seconds. -/
def twoLinksDegraded : FailureSettings where
  realisticFailure := 1
  failureCase := 1
  failureStartTime := 1 / 10
  failureDuration := 9 / 5
  failureDetectionDelay := 9 / 100
  putFailedLinkDown := 1
  multipleFailure := 1
  failureRatio := 10
  bwTorAgg := 10000
  failed := ⟨0, 0⟩
  secondFailed := ⟨3, 3⟩

def toldSender : Spray.SprayConfig :=
  (Spray.Fabric.sound 4 Spray.fourUplinks_pos).flow.withTiming ⟨1 / 10, 9 / 5, 9 / 100⟩

def toldFlow : FinishedFlow where
  starts := 1 / 20
  ndatabytes := 1460
  nrexmitbytes := 0
  ncwndcuts1 := 0
  nrexmit := 0
  isElephant := 0
  nrexmitpack := 0
  fromFailedLeaf := 1
  necnresponses := 0
  selectiveSpraying := 1
  poorPathFlow := 0
  toFailedLeaf := 0
  northSouthFlow := 0
  originallyHashed := 0
  intraRackFlow := 0
  size := 1460
  realisticFailure := 1
  failureCase := 1
  failureStartTime := 1 / 10
  failureDetectionDelay := 9 / 100
  failureDuration := 9 / 5

/-- In the middle of the failure the second link has what is left, and no other link has failed. -/
theorem failure_clocks_twoLinksDegraded :
    (twoLinksDegraded.linkAt ⟨3, 3⟩ 1 = .ok ⟨1000, true⟩ ∧
      twoLinksDegraded.linkAt ⟨0, 3⟩ 1 = .ok ⟨10000, true⟩) ∧
      Clocks twoLinksDegraded toldSender toldFlow :=
  ⟨⟨by decide +kernel, by decide +kernel⟩,
    failure_clocks ⟨rfl, .inl rfl, by decide +kernel, by decide +kernel, by decide +kernel⟩
      ⟨rfl, rfl, rfl, rfl, rfl, rfl, rfl, rfl⟩⟩

end FailureSettings

end Saps.Script
