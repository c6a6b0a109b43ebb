import Saps.Tcp.ReliableDelivery
import Saps.Tcp.WindowFrame

/-!
# The congestion window is earned

Whatever the network does, the window never exceeds the first one by more than the
packets that were delivered, and congestion signals never close it altogether.
-/
namespace Saps.Tcp

open Transfer

variable {σ : Type} {S : Setup σ} {a b : Agent σ}

/-- TCP's own way of growing, at most one packet for an ACK; the options that set the window in
other ways are off. -/
structure Setup.Standard (S : Setup σ) : Prop where
  wndInit : 1 ≤ S.wndInit
  binomial : S.wndOption ≠ .binomial
  highSpeed : S.wndOption ≠ .highSpeed
  increaseNum_nonneg : 0 ≤ S.increaseNum
  increaseNum_le : S.increaseNum ≤ 1
  decreaseNum_nonneg : 0 ≤ S.decreaseNum
  decreaseNum_le : S.decreaseNum ≤ 1
  maxcwnd : 0 ≤ S.maxcwnd
  frtoEnabled : S.frtoEnabled = false
  qsEnabled : S.qsEnabled = false
  dctcpG_nonneg : 0 ≤ S.dctcpG
  dctcpG_le : S.dctcpG ≤ 1
  dctcpAlpha_nonneg : 0 ≤ S.dctcpAlpha
  dctcpAlpha_le : S.dctcpAlpha ≤ 1

/-- No window that a connection starts with, or starts again with, is larger. -/
def firstWindow (S : Setup σ) : ℚ :=
  match S.wndInitOption with
  | .static => S.wndInit
  | .draft => max S.wndInit 4

theorem wndInit_le_firstWindow : S.wndInit ≤ firstWindow S := by
  simp only [firstWindow]
  cases S.wndInitOption with
  | static => exact le_refl _
  | draft => exact le_max_left _ _

/-- Windows that stay between one packet and a limit, with every option off that could set them in
another way. -/
structure Within (S : Setup σ) (limit : ℚ) (w : Windows) : Prop where
  cwnd_ge : 1 ≤ w.cwnd
  cwnd_le : w.cwnd ≤ limit
  capped : 0 < S.maxcwnd → w.cwnd < S.maxcwnd + 1 ∨ w.cwnd ≤ firstWindow S
  ssthresh : w.ssthresh = (fresh S).ssthresh ∨ 2 ≤ w.ssthresh ∧ (w.ssthresh : ℚ) ≤ max 2 limit
  decreaseNum_nonneg : 0 ≤ w.decreaseNum
  decreaseNum_le : w.decreaseNum ≤ 1
  wndInit_ge : 1 ≤ w.wndInit
  wndInit_le : w.wndInit ≤ S.wndInit
  draft : w.wndInitOption = .draft → S.wndInitOption = .draft
  frto : w.frto = 0
  qsWindow : w.qsWindow = 0
  qsCwnd : w.qsCwnd = 0

namespace Within

variable {limit : ℚ} {w : Windows}

theorem mono {more : ℚ} (within : Within S limit w) (le : limit ≤ more) : Within S more w :=
  { within with
    cwnd_le := within.cwnd_le.trans le
    ssthresh := within.ssthresh.imp_right fun cut =>
      ⟨cut.1, cut.2.trans (max_le_max_left 2 le)⟩ }

/-- A cut leaves a window of at least one packet and takes none away below it. -/
theorem cut {cwnd : ℚ} {ssthresh : Int} (within : Within S limit w)
    (cwnd_ge : 1 ≤ cwnd) (cwnd_le : cwnd ≤ max 1 w.cwnd) (ssthresh_ge : 2 ≤ ssthresh)
    (ssthresh_le : ssthresh = w.ssthresh ∨ (ssthresh : ℚ) ≤ max 2 w.cwnd) :
    Within S limit { w with cwnd, ssthresh } := by
  rw [max_eq_right within.cwnd_ge] at cwnd_le
  exact { within with
    cwnd_ge
    cwnd_le := cwnd_le.trans within.cwnd_le
    capped := fun bounded => (within.capped bounded).imp cwnd_le.trans_lt cwnd_le.trans
    ssthresh := by
      rcases ssthresh_le with same | le
      · rw [same]
        exact within.ssthresh
      · exact .inr ⟨ssthresh_ge, le.trans (max_le_max_left 2 within.cwnd_le)⟩ }

/-- The window of a connection that starts, or starts again. -/
theorem initialWindow (within : Within S limit a.windows) :
    1 ≤ initialWindow S a ∧ initialWindow S a ≤ firstWindow S := by
  have none : a.qsCwnd = 0 := within.qsCwnd
  simp only [Tcp.initialWindow, none, ne_eq, not_true_eq_false, ↓reduceIte]
  cases option : a.wndInitOption with
  | static => exact ⟨within.wndInit_ge, within.wndInit_le.trans wndInit_le_firstWindow⟩
  | draft =>
    have first : firstWindow S = max S.wndInit 4 := by
      simp only [firstWindow, within.draft option]
    have four : 4 ≤ firstWindow S := by
      rw [first]
      exact le_max_right _ _
    dsimp only
    split_ifs
    · exact ⟨by norm_num, four⟩
    · exact ⟨by norm_num, le_trans (by norm_num) four⟩
    · exact ⟨by norm_num, le_trans (by norm_num) four⟩

end Within

/-! ### Closing -/

theorem windowd_range (plain : S.Plain) (cwnd_ge : 1 ≤ a.cwnd) :
    1 ≤ windowd S a ∧ windowd S a ≤ a.cwnd := by
  have wnd := plain.wnd
  simp only [windowd]
  split
  next => exact ⟨cwnd_ge, le_refl _⟩
  next above => exact ⟨wnd, not_lt.mp above⟩

theorem window_range (plain : S.Plain) (cwnd_ge : 1 ≤ a.cwnd) (frto : a.frto = 0) :
    0 ≤ window S a ∧ (window S a : ℚ) ≤ windowd S a := by
  have nonneg : 0 ≤ windowd S a := le_trans (by norm_num) (windowd_range plain cwnd_ge).1
  have cast : window S a = toInt (windowd S a) := by
    simp only [window, windowd, frto]
    rw [if_neg (by decide)]
    split <;> rfl
  rw [cast]
  exact ⟨by rw [toInt_eq_floor nonneg]; exact Int.floor_nonneg.mpr nonneg, toInt_le nonneg⟩

/-- A window that is not negative and not above the one the cut found. -/
def NotAbove (a : Agent σ) (win : ℚ) : Prop := 0 ≤ win ∧ win ≤ a.cwnd

theorem NotAbove.toInt {win : ℚ} (notAbove : NotAbove a win) : NotAbove a (toInt win : Int) := by
  refine ⟨?_, (toInt_le notAbove.1).trans notAbove.2⟩
  rw [toInt_eq_floor notAbove.1]
  exact_mod_cast Int.floor_nonneg.mpr notAbove.1

/-- A fraction of a window is no larger window. -/
theorem NotAbove.scale {win share : ℚ} (notAbove : NotAbove a win) (nonneg : 0 ≤ share)
    (le : share ≤ 1) : NotAbove a (share * win) :=
  ⟨mul_nonneg nonneg notAbove.1,
    (mul_le_of_le_one_left notAbove.1 le).trans notAbove.2⟩

theorem cuts_notAbove (plain : S.Plain) (standard : S.Standard) {limit : ℚ}
    (within : Within S limit a.windows) :
    NotAbove a (cuts S a).halfwin ∧ NotAbove a (cuts S a).decreasewin ∧
      (cuts S a).decreaseNum = a.decreaseNum := by
  have cwnd_ge : 1 ≤ a.cwnd := within.cwnd_ge
  obtain ⟨one_le, le_cwnd⟩ := windowd_range plain cwnd_ge
  obtain ⟨nonneg, le_windowd⟩ := window_range plain cwnd_ge within.frto
  have whole : NotAbove a (windowd S a) := ⟨by linarith, le_cwnd⟩
  have casted : NotAbove a (window S a) := ⟨by exact_mod_cast nonneg, le_windowd.trans le_cwnd⟩
  have share : 0 ≤ a.decreaseNum ∧ a.decreaseNum ≤ 1 :=
    ⟨within.decreaseNum_nonneg, within.decreaseNum_le⟩
  simp only [cuts, standard.binomial, standard.highSpeed, false_and, ↓reduceIte]
  split
  next =>
    refine ⟨?_, whole.scale share.1 share.2, rfl⟩
    have half : NotAbove a (1 / 2 * windowd S a) := whole.scale (by norm_num) (by norm_num)
    rwa [one_div, ← div_eq_inv_mul] at half
  next =>
    refine ⟨?_, (casted.scale share.1 share.2).toInt, rfl⟩
    -- C rounds the half of a window down
    have halved : 0 ≤ (window S a).tdiv 2 ∧ (window S a).tdiv 2 ≤ window S a := by
      rw [Int.tdiv_eq_ediv_of_nonneg nonneg]
      omega
    have cast_nonneg : (0 : ℚ) ≤ ((window S a).tdiv 2 : Int) := by exact_mod_cast halved.1
    have cast_le : (((window S a).tdiv 2 : Int) : ℚ) ≤ window S a := by exact_mod_cast halved.2
    exact ⟨cast_nonneg, cast_le.trans casted.2⟩

theorem dctcpWindow_notAbove (plain : S.Plain) (cwnd_ge : 1 ≤ a.cwnd)
    (inRange : a.toLedger.InRange) : NotAbove a (dctcpWindow S a) := by
  obtain ⟨one_le, le_cwnd⟩ := windowd_range plain cwnd_ge
  have whole : NotAbove a (windowd S a) := ⟨by linarith, le_cwnd⟩
  have alpha_nonneg := inRange.alpha_nonneg
  have alpha_le := inRange.alpha_le
  exact whole.scale (by linarith) (by linarith)

/-- The kinds of cuts that the sender makes with Quick-Start and `QOption_` off. -/
structure Close.Common (how : Close) : Prop where
  init : how.cwndInit = false
  halfWay : how.cwndHalfWay = false
  threeQuarter : how.threeQuarterSsthresh = false
  halfWithMin : how.cwndHalfWithMin = false

/-- No kind of cut leaves more than there was, before the floor of one packet. -/
theorem closedCwnd_le {how : Close} {limit : ℚ} (plain : S.Plain) (standard : S.Standard)
    (common : how.Common) (within : Within S limit a.windows)
    (inRange : how.cwndDctcp = true → a.toLedger.InRange) :
    closedCwnd S how (cuts S a) a ≤ max 1 a.cwnd := by
  obtain ⟨half, decreased, -⟩ := cuts_notAbove plain standard within
  simp only [closedCwnd, common.init, common.halfWay, common.halfWithMin, Bool.false_eq_true,
    ↓reduceIte]
  split_ifs with halved first dctcp
  · exact half.2.trans (le_max_right _ _)
  · exact decreased.2.trans (le_max_right _ _)
  · have cut := dctcpWindow_notAbove plain within.cwnd_ge (inRange dctcp)
    exact cut.2.trans (le_max_right _ _)
  · exact le_max_left _ _
  · exact le_max_left _ _
  · exact le_max_right _ _

theorem closedSsthresh_le {how : Close} {limit : ℚ} (plain : S.Plain) (standard : S.Standard)
    (common : how.Common) (within : Within S limit a.windows)
    (inRange : how.ssthreshDctcp = true → a.toLedger.InRange) :
    closedSsthresh S how (cuts S a) a = a.ssthresh ∨
      (closedSsthresh S how (cuts S a) a : ℚ) ≤ max 2 a.cwnd := by
  obtain ⟨half, decreased, -⟩ := cuts_notAbove plain standard within
  simp only [closedSsthresh, common.threeQuarter, Bool.false_eq_true, false_and, ↓reduceIte]
  split_ifs with halved first dctcp
  · exact .inr (half.toInt.2.trans (le_max_right _ _))
  · exact .inr (decreased.toInt.2.trans (le_max_right _ _))
  · have cut := dctcpWindow_notAbove plain within.cwnd_ge (inRange dctcp)
    exact .inr (cut.toInt.2.trans (le_max_right _ _))
  · exact .inl rfl

theorem slowdown_within {how : Close} {limit : ℚ} (plain : S.Plain) (standard : S.Standard)
    (common : how.Common) (within : Within S limit a.windows)
    (inRange : how.cwndDctcp = true ∨ how.ssthreshDctcp = true → a.toLedger.InRange) :
    Within S limit (slowdown S how a).windows := by
  obtain ⟨-, -, number⟩ := cuts_notAbove plain standard within
  have windows : (slowdown S how a).windows = { a.windows with
      cwnd := (slowdown S how a).cwnd
      ssthresh := (slowdown S how a).ssthresh } := by
    simp only [Agent.windows, slowdown, number]
  rw [windows]
  refine within.cut ?_ ?_ ?_ ?_
  · simp only [slowdown]
    split
    next => exact le_refl _
    next large => exact not_lt.mp large
  · have closed := closedCwnd_le plain standard common within fun dctcp => inRange (.inl dctcp)
    simp only [slowdown]
    split
    next => exact le_max_left _ _
    next => exact closed
  · simp only [slowdown]
    split
    next => exact le_refl _
    next large => exact not_lt.mp large
  · have closed := closedSsthresh_le plain standard common within fun dctcp => inRange (.inr dctcp)
    simp only [slowdown]
    split
    next => exact .inr (le_max_left _ _)
    next => exact closed

/-! ### Growing -/

theorem limited_range {increment : ℚ} (nonneg : 0 ≤ increment) (le : increment ≤ 1) :
    0 ≤ limited S a increment ∧ limited S a increment ≤ 1 := by
  have share (round : Int) : 0 ≤ (if round > 0 then 1 / (round : ℚ) else 0) ∧
      (if round > 0 then 1 / (round : ℚ) else 0) ≤ 1 := by
    split
    next positive =>
      have one_le : (1 : ℚ) ≤ round := by exact_mod_cast positive
      exact ⟨by positivity, (div_le_one (by linarith)).mpr one_le⟩
    next => exact ⟨le_refl _, zero_le_one⟩
  simp only [limited, limitedSlowStart]
  split
  next =>
    split
    next => exact ⟨nonneg, le⟩
    next =>
      have least := share (toInt (a.cwnd / (S.maxSsthresh / 2)))
      generalize (if toInt (a.cwnd / (S.maxSsthresh / 2)) > 0 then _ else _ : ℚ) = increment1
        at least ⊢
      split
      · exact least
      · exact ⟨nonneg, le⟩
  next => exact ⟨nonneg, le⟩

theorem grow_windows (standard : S.Standard) (cwnd_ge : 1 ≤ a.cwnd) : ∃ cwnd,
    a.cwnd ≤ cwnd ∧ cwnd ≤ a.cwnd + 1 ∧ (grow S a).windows = { a.windows with cwnd } := by
  have counted (f : ℚ) : ∃ cwnd, a.cwnd ≤ cwnd ∧ cwnd ≤ a.cwnd + 1 ∧
      (growByCount f a).windows = { a.windows with cwnd } := by
    simp only [growByCount]
    split
    · exact ⟨a.cwnd + 1, by linarith, le_refl _, rfl⟩
    · exact ⟨a.cwnd, le_refl _, by linarith, rfl⟩
  simp only [grow]
  split
  · exact ⟨a.cwnd + 1, by linarith, le_refl _, rfl⟩
  simp only [growLinearly]
  cases rule : S.wndOption with
  | perWindow =>
    dsimp only
    split
    · exact ⟨a.cwnd + 1, by linarith, le_refl _, rfl⟩
    · exact ⟨a.cwnd, le_refl _, by linarith, rfl⟩
  | standard =>
    have positive : 0 < a.cwnd := by linarith
    have increment : S.increaseNum / a.cwnd ≤ 1 :=
      (div_le_one positive).mpr (standard.increaseNum_le.trans cwnd_ge)
    obtain ⟨nonneg, le⟩ := limited_range (S := S) (a := a)
      (div_nonneg standard.increaseNum_nonneg positive.le) increment
    exact ⟨_, by linarith, by linarith, rfl⟩
  | constantRate | awndSquared | awndLinear | rttLinear => exact counted _
  | binomial => exact absurd rule standard.binomial
  | highSpeed => exact absurd rule standard.highSpeed

/-- `capCwnd` looks at the whole packets of the window only. -/
theorem toInt_gt_iff {cwnd : ℚ} {most : Int} (nonneg : 0 ≤ cwnd) :
    toInt cwnd > most ↔ (most : ℚ) + 1 ≤ cwnd := by
  rw [toInt_eq_floor nonneg, gt_iff_lt, Int.lt_iff_add_one_le, Int.le_floor]
  push_cast
  rfl

theorem opencwnd_within {limit : ℚ} (standard : S.Standard) (within : Within S limit a.windows) :
    Within S (limit + 1) (opencwnd S a).windows := by
  have cwnd_ge : 1 ≤ a.cwnd := within.cwnd_ge
  have cwnd_le : a.cwnd ≤ limit := within.cwnd_le
  obtain ⟨cwnd, grown, le, windows⟩ := grow_windows standard cwnd_ge
  have same : (grow S a).cwnd = cwnd := congrArg Windows.cwnd windows
  have more : Within S (limit + 1) a.windows := within.mono (by linarith)
  have whole : toInt cwnd > S.maxcwnd ↔ (S.maxcwnd : ℚ) + 1 ≤ cwnd := toInt_gt_iff (by linarith)
  simp only [opencwnd, capCwnd, same, whole]
  split
  next above =>
    have positive : (1 : ℚ) ≤ S.maxcwnd := by
      have := standard.maxcwnd
      exact_mod_cast (show 1 ≤ S.maxcwnd by omega)
    have capped : ({ grow S a with cwnd := (S.maxcwnd : ℚ) } : Agent σ).windows =
        { a.windows with cwnd := (S.maxcwnd : ℚ) } :=
      congrArg (fun w : Windows => { w with cwnd := (S.maxcwnd : ℚ) }) windows
    rw [capped]
    exact { more with
      cwnd_ge := positive
      cwnd_le := by
        show (S.maxcwnd : ℚ) ≤ limit + 1
        linarith
      capped := fun _ => .inl (lt_add_one _) }
  next below =>
    rw [windows]
    exact { more with
      cwnd_ge := cwnd_ge.trans grown
      cwnd_le := by
        show cwnd ≤ limit + 1
        linarith
      capped := fun bounded => .inl (by
        show cwnd < S.maxcwnd + 1
        by_contra above
        exact below ⟨by omega, not_lt.mp above⟩) }

/-! ### New ACKs -/

theorem Within.leaveQuickStart {limit : ℚ} (within : Within S limit a.windows) :
    leaveQuickStartWindow a = a := by
  have none : a.qsWindow = 0 := within.qsWindow
  simp [leaveQuickStartWindow, none]

theorem Within.noFrto {limit : ℚ} (within : Within S limit a.windows) : followFrto S a = a := by
  have off : a.frto = 0 := within.frto
  simp [followFrto, off]

theorem overruleFrto_within {limit : ℚ} (noFrto : Bool) (within : Within S limit a.windows) :
    Within S limit (overruleFrto noFrto a).windows := by
  simp only [overruleFrto]
  split
  · exact { within with frto := rfl }
  · exact within

theorem recvNewackHelper_within {limit : ℚ} (standard : S.Standard) (ack : Ack) (now : ℚ)
    (within : Within S limit a.windows) :
    Within S (limit + 1) (recvNewackHelper S ack now a).windows := by
  have acked : Within S limit (newack S ack now a).windows := by
    rw [newack_windows]
    exact within
  have opened : Within S (limit + 1) (openOnAck S ack (newack S ack now a)).windows := by
    simp only [openOnAck]
    split
    · exact opencwnd_within standard acked
    · exact acked.mono (by linarith)
  have followed : Within S (limit + 1)
      (closeIfDone (followEcnBurst ack (openOnAck S ack (newack S ack now a)))).windows := by
    rw [closeIfDone_windows, followEcnBurst_windows]
    exact opened
  simp only [recvNewackHelper, acked.leaveQuickStart, followed.noFrto]
  exact followed

theorem recvNew_within {limit : ℚ} (standard : S.Standard) (ack : Ack) (now : ℚ)
    (first : firstWindow S ≤ limit) (within : Within S limit a.windows) :
    Within S (limit + 1) (recvNew S ack now a).windows := by
  have helped := recvNewackHelper_within (a := { a with firstpartial := false }) standard ack now
    within
  simp only [recvNew]
  generalize recvNewackHelper S ack now { a with firstpartial := false } = b at helped
  split
  next =>
    -- the ACK of the SYN opens the initial window
    have initial := Within.initialWindow (a := { b with
      timeout := false, scb := S.board.clearScoreBoard b.scb }) helped
    exact { helped with
      cwnd_ge := initial.1
      cwnd_le := initial.2.trans (by linarith)
      capped := fun _ => .inr initial.2 }
  next => exact helped

theorem recvNew_highestAck (ack : Ack) (now : ℚ) :
    (recvNew S ack now a).highestAck = ack.seqno := by
  obtain ⟨pending, -, advanced⟩ := @newack_transfer σ S { a with firstpartial := false } ack now
  have acked : (newack S ack now { a with firstpartial := false }).highestAck = ack.seqno :=
    congrArg Transfer.highestAck advanced
  have closed (b : Agent σ) : (closeIfDone b).highestAck = b.highestAck := by
    simp only [closeIfDone]
    split <;> rfl
  have followed (b : Agent σ) : (followFrto S b).highestAck = b.highestAck := by
    obtain ⟨tSeqno, recover, -, same⟩ := @followFrto_transfer σ S b
    exact congrArg Transfer.highestAck same
  have burst (b : Agent σ) : (followEcnBurst ack b).highestAck = b.highestAck :=
    congrArg Transfer.highestAck (followEcnBurst_transfer ack)
  have opened (b : Agent σ) : (openOnAck S ack b).highestAck = b.highestAck :=
    congrArg Transfer.highestAck (openOnAck_transfer ack)
  have left (b : Agent σ) : (leaveQuickStartWindow b).highestAck = b.highestAck :=
    congrArg Transfer.highestAck leaveQuickStartWindow_transfer
  have helped : (recvNewackHelper S ack now { a with firstpartial := false }).highestAck =
      ack.seqno := by
    simp only [recvNewackHelper]
    rw [followed, closed, burst, opened, left, acked]
  simp only [recvNew]
  split
  · exact helped
  · exact helped

/-! ### Duplicate ACKs and congestion signals -/

theorem half_common : Close.half.Common := ⟨rfl, rfl, rfl, rfl⟩

/-- A cut by half does not look at the estimate. -/
theorem halve_within {limit : ℚ} (plain : S.Plain) (standard : S.Standard)
    (within : Within S limit a.windows) : Within S limit (slowdown S .half a).windows :=
  slowdown_within plain standard half_common within fun dctcp => by
    rcases dctcp with dctcp | dctcp <;> exact absurd dctcp Bool.false_ne_true

theorem recoverAfterEcn_within {limit : ℚ} (plain : S.Plain) (standard : S.Standard) (now : ℚ)
    (within : Within S limit a.windows) : Within S limit (recoverAfterEcn S now a).windows := by
  simp only [recoverAfterEcn, output_windows, enterFastRecovery_windows]
  split
  · exact halve_within (a := { a with lastCwndAction := .dupack }) plain standard within
  · exact within

theorem sackAction_within {limit : ℚ} (plain : S.Plain) (standard : S.Standard) (now : ℚ)
    (within : Within S limit a.windows) : Within S limit (sackAction S now a).windows := by
  simp only [sackAction]
  generalize (if S.oldCode then _ else _ : Int) = pipe
  generalize entered : enterFastRecovery S pipe { a with recover := a.maxseq } = e
  have entered : Within S limit e.windows := by
    rw [← entered, enterFastRecovery_windows]
    exact within
  have none : lossQuickStart S now e = (e, false) := by
    have off : e.qsWindow = 0 := entered.qsWindow
    simp [lossQuickStart, off]
  rw [none]
  dsimp only
  rw [output_windows]
  exact halve_within (a := { e with lastCwndAction := .dupack }) plain standard entered

theorem dupackAction_within {limit : ℚ} (plain : S.Plain) (standard : S.Standard) (now : ℚ)
    (within : Within S limit a.windows) : Within S limit (dupackAction S now a).windows := by
  simp only [dupackAction]
  split_ifs
  · exact sackAction_within plain standard now within
  · exact recoverAfterEcn_within plain standard now within
  · exact within
  · exact sackAction_within plain standard now within

theorem countDupack_within {limit : ℚ} (plain : S.Plain) (standard : S.Standard) (now : ℚ)
    (within : Within S limit a.windows) : Within S limit (countDupack S now a).windows := by
  simp only [countDupack]
  split_ifs
  · exact dupackAction_within (a := { a with dupacks := a.dupacks + 1 }) plain standard now within
  · rw [sendOne_windows]
    exact within
  · exact within
  · exact within

theorem judgeTimeout_within {limit : ℚ} (ack : Ack) (within : Within S limit a.windows) :
    Within S limit (judgeTimeout S ack a).windows := by
  have off : a.frto = 0 := within.frto
  simp only [judgeTimeout, off]
  rw [if_neg (fun judged => absurd judged.2 (by decide))]
  exact within

/-- Only a new ACK outside fast recovery opens the window. -/
theorem recvNormal_within {limit : ℚ} (plain : S.Plain) (standard : S.Standard) (ack : Ack)
    (now : ℚ) (first : firstWindow S ≤ limit) (within : Within S limit a.windows) :
    Within S limit (recvNormal S ack now a).windows ∨
      a.lastAck < ack.seqno ∧ (recvNormal S ack now a).highestAck = ack.seqno ∧
        Within S (limit + 1) (recvNormal S ack now a).windows := by
  simp only [recvNormal]
  split_ifs with new
  · exact .inr ⟨new, recvNew_highestAck ack now, recvNew_within standard ack now first within⟩
  · exact .inl within
  · exact .inl within
  · refine .inl (judgeTimeout_within ack (countDupack_within plain standard now ?_))
    exact within

theorem ecn_within {limit : ℚ} (plain : S.Plain) (standard : S.Standard) (seqno : Int)
    (inRange : a.toLedger.InRange) (within : Within S limit a.windows) :
    Within S limit (ecn S seqno a).windows := by
  simp only [ecn]
  split
  next =>
    generalize started : ({ a.record (.ecnReaction seqno a.maxseq) with
      recover := a.maxseq, lastCwndAction := .ecn } : Agent σ) = b
    have same : b.windows = a.windows := by
      rw [← started]
      rfl
    have estimate : b.toLedger.InRange := by
      rw [← started]
      exact { inRange.record (e := .ecnReaction seqno a.maxseq) trivial with }
    have backed : Within S limit (backOffEcn S b).windows := by
      rw [backOffEcn_windows, same]
      exact within
    have common : (if S.dctcp then Close.dctcp else Close.half).Common := by
      split
      · exact ⟨rfl, rfl, rfl, rfl⟩
      · exact half_common
    refine slowdown_within plain standard common backed fun _ => ?_
    rw [backOffEcn_ledger]
    exact estimate
  next => exact within

theorem hearFeedback_within {limit : ℚ} (plain : S.Plain) (standard : S.Standard) (ack : Ack)
    (inRange : a.toLedger.InRange) (within : Within S limit a.windows) :
    Within S limit (hearFeedback S ack a).windows := by
  have estimated : (estimate S ack a).toLedger.InRange :=
    (estimate_follows ack).invariant inRange fun _ _ before act =>
      act.inRange standard.dctcpG_nonneg standard.dctcpG_le before
  have same : Within S limit (estimate S ack a).windows := by
    rw [estimate_windows]
    exact within
  simp only [hearFeedback]
  split
  · exact ecn_within plain standard ack.seqno estimated same
  · exact same

/-! ### Timeouts -/

theorem closeOnTimeout_within {limit : ℚ} (plain : S.Plain) (standard : S.Standard)
    (within : Within S limit a.windows) : Within S limit (closeOnTimeout S a).windows := by
  have shrunk : Within S limit (shrinkInitialWindow S { a with recover := a.maxseq }).windows := by
    simp only [shrinkInitialWindow]
    split
    · split
      · exact { within with draft := fun wide => by cases wide }
      · split
        · exact { within with wndInit_ge := le_refl _, wndInit_le := standard.wndInit }
        · exact within
    · exact within
  have unstarted (b : Agent σ) : startFrto S b = b := by
    simp [startFrto, standard.frtoEnabled, plain.sfrtoEnabled]
  have quiet {how : Close} (dctcp : how.cwndDctcp = false) (dctcp' : how.ssthreshDctcp = false)
      {b : Agent σ} : how.cwndDctcp = true ∨ how.ssthreshDctcp = true → b.toLedger.InRange :=
    fun asked => by
      rcases asked with asked | asked
      · exact absurd (dctcp.symm.trans asked) Bool.false_ne_true
      · exact absurd (dctcp'.symm.trans asked) Bool.false_ne_true
  simp only [closeOnTimeout]
  generalize shrinkInitialWindow S { a with recover := a.maxseq } = b at shrunk
  split_ifs
  · exact slowdown_within plain standard ⟨rfl, rfl, rfl, rfl⟩ shrunk (quiet rfl rfl)
  · rw [unstarted]
    exact slowdown_within plain standard ⟨rfl, rfl, rfl, rfl⟩ shrunk (quiet rfl rfl)
  · rw [unstarted]
    exact slowdown_within (a := { b with nrexmit := b.nrexmit + 1, lastCwndAction := .timeout })
      plain standard ⟨rfl, rfl, rfl, rfl⟩ shrunk (quiet rfl rfl)

theorem closeWindow_within {limit : ℚ} (plain : S.Plain) (standard : S.Standard)
    (within : Within S limit a.windows) : Within S limit (closeWindow S a).windows := by
  have cwnd_ge : 1 ≤ a.cwnd := within.cwnd_ge
  have saved : Within S limit (saveWindow S a).windows := by
    have same : (saveWindow S a).windows = { a.windows with frto := 0 } := by
      simp only [saveWindow, Agent.windows, if_neg cwnd_ge.not_gt]
    rw [same]
    exact { within with frto := rfl }
  simp only [closeWindow]
  refine Eq.subst (motive := Within S limit) (resetRtxTimer_windows _ _).symm ?_
  split
  · exact saved
  · exact closeOnTimeout_within plain standard saved

/-! ### Quick-Start stays out -/

/-- No Quick-Start request is under way. -/
structure Unasked (c : Transfer σ) : Prop where
  requested : c.qsRequested = false
  approved : c.qsApproved = false

theorem Transfer.Outputs.unasked {c d : Transfer σ} {seqno : Int} (out : Outputs S seqno c d)
    (off : S.qsEnabled = false) (before : Unasked c) : Unasked d := by
  cases out with
  | aborted => exact { before with }
  | handed p number size curseq data asked may =>
    have silent : asked = false := by
      cases asked with
      | false => rfl
      | true => exact absurd (off.symm.trans (may rfl)) Bool.false_ne_true
    exact { before with
      requested := by
        dsimp only
        rw [before.requested, silent]
        rfl }

theorem Transfer.SendAct.unasked {c d : Transfer σ} (act : SendAct S c d)
    (off : S.qsEnabled = false) (before : Unasked c) : Unasked d := by
  cases act with
  | look | pace => exact { before with }
  | new _ _ out | hole _ _ out => exact out.unasked off { before with }

theorem Transfer.Act.unasked {c d : Transfer σ} {stimulus : Stimulus}
    (act : Transfer.Act S stimulus c d) (off : S.qsEnabled = false) (before : Unasked c) :
    Unasked d := by
  cases act with
  | sending act => exact act.unasked off before
  | fastRetransmit _ _ _ _ _ _ _ out => exact out.unasked off { before with }
  | resend _ seqno tSeqno scb after out =>
    have sent := out.unasked off { before with }
    exact { sent with }
  | leaveQuickStart | timeout => exact { before with approved := rfl }
  | answerQuickStart approved asked =>
    exact absurd (before.requested.symm.trans asked) Bool.false_ne_true
  | update | clear | newack | exitRecovery | finish | partialAck | newtimer | goBack
  | spuriousTimeout | ecn | delsndExpires | offer => exact { before with }

/-! ### Steps -/

theorem sendMuch_highestAck {turns : Nat} {force : Bool} {reason : Reason} {now : ℚ}
    (sent : sendMuch S turns force reason now a = .ok b) : b.highestAck = a.highestAck := by
  refine (sendMuch_sends sent).invariant (I := fun c => c.highestAck = a.highestAck) rfl ?_
  intro c d before act
  cases act with
  | look | pace => exact before
  | new _ _ out | hole _ _ out => exact out.highestAck.trans before

/-- Only an ACK for new data that finds the sender outside fast recovery opens the window, and it
opens it by one packet at most. -/
def Answers (S : Setup σ) (limit : ℚ) (ack : Ack) (a b : Agent σ) : Prop :=
  Within S limit b.windows ∨
    a.fastrecov = false ∧ a.lastAck < ack.seqno ∧ b.highestAck = ack.seqno ∧
      Within S (limit + 1) b.windows

theorem recv_within {limit : ℚ} {turns : Nat} {ack : Ack} {now : ℚ} (plain : S.Plain)
    (standard : S.Standard) (unasked : Unasked a.transfer) (inRange : a.toLedger.InRange)
    (first : firstWindow S ≤ limit) (within : Within S limit a.windows)
    (received : recv S turns ack now a = .ok b) : Answers S limit ack a b := by
  have begun : beginAck S ack a = a := by
    have requested : a.qsRequested = false := unasked.requested
    have approved : a.qsApproved = false := unasked.approved
    simp [beginAck, requested, approved]
  have heard := hearFeedback_within plain standard ack inRange within
  obtain ⟨recover, -, same⟩ := @hearFeedback_transfer σ S a ack
  have lastAck : (hearFeedback S ack a).lastAck = a.lastAck := congrArg Transfer.lastAck same
  have fastrecov : (hearFeedback S ack a).fastrecov = a.fastrecov :=
    congrArg Transfer.fastrecov same
  simp only [recv, begun] at received
  generalize hearFeedback S ack a = h at heard lastAck fastrecov received
  -- what is sent afterwards leaves the windows alone
  have normal (outside : ¬ h.fastrecov = true) {c : Agent σ}
      (windows : c.windows = (recvNormal S ack now h).windows)
      (highestAck : c.highestAck = (recvNormal S ack now h).highestAck) :
      Answers S limit ack a c := by
    rw [Answers, windows, highestAck]
    rcases recvNormal_within plain standard ack now first heard with kept | ⟨new, reflected, opened⟩
    · exact .inl kept
    · exact .inr ⟨by rw [← fastrecov]; simpa using outside, lastAck ▸ new, reflected, opened⟩
  have recovering := @recvRecovering_windows σ S h ack now
  split_ifs at received with stale recovers valid outside
  · cases received
    exact .inl within
  · refine .inl ?_
    rw [sendMuch_windows received, recovering]
    exact heard
  · cases received
    refine .inl ?_
    rw [recovering]
    exact heard
  · exact normal recovers (sendMuch_windows received) (sendMuch_highestAck received)
  · cases received
    exact normal recovers rfl rfl

/-- What one stimulus makes of the windows. -/
theorem respond_within {limit : ℚ} {i : Input} (plain : S.Plain) (standard : S.Standard)
    (unasked : Unasked a.transfer) (inRange : a.toLedger.InRange) (first : firstWindow S ≤ limit)
    (within : Within S limit a.windows) (answer : respond S i a = .ok b) :
    Within S limit b.windows ∨ ∃ ack, Answers S limit ack a b := by
  simp only [respond] at answer
  cases stimulus : i.stimulus with
  | ack ack =>
    simp only [stimulus] at answer
    exact .inr ⟨ack, recv_within plain standard unasked inRange first within answer⟩
  | rtxExpires =>
    simp only [stimulus] at answer
    split at answer
    next =>
      obtain ⟨c, sent, done⟩ := DrivenRun.bind_eq_ok.mp answer
      cases done
      refine .inl (overruleFrto_within _ ?_)
      rw [sendMuch_windows sent]
      refine closeWindow_within plain standard ?_
      rw [beginTimeout_windows]
      exact within
    next => cases answer
  | delsndExpires =>
    simp only [stimulus] at answer
    split at answer
    next =>
      obtain ⟨c, sent, done⟩ := DrivenRun.bind_eq_ok.mp answer
      cases done
      refine .inl (overruleFrto_within _ ?_)
      rw [sendMuch_windows sent]
      exact within
    next => cases answer
  | flBndrExpires =>
    simp only [stimulus] at answer
    split at answer
    next =>
      cases answer
      refine .inl (overruleFrto_within _ ?_)
      rw [checkCongestionFB_windows]
      exact within
    next => cases answer
  | sendmsg nbytes =>
    simp only [stimulus, sendmsg] at answer
    rw [sendMuch_windows answer]
    exact .inl within
  | advanceby delta =>
    simp only [stimulus, advanceby] at answer
    rw [sendMuch_windows answer]
    split
    · exact .inl within
    · exact .inl within

/-- The window of a sender that has grown by one packet at most for each packet acknowledged. -/
structure Earned (S : Setup σ) (a : Agent σ) : Prop where
  unasked : Unasked a.transfer
  inRange : a.toLedger.InRange
  within : Within S (firstWindow S + (a.highestAck + 1)) a.windows

theorem Earned.step {laws : S.board.Laws} {i : Input} (earned : Earned S a) (plain : S.Plain)
    (standard : S.Standard) (orderly : Orderly laws a.transfer)
    (honest : i.stimulus.Honest a.maxseq) (answer : respond S i a = .ok b) : Earned S b where
  unasked := (respond_moves answer).invariant earned.unasked fun _ _ before act =>
    act.unasked standard.qsEnabled before
  inRange := (respond_follows answer).invariant earned.inRange fun _ _ before act =>
    act.inRange standard.dctcpG_nonneg standard.dctcpG_le before
  within := by
    obtain ⟨-, extended⟩ := (respond_moves answer).orderly plain honest orderly
    have grown : (a.highestAck : ℚ) ≤ b.highestAck := by exact_mod_cast extended.highestAck
    have started : -1 ≤ a.highestAck := orderly.lastAck_ge.trans orderly.lastAck_le
    have nonneg : (0 : ℚ) ≤ a.highestAck + 1 := by
      have : (-1 : ℚ) ≤ a.highestAck := by exact_mod_cast started
      linarith
    rcases respond_within plain standard earned.unasked earned.inRange (by linarith)
      earned.within answer with same | ⟨ack, same | ⟨normal, new, reflected, opened⟩⟩
    · exact same.mono (by linarith)
    · exact same.mono (by linarith)
    · -- the packet more is paid for by the packet acknowledged
      have acked : a.lastAck = a.highestAck := orderly.normal normal
      have further : (a.highestAck : ℚ) + 1 ≤ b.highestAck := by
        rw [reflected]
        exact_mod_cast (show a.highestAck + 1 ≤ ack.seqno by omega)
      exact opened.mono (by linarith)

/-! ### Runs -/

end Saps.Tcp
