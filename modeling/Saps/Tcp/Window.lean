import Saps.Tcp.RoundTrip

/-!
# The congestion window

`window`, `windowd`, `slowdown`, `opencwnd` and `initial_window` of `TcpAgent`.
-/
namespace Saps.Tcp

variable {σ : Type} (S : Setup σ)

def forceWnd (num : Int) (a : Agent σ) : Int := a.recover + num - a.highestAck

def window (a : Agent σ) : Int :=
  -- F-RTO opens the window for two segments past the recovery point
  if a.frto = 2 then
    if (forceWnd 2 a : ℚ) < S.wnd then forceWnd 2 a else toInt S.wnd
  else if a.cwnd < S.wnd then toInt a.cwnd else toInt S.wnd

def windowd (a : Agent σ) : ℚ := if a.cwnd < S.wnd then a.cwnd else S.wnd

def numdupacks (cwnd : ℚ) : Int :=
  let cwndfraction := (toInt cwnd).tdiv S.numdupacksFrac
  if S.numdupacks > cwndfraction then S.numdupacks else cwndfraction

def initialWindow (a : Agent σ) : ℚ :=
  if a.qsCwnd ≠ 0 then a.qsCwnd
  else match a.wndInitOption with
    | .static => a.wndInit
    | .draft => if S.size ≤ 1095 then 4 else if S.size < 2190 then 3 else 2

/-! ### The high-speed variant -/

/-- The constants that `reset()` stores for `windowOption_ 8`. -/
structure Hstcp where
  dec1 : ℚ
  dec2 : ℚ
  p1 : ℚ
  p2 : ℚ

def hstcp : Hstcp :=
  let log := S.libm.log
  let lowP := 3 / 2 / (S.lowWindow * S.lowWindow)
  let highLowWin := log S.highWindow - log S.lowWindow
  let highLowP := log S.highP - log lowP
  { dec1 := 1 / 2 - log S.lowWindow * (S.highDecrease - 1 / 2) / highLowWin
    dec2 := (S.highDecrease - 1 / 2) / highLowWin
    p1 := log lowP - log S.lowWindow * highLowP / highLowWin
    p2 := highLowP / highLowWin }

def decreaseParam (a : Agent σ) : ℚ := (hstcp S).dec1 + S.libm.log a.cwnd * (hstcp S).dec2

def increaseParam (a : Agent σ) : ℚ × Agent σ :=
  if a.cwnd ≤ S.lowWindow then (1 / a.cwnd, a)
  -- close to the window of the last computation its result is used again
  else if a.cwnd ≥ a.hstcpCwndLast ∧ a.cwnd < a.hstcpCwndLast + S.cwndRange then
    (a.hstcpIncreaseLast / a.cwnd, a)
  else
    let p := S.libm.exp ((hstcp S).p1 + S.libm.log a.cwnd * (hstcp S).p2)
    let increase := a.cwnd * a.cwnd * p / (1 / decreaseParam S a - 1 / 2)
    (increase / a.cwnd, { a with hstcpCwndLast := a.cwnd, hstcpIncreaseLast := increase })

/-! ### Growing -/

def limitedSlowStart (cwnd : ℚ) (maxSsthresh : Int) (increment : ℚ) : ℚ :=
  if maxSsthresh ≤ 0 then increment
  else
    let round := toInt (cwnd / (maxSsthresh / 2))
    let increment1 : ℚ := if round > 0 then 1 / round else 0
    if increment < increment1 then increment1 else increment

/-- Limited slow-start applies until the first congestion signal other than a timeout. -/
def limited (a : Agent σ) (increment : ℚ) : ℚ :=
  if (a.lastCwndAction = .none ∨ a.lastCwndAction = .timeout) ∧ S.maxSsthresh > 0 then
    limitedSlowStart a.cwnd S.maxSsthresh increment
  else increment

/-- One more packet each time the running count `f` exceeds the window. -/
def growByCount (f : ℚ) (a : Agent σ) : Agent σ :=
  if f > a.cwnd then { a with fcnt := 0, cwnd := a.cwnd + 1 } else { a with fcnt := f }

/-- The measured round-trip time in seconds. -/
def smoothedRtt (a : Agent σ) : ℚ := (a.tSrtt >>> S.srttBits : Int) * S.tcpTick

def growLinearly (a : Agent σ) : Agent σ :=
  match S.wndOption with
  | .perWindow =>
    if (a.count + 1 : Int) ≥ a.cwnd then { a with count := 0, cwnd := a.cwnd + 1 }
    else { a with count := a.count + 1 }
  | .standard => { a with cwnd := a.cwnd + limited S a (S.increaseNum / a.cwnd) }
  | .constantRate =>
    growByCount (smoothedRtt S a * smoothedRtt S a * S.wndConst + a.fcnt) a
  | .awndSquared => growByCount (a.awnd * a.awnd * S.wndConst + a.fcnt) a
  | .awndLinear => growByCount (a.awnd * S.wndConst + a.fcnt) a
  | .rttLinear => growByCount (smoothedRtt S a * S.wndConst + a.fcnt) a
  | .binomial =>
    { a with cwnd := a.cwnd + S.increaseNum / (a.cwnd * S.libm.pow a.cwnd S.kParameter) }
  | .highSpeed =>
    let (increment, b) := increaseParam S a
    { b with cwnd := a.cwnd + limited S a increment }

def grow (a : Agent σ) : Agent σ :=
  -- below `ssthresh_` the sender is in slow start
  if a.cwnd < a.ssthresh then { a with cwnd := a.cwnd + 1 } else growLinearly S a

def capCwnd (a : Agent σ) : Agent σ :=
  if S.maxcwnd ≠ 0 ∧ toInt a.cwnd > S.maxcwnd then { a with cwnd := S.maxcwnd } else a

def opencwnd (a : Agent σ) : Agent σ := capCwnd S (grow S a)

/-! ### Closing -/

/-- The windows `slowdown()` computes before it looks at the bits of `how`. -/
structure Cuts where
  halfwin : ℚ
  decreasewin : ℚ
  win : ℚ
  decreaseNum : ℚ

def cuts (a : Agent σ) : Cuts :=
  let highSpeed := S.wndOption = .highSpeed ∧ a.cwnd > S.lowWindow
  let decreaseNum := if highSpeed then decreaseParam S a else a.decreaseNum
  if S.precisionReduce then
    { halfwin := windowd S a / 2
      decreasewin :=
        if S.wndOption = .binomial then
          windowd S a - (1 - decreaseNum) * S.libm.pow (windowd S a) S.lParameter
        else if highSpeed then windowd S a - decreaseNum * windowd S a
        else decreaseNum * windowd S a
      win := windowd S a
      decreaseNum }
  else
    { halfwin := ((window S a).tdiv 2 : Int)
      decreasewin :=
        if S.wndOption = .binomial then
          toInt (window S a - (1 - decreaseNum) * S.libm.pow (window S a) S.lParameter)
        else if highSpeed then toInt (windowd S a - decreaseNum * windowd S a)
        else toInt (decreaseNum * window S a)
      win := window S a
      decreaseNum }

/-- The window after a DCTCP cut, before the floors. -/
def dctcpWindow (a : Agent σ) : ℚ := (1 - a.dctcpAlpha / 2) * windowd S a

def closedSsthresh (how : Close) (c : Cuts) (a : Agent σ) : Int :=
  if how.ssthreshHalf then
    -- the first decrease is by half whatever `decrease_num_` is
    if a.firstDecrease ∨ a.cwnd < a.ssthresh ∨ a.lastCwndAction = .timeout then toInt c.halfwin
    else toInt c.decreasewin
  else if how.ssthreshDctcp then toInt (dctcpWindow S a)
  else if how.threeQuarterSsthresh ∧ a.ssthresh < 3 * a.cwnd / 4 then toInt (3 * a.cwnd / 4)
  else a.ssthresh

def closedCwnd (how : Close) (c : Cuts) (a : Agent σ) : ℚ :=
  if how.cwndHalf then
    if a.firstDecrease ∨ a.cwnd < a.ssthresh ∨ c.decreaseNum = 1 / 2 then c.halfwin
    else c.decreasewin
  else if how.cwndDctcp then dctcpWindow S a
  else if how.cwndHalfWithMin then if c.decreasewin < 1 then 1 else c.decreasewin
  else if how.cwndRestart then 1
  else if how.cwndInit then toInt a.wndInit
  else if how.cwndOne then 1
  else if how.cwndHalfWay then
    let halfWay := a.wUsed + c.decreaseNum * (c.win - a.wUsed)
    if halfWay < 1 then 1 else halfWay
  else a.cwnd

def slowdown (how : Close) (a : Agent σ) : Agent σ :=
  let c := cuts S a
  let ssthresh := closedSsthresh S how c a
  -- the floors apply to every kind of cut
  let ssthresh := if ssthresh < 2 then 2 else ssthresh
  let cwnd := closedCwnd S how c a
  let cwnd := if cwnd < 1 then 1 else cwnd
  { a with
    ncwndcuts := a.ncwndcuts + 1
    ncwndcuts1 :=
      if how.tcpIdle ∨ how.noOutstandingData then a.ncwndcuts1 else a.ncwndcuts1 + 1
    decreaseNum := c.decreaseNum
    ssthresh
    cwnd
    congAction := a.congAction || how.cwndHalf || how.cwndRestart || how.cwndInit ||
      how.cwndOne || how.cwndDctcp
    fcnt := 0
    count := 0
    firstDecrease := false
    toLedger := a.toLedger.record (.slowedDown how (windowd S a) cwnd ssthresh) }

/-! ### What the ledger sees -/

variable {S} {a : Agent σ}

/-- Growth touches the congestion window and nothing else. -/
theorem opencwnd_frame : ∃ window, opencwnd S a = { a with toCongestionWindow := window } := by
  have byCount (f : ℚ) : ∃ window, growByCount f a = { a with toCongestionWindow := window } := by
    simp only [growByCount]
    split <;> exact ⟨_, rfl⟩
  have param : ∃ window, (increaseParam S a).2 = { a with toCongestionWindow := window } := by
    simp only [increaseParam]
    split_ifs <;> exact ⟨_, rfl⟩
  have linearly : ∃ window, growLinearly S a = { a with toCongestionWindow := window } := by
    simp only [growLinearly]
    -- one case for each rule of growth
    cases S.wndOption with
    | perWindow =>
      dsimp only
      split <;> exact ⟨_, rfl⟩
    | standard | binomial => exact ⟨_, rfl⟩
    | constantRate | awndSquared | awndLinear | rttLinear => exact byCount _
    | highSpeed =>
      obtain ⟨window, same⟩ := param
      dsimp only
      rw [same]
      exact ⟨_, rfl⟩
  have grown : ∃ window, grow S a = { a with toCongestionWindow := window } := by
    simp only [grow]
    split
    · exact ⟨_, rfl⟩
    · exact linearly
  obtain ⟨window, same⟩ := grown
  simp only [opencwnd, capCwnd]
  split
  · rw [same]
    exact ⟨_, rfl⟩
  · exact ⟨window, same⟩

@[simp] theorem opencwnd_ledger : (opencwnd S a).toLedger = a.toLedger := by
  obtain ⟨window, same⟩ := @opencwnd_frame σ S a
  rw [same]

theorem slowdown_ledger (how : Close) : (slowdown S how a).toLedger = a.toLedger.record
    (.slowedDown how (windowd S a) (slowdown S how a).cwnd (slowdown S how a).ssthresh) :=
  rfl

end Saps.Tcp
