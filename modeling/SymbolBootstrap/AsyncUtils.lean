import Mathlib.Algebra.Order.Floor.Ring
import Mathlib.Data.Rat.Floor
import Mathlib.Tactic.Linarith
import Mathlib.Tactic.Positivity

/-!
`AsyncUtils.poll`: a check that is repeated until it answers true or the polling time is
used up. Times are exact numbers of milliseconds. The clock is only read as the
milliseconds of its current second, so a check that runs into the next second gives
polling time back, and with short intervals the polling need not end.
-/
namespace SymbolBootstrap.AsyncUtils

/-- A call of `promiseFunction`: when it starts and ends on the wall clock, its answer, and
`stopProcess` as found after it. -/
structure Check where
  startTime : ℕ
  endTime : ℕ
  result : Bool
  stopProcess : Bool

/-- `new Date().getMilliseconds()`. -/
def getMilliseconds (time : ℕ) : ℕ := time % 1000

/-- A call of `poll` has its answer, or calls `poll` again with a new polling time. -/
inductive Polling
  | answered (result : Bool)
  | retrying (totalPollingTime : ℚ)
deriving DecidableEq

def newPollingTime (totalPollingTime pollIntervalMs : ℚ) (check : Check) : ℚ :=
  max (totalPollingTime - pollIntervalMs -
    ((getMilliseconds check.endTime : ℚ) - getMilliseconds check.startTime)) 0

/-- The body of `poll`, up to its own call. -/
def pollOnce (totalPollingTime pollIntervalMs : ℚ) (check : Check) : Polling :=
  if check.result then .answered true
  else if check.stopProcess then .answered false
  else if newPollingTime totalPollingTime pollIntervalMs check ≠ 0 then
    .retrying (newPollingTime totalPollingTime pollIntervalMs check)
  else .answered false

section Run

variable (checks : ℕ → Check) (totalPollingTime pollIntervalMs : ℚ)

/-- The polling after a number of checks. The next check is made while it is retrying. -/
def poll : ℕ → Polling
  | 0 => .retrying totalPollingTime
  | n + 1 =>
      match poll n with
      | .answered result => .answered result
      | .retrying totalPollingTime => pollOnce totalPollingTime pollIntervalMs (checks n)

/-- The wall clock does not run backwards. -/
def MonotoneClock : Prop :=
  ∀ n, (checks n).startTime ≤ (checks n).endTime ∧ (checks n).endTime ≤ (checks (n + 1)).startTime

/-- No check beyond the promised number is made. -/
def ChecksBounded : Prop :=
  ∀ n time, poll checks totalPollingTime pollIntervalMs n = .retrying time →
    (n : ℤ) + 1 ≤ 1 + ⌈totalPollingTime / pollIntervalMs⌉

/-- A retry has lost the interval and the time that the check took. -/
def TimeDeducted : Prop :=
  ∀ n time time', poll checks totalPollingTime pollIntervalMs n = .retrying time →
    poll checks totalPollingTime pollIntervalMs (n + 1) = .retrying time' →
    time' ≤ time - pollIntervalMs - ((checks n).endTime - (checks n).startTime)

/-- Every check that leaves polling time ends in the second in which it began. -/
def WithinSeconds : Prop :=
  ∀ n time, poll checks totalPollingTime pollIntervalMs n = .retrying time →
    (checks n).result = false → (checks n).stopProcess = false →
    0 < newPollingTime time pollIntervalMs (checks n) →
    (checks n).startTime / 1000 = (checks n).endTime / 1000

end Run

section Step

variable {checks : ℕ → Check} {totalPollingTime pollIntervalMs : ℚ}

theorem pollOnce_retrying {time time' : ℚ} {check : Check} :
    pollOnce time pollIntervalMs check = .retrying time' ↔
      check.result = false ∧ check.stopProcess = false ∧ 0 < time' ∧
        time' = newPollingTime time pollIntervalMs check := by
  have hnonneg : 0 ≤ newPollingTime time pollIntervalMs check := le_max_right _ _
  unfold pollOnce
  cases check.result with
  | true => simp
  | false =>
    cases check.stopProcess with
    | true => simp
    | false =>
      simp only [Bool.false_eq_true, ↓reduceIte, true_and]
      split
      · rename_i hne
        rw [Polling.retrying.injEq]
        constructor
        · rintro rfl
          exact ⟨lt_of_le_of_ne hnonneg (Ne.symm hne), rfl⟩
        · rintro ⟨-, rfl⟩
          rfl
      · rename_i hzero
        constructor
        · intro h
          cases h
        · rintro ⟨hpos, rfl⟩
          exact absurd (not_not.mp hzero) hpos.ne'

theorem poll_succ_retrying {n : ℕ} {time' : ℚ}
    (h : poll checks totalPollingTime pollIntervalMs (n + 1) = .retrying time') :
    ∃ time, poll checks totalPollingTime pollIntervalMs n = .retrying time ∧
      pollOnce time pollIntervalMs (checks n) = .retrying time' := by
  rw [poll] at h
  split at h
  · cases h
  · rename_i time htime
    exact ⟨time, htime, h⟩

/-- Read as milliseconds of the second, a check takes whole seconds less. -/
theorem milliseconds_sub (check : Check) :
    (getMilliseconds check.endTime : ℚ) - getMilliseconds check.startTime =
      ((check.endTime : ℚ) - check.startTime) -
        1000 * ((check.endTime / 1000 : ℕ) - (check.startTime / 1000 : ℕ)) := by
  have hend : (check.endTime : ℚ) =
      1000 * (check.endTime / 1000 : ℕ) + (check.endTime % 1000 : ℕ) := by
    exact_mod_cast (Nat.div_add_mod check.endTime 1000).symm
  have hstart : (check.startTime : ℚ) =
      1000 * (check.startTime / 1000 : ℕ) + (check.startTime % 1000 : ℕ) := by
    exact_mod_cast (Nat.div_add_mod check.startTime 1000).symm
  rw [getMilliseconds, getMilliseconds]
  linarith

theorem newPollingTime_of_pos {time : ℚ} {check : Check}
    (hpos : 0 < newPollingTime time pollIntervalMs check) :
    newPollingTime time pollIntervalMs check = time - pollIntervalMs -
      ((getMilliseconds check.endTime : ℚ) - getMilliseconds check.startTime) := by
  rcases max_choice (time - pollIntervalMs - ((getMilliseconds check.endTime : ℚ) -
    getMilliseconds check.startTime)) 0 with h | h
  · exact h
  · exact absurd h hpos.ne'

/-- The time that a check took is deducted exactly when it ends in the second in which it
began. -/
theorem newPollingTime_le_iff {time : ℚ} {check : Check}
    (hclock : check.startTime ≤ check.endTime)
    (hpos : 0 < newPollingTime time pollIntervalMs check) :
    newPollingTime time pollIntervalMs check ≤
        time - pollIntervalMs - ((check.endTime : ℚ) - check.startTime) ↔
      check.startTime / 1000 = check.endTime / 1000 := by
  have hle : check.startTime / 1000 ≤ check.endTime / 1000 := Nat.div_le_div_right hclock
  rw [newPollingTime_of_pos hpos, milliseconds_sub]
  generalize check.startTime / 1000 = first at hle ⊢
  generalize check.endTime / 1000 = last at hle ⊢
  constructor
  · intro h
    have hseconds : (last : ℚ) ≤ first := by linarith
    exact le_antisymm hle (by exact_mod_cast hseconds)
  · rintro rfl
    linarith

end Step

section Run

variable {checks : ℕ → Check} {totalPollingTime pollIntervalMs : ℚ}

theorem timeDeducted_iff (hclock : MonotoneClock checks) :
    TimeDeducted checks totalPollingTime pollIntervalMs ↔
      WithinSeconds checks totalPollingTime pollIntervalMs := by
  constructor
  · intro hdeducted n time htime hresult hstop hpos
    have honce := pollOnce_retrying.mpr ⟨hresult, hstop, hpos, rfl⟩
    have hnext : poll checks totalPollingTime pollIntervalMs (n + 1) =
        .retrying (newPollingTime time pollIntervalMs (checks n)) := by
      rw [poll, htime]
      exact honce
    exact (newPollingTime_le_iff (hclock n).1 hpos).mp (hdeducted n time _ htime hnext)
  · intro hwithin n time time' htime htime'
    obtain ⟨before, hbefore, honce⟩ := poll_succ_retrying htime'
    rw [htime] at hbefore
    cases hbefore
    obtain ⟨hresult, hstop, hpos, rfl⟩ := pollOnce_retrying.mp honce
    exact (newPollingTime_le_iff (hclock n).1 hpos).mpr (hwithin n time htime hresult hstop hpos)

/-- While each retry loses a time, the polling time pays for all of them. -/
theorem poll_retrying_le (lost : ℚ)
    (hlost : ∀ n time time', poll checks totalPollingTime pollIntervalMs n = .retrying time →
      poll checks totalPollingTime pollIntervalMs (n + 1) = .retrying time' →
      time' ≤ time - lost) :
    ∀ n time, poll checks totalPollingTime pollIntervalMs n = .retrying time →
      time ≤ totalPollingTime - n * lost := by
  intro n
  induction n with
  | zero =>
    intro time htime
    cases htime
    push_cast
    linarith
  | succ n ih =>
    intro time' htime'
    obtain ⟨time, htime, -⟩ := poll_succ_retrying htime'
    have hbefore := ih time htime
    have hstep := hlost n time time' htime htime'
    push_cast
    linarith

/-- A retry gives back less than a second. -/
theorem poll_retrying_le_back {n : ℕ} {time time' : ℚ}
    (htime : poll checks totalPollingTime pollIntervalMs n = .retrying time)
    (htime' : poll checks totalPollingTime pollIntervalMs (n + 1) = .retrying time') :
    time' ≤ time - (pollIntervalMs - 999) := by
  obtain ⟨before, hbefore, honce⟩ := poll_succ_retrying htime'
  rw [htime] at hbefore
  cases hbefore
  obtain ⟨-, -, hpos, rfl⟩ := pollOnce_retrying.mp honce
  have hstart : (getMilliseconds (checks n).startTime : ℚ) ≤ 999 := by
    exact_mod_cast Nat.le_of_lt_succ (Nat.mod_lt _ (by decide))
  have hend : (0 : ℚ) ≤ getMilliseconds (checks n).endTime := Nat.cast_nonneg _
  rw [newPollingTime_of_pos hpos]
  linarith

theorem poll_retrying_pos {n : ℕ} {time : ℚ}
    (h : poll checks totalPollingTime pollIntervalMs (n + 1) = .retrying time) : 0 < time := by
  obtain ⟨before, -, honce⟩ := poll_succ_retrying h
  exact (pollOnce_retrying.mp honce).2.2.1

/-- The promised number is at least one when the polling time is more than a negative
interval, and deducted times keep the checks below it. -/
theorem checksBounded_of_deducted (hinterval : 0 < pollIntervalMs)
    (htotal : -pollIntervalMs < totalPollingTime) (hclock : MonotoneClock checks)
    (hdeducted : TimeDeducted checks totalPollingTime pollIntervalMs) :
    ChecksBounded checks totalPollingTime pollIntervalMs := by
  intro n time htime
  cases n with
  | zero =>
    have hratio : -1 < totalPollingTime / pollIntervalMs := by
      rw [lt_div_iff₀ hinterval]
      linarith
    have hceil : (-1 : ℤ) < ⌈totalPollingTime / pollIntervalMs⌉ := by
      rw [Int.lt_ceil]
      exact_mod_cast hratio
    push_cast
    omega
  | succ n =>
    have hlost := poll_retrying_le pollIntervalMs ?_ (n + 1) time htime
    · have hpos := poll_retrying_pos htime
      have hratio : ((n + 1 : ℕ) : ℚ) < totalPollingTime / pollIntervalMs := by
        rw [lt_div_iff₀ hinterval]
        linarith
      have hceil : ((n + 1 : ℕ) : ℤ) < ⌈totalPollingTime / pollIntervalMs⌉ := by
        rw [Int.lt_ceil]
        exact_mod_cast hratio
      omega
    · intro n time time' htime htime'
      have hstep := hdeducted n time time' htime htime'
      have hforward : ((checks n).startTime : ℚ) ≤ (checks n).endTime := by
        exact_mod_cast (hclock n).1
      linarith

/-- The retries made cost an interval less 999 milliseconds each, so polling with intervals
of a second or longer ends. -/
theorem poll_retries_lt {n : ℕ} {time : ℚ}
    (h : poll checks totalPollingTime pollIntervalMs (n + 1) = .retrying time) :
    (n + 1) * (pollIntervalMs - 999) < totalPollingTime := by
  have hlost := poll_retrying_le (pollIntervalMs - 999) ?_ (n + 1) time h
  · have hpos := poll_retrying_pos h
    push_cast at hlost
    linarith
  · intro n time time' htime htime'
    exact poll_retrying_le_back htime htime'

/-- Polling makes no more checks than promised, each retry losing the interval and the time
of the check, exactly when the polling time is more than a negative interval and no check
that leaves polling time runs into another second. -/
theorem poll_bounded_exactly (checks : ℕ → Check) (totalPollingTime pollIntervalMs : ℚ)
    (hinterval : 0 < pollIntervalMs) (hclock : MonotoneClock checks) :
    (ChecksBounded checks totalPollingTime pollIntervalMs ∧
        TimeDeducted checks totalPollingTime pollIntervalMs) ↔
      -pollIntervalMs < totalPollingTime ∧
        WithinSeconds checks totalPollingTime pollIntervalMs := by
  rw [← timeDeducted_iff hclock]
  constructor
  · rintro ⟨hbounded, hdeducted⟩
    refine ⟨?_, hdeducted⟩
    have hfirst := hbounded 0 totalPollingTime rfl
    have hceil : (-1 : ℤ) < ⌈totalPollingTime / pollIntervalMs⌉ := by
      push_cast at hfirst
      omega
    rw [Int.lt_ceil, lt_div_iff₀ hinterval] at hceil
    push_cast at hceil
    linarith
  · rintro ⟨htotal, hdeducted⟩
    exact ⟨checksBounded_of_deducted hinterval htotal hclock hdeducted, hdeducted⟩

end Run

/-- Each check starts in the first millisecond of a second and ends as the next begins. -/
def wrappingChecks (n : ℕ) : Check := ⟨1000 * n + 1, 1000 * n + 1000, false, false⟩

theorem wrappingChecks_clock : MonotoneClock wrappingChecks := by
  intro n
  constructor
  · show 1000 * n + 1 ≤ 1000 * n + 1000
    omega
  · show 1000 * n + 1000 ≤ 1000 * (n + 1) + 1
    omega

/-- With an interval of a millisecond the polling time never changes. -/
theorem poll_wrapping (n : ℕ) : poll wrappingChecks 5 1 n = .retrying 5 := by
  induction n with
  | zero => rfl
  | succ n ih =>
    have hstart : getMilliseconds (wrappingChecks n).startTime = 1 := by
      show (1000 * n + 1) % 1000 = 1
      omega
    have hend : getMilliseconds (wrappingChecks n).endTime = 0 := by
      show (1000 * n + 1000) % 1000 = 0
      omega
    have hnew : newPollingTime 5 1 (wrappingChecks n) = 5 := by
      rw [newPollingTime, hstart, hend]
      norm_num
    rw [poll, ih]
    exact pollOnce_retrying.mpr ⟨rfl, rfl, by norm_num, hnew.symm⟩

/-- Checks within one second. -/
theorem poll_bounded_exactly_quick :
    (ChecksBounded (fun _ => ⟨7, 7, false, false⟩) 21 10 ∧
        TimeDeducted (fun _ => ⟨7, 7, false, false⟩) 21 10) ↔
      -10 < (21 : ℚ) ∧ WithinSeconds (fun _ => ⟨7, 7, false, false⟩) 21 10 :=
  poll_bounded_exactly (fun _ => ⟨7, 7, false, false⟩) 21 10 (by norm_num)
    (fun _ => ⟨le_rfl, le_rfl⟩)

/-- Five milliseconds of polling, one at a time, never end. -/
theorem poll_never_ends :
    ¬ ∀ (checks : ℕ → Check) (totalPollingTime pollIntervalMs : ℚ), 0 < pollIntervalMs →
      MonotoneClock checks → (∀ n, (checks n).result = false) →
      ChecksBounded checks totalPollingTime pollIntervalMs ∧
        TimeDeducted checks totalPollingTime pollIntervalMs := by
  intro hclaim
  obtain ⟨hbounded, -⟩ := hclaim wrappingChecks 5 1 one_pos wrappingChecks_clock (fun _ => rfl)
  have hcheck := hbounded 6 5 (poll_wrapping 6)
  norm_num at hcheck

end SymbolBootstrap.AsyncUtils
