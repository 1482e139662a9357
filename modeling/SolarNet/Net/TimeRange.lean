import SolarNet.Lib.Signed
import SolarNet.Net.TimerQueueInvariant

/-!
# The arithmetic of timers on 64-bit time points

`Time` is a count of nanoseconds in a signed 64-bit integer.  The functions of
`timer_queue.cpp` that compute with time points are modelled here once more, in
the arithmetic of the machine: a difference or a sum of time points, and a
conversion of milliseconds to nanoseconds, has no value when it overflows.

Where the functions have a value, it is the one of the exact arithmetic in
`TimerQueue.lean`; the file shows for which arguments that is the case.
-/

namespace SolarNet

open Lib.Signed

/-- `INT_MAX`. -/
def intMax : Int := 2147483647

/-- `TimePoint::min()`, the value of a default-constructed `Time`. -/
def Time.min : Time := -9223372036854775808

/-- `std::chrono::milliseconds::max()`, a delay. -/
def millisecondsMax : Int := 9223372036854775807

/-- `TimePoint - TimePoint`, in nanoseconds. -/
def timeSince (time now : Time) : Option Int :=
  checked 64 (time - now)

/-- `TimePoint + milliseconds`: the count is converted to nanoseconds first. -/
def timePlus (time : Time) (delay : Int) : Option Time := do
  let nanoseconds ← checked 64 (delay * nanosPerMilli)
  checked 64 (time + nanoseconds)

/-- The value that `SetTimerFd` passes to `timerfd_settime`. -/
def timerSpec64 (expiration now : Time) : Option TimerSpec := do
  let delay ← timeSince expiration now
  let delay := if delay < 0 then 0 else delay
  let seconds := delay.tdiv nanosPerSecond
  let whole ← checked 64 (seconds * nanosPerSecond)
  let nanoseconds ← checked 64 (delay - whole)
  if seconds = 0 ∧ nanoseconds = 0 then some ⟨0, 1⟩ else some ⟨seconds, nanoseconds⟩

/-- `NextTimeout` when `expiration` is the first of `m_active_timers`. -/
def timeoutUntil (expiration now : Time) : Option Int := do
  let delay ← timeSince expiration now
  if delay ≤ 0 then some 0
  else
    let delayMs := delay.tdiv nanosPerMilli
    if delayMs > intMax then some intMax else some (convert 32 delayMs)

namespace TimerQueue

variable {γ : Type*}

def nextTimeout (q : TimerQueue γ) (now : Time) : Option Int :=
  match q.earliest with
  | none => some (-1)
  | some head => timeoutUntil (ofLex head).1 now

/-- `RunAfter` up to the call of `ResetTimerFd`; `start` is its clock reading. -/
def storeAfter (q : TimerQueue γ) (delay : Int) (callback : Option γ) (start : Time) :
    Option (TimerQueue γ) :=
  (timePlus start delay).map fun expiration => q.withTimer expiration 0 callback

/-- `RunEvery` up to the call of `ResetTimerFd`. -/
def storeEvery (q : TimerQueue γ) (interval : Int) (callback : Option γ) (start : Time) :
    Option (TimerQueue γ) :=
  (timePlus start interval).map fun expiration => q.withTimer expiration interval callback

end TimerQueue

/-! ## Where the arithmetic is exact -/

/-- Where the difference fits, the later steps of `SetTimerFd` cannot overflow. -/
theorem timerSpec64_of_fits {expiration now : Int} (hFits : Fits 64 (expiration - now)) :
    timerSpec64 expiration now = some (timerSpec expiration now) := by
  have hSince : timeSince expiration now = some (expiration - now) := checked_of_fits hFits
  simp only [timerSpec64, hSince, Option.bind_eq_bind, Option.bind_some]
  rw [fits_64_iff] at hFits
  unfold timerSpec
  generalize hDelay : (if expiration - now < 0 then 0 else expiration - now) = delay
  have hNonneg : 0 ≤ delay := by
    rw [← hDelay]
    split <;> omega
  have hUpper : delay < 9223372036854775808 := by
    rw [← hDelay]
    split <;> omega
  have hSeconds : delay.tdiv nanosPerSecond = delay / nanosPerSecond :=
    Int.tdiv_eq_ediv_of_nonneg hNonneg
  have hWhole : Fits 64 (delay / nanosPerSecond * nanosPerSecond) := by
    rw [fits_64_iff, nanosPerSecond]
    omega
  have hRest : Fits 64 (delay - delay / nanosPerSecond * nanosPerSecond) := by
    rw [fits_64_iff, nanosPerSecond]
    omega
  rw [hSeconds, checked_of_fits hWhole, Option.bind_some, checked_of_fits hRest,
    Option.bind_some]
  exact (apply_ite some _ _ _).symm

theorem timerSpec64_eq_some {expiration now : Int} {spec : TimerSpec}
    (hSpec : timerSpec64 expiration now = some spec) : Fits 64 (expiration - now) := by
  by_contra hNot
  simp [timerSpec64, timeSince, checked, hNot] at hSpec

theorem timerSpec_due {expiration now : Int} (hDue : expiration ≤ now) :
    timerSpec expiration now = ⟨0, 1⟩ := by
  have hDelay : (if expiration - now < 0 then 0 else expiration - now) = 0 := by
    split <;> omega
  simp only [timerSpec, hDelay]
  rfl

theorem timerSpec_later {expiration now : Int} (hLater : now < expiration) :
    timerSpec expiration now = ⟨(expiration - now) / nanosPerSecond,
      expiration - now - (expiration - now) / nanosPerSecond * nanosPerSecond⟩ := by
  have hNonneg : ¬ expiration - now < 0 := by omega
  have hPositive : ¬ ((expiration - now) / nanosPerSecond = 0 ∧
      expiration - now - (expiration - now) / nanosPerSecond * nanosPerSecond = 0) := by
    rw [nanosPerSecond]
    omega
  simp only [timerSpec, if_neg hNonneg, if_neg hPositive]

/-- The value is the time until the expiration, and one nanosecond when that is over. -/
theorem timerSpec_total (expiration now : Int) :
    0 ≤ (timerSpec expiration now).tvNsec ∧ (timerSpec expiration now).tvNsec < nanosPerSecond ∧
      (timerSpec expiration now).tvSec * nanosPerSecond + (timerSpec expiration now).tvNsec =
        if expiration ≤ now then 1 else expiration - now := by
  by_cases hDue : expiration ≤ now
  · rw [timerSpec_due hDue, if_pos hDue]
    decide
  · rw [timerSpec_later (not_le.mp hDue), if_neg hDue]
    simp only [nanosPerSecond]
    omega

theorem timeoutUntil_of_fits {expiration now : Int} (hFits : Fits 64 (expiration - now)) :
    timeoutUntil expiration now =
      some (if expiration ≤ now then 0 else min intMax ((expiration - now) / nanosPerMilli)) := by
  have hSince : timeSince expiration now = some (expiration - now) := checked_of_fits hFits
  simp only [timeoutUntil, hSince, Option.bind_eq_bind, Option.bind_some]
  by_cases hDue : expiration ≤ now
  · rw [if_pos hDue, if_pos (by omega)]
  · have hPos : 0 ≤ expiration - now := by omega
    have hMs : (expiration - now).tdiv nanosPerMilli = (expiration - now) / nanosPerMilli :=
      Int.tdiv_eq_ediv_of_nonneg hPos
    have hMsNonneg : 0 ≤ (expiration - now) / nanosPerMilli := Int.ediv_nonneg hPos (by decide)
    rw [if_neg hDue, if_neg (by omega), hMs]
    by_cases hLong : (expiration - now) / nanosPerMilli > intMax
    · rw [if_pos hLong, min_eq_left hLong.le]
    · have hShort := not_lt.mp hLong
      rw [if_neg hLong, convert_32 hMsNonneg hShort, min_eq_right hShort]

/-- The sum has a value when the delay in nanoseconds and the sum fit. -/
theorem timePlus_eq_some_iff {start delay result : Int} :
    timePlus start delay = some result ↔
      Fits 64 (delay * nanosPerMilli) ∧ Fits 64 (start + delay * nanosPerMilli) ∧
        result = start + delay * nanosPerMilli := by
  simp only [timePlus, Option.bind_eq_bind, Option.bind_eq_some_iff, checked_eq_some_iff]
  constructor
  · rintro ⟨_, ⟨hDelay, rfl⟩, hSum, rfl⟩
    exact ⟨hDelay, hSum, rfl⟩
  · rintro ⟨hDelay, hSum, rfl⟩
    exact ⟨_, ⟨hDelay, rfl⟩, hSum, rfl⟩

/-! ## The functions meet their purpose -/

/-- `SetTimerFd` arms the timer for one nanosecond when the time is over, and for the
time that is left otherwise. -/
def ArmsExactly (expiration now : Time) : Prop :=
  ∃ spec, timerSpec64 expiration now = some spec ∧
    0 ≤ spec.tvNsec ∧ spec.tvNsec < nanosPerSecond ∧
    spec.tvSec * nanosPerSecond + spec.tvNsec =
      if expiration ≤ now then 1 else expiration - now

/-- `NextTimeout` is zero when the time of the earliest timer is over, and the whole
milliseconds that are left otherwise. -/
def WaitsExactly (γ : Type*) (expiration now : Time) : Prop :=
  ∀ (q : TimerQueue γ) (id : TimerId), q.earliest = some (toLex (expiration, id)) →
    q.nextTimeout now =
      some (if expiration ≤ now then 0 else min intMax ((expiration - now) / nanosPerMilli))

/-- What was stored for a delay: the exact expiration if it is a time point, and never
one that is over already. -/
def StoresExactly {γ : Type*} (q : TimerQueue γ) (delay : Int) (start : Time)
    (stored : Option (TimerQueue γ)) : Prop :=
  ∃ q' entry, stored = some q' ∧ q'.timers q.nextId = some entry ∧
    start ≤ entry.expiration ∧
    (Fits 64 (start + delay * nanosPerMilli) →
      entry.expiration = start + delay * nanosPerMilli)

/-- All of the functions, for a time point, a delay and a clock reading. -/
structure TimesExact (γ : Type*) (time : Time) (delay : Int) (now : Time) : Prop where
  arms : ArmsExactly time now
  waits : WaitsExactly γ time now
  runAfter : ∀ (q : TimerQueue γ) callback,
    StoresExactly q delay now (q.storeAfter delay callback now)
  runEvery : ∀ (q : TimerQueue γ) callback,
    StoresExactly q delay now (q.storeEvery delay callback now)

/-- The functions in exact arithmetic are these functions followed by `ResetTimerFd`. -/
theorem runAfter_eq_storeAfter {γ : Type*} {q q' : TimerQueue γ} {delay : Int}
    {callback : Option γ} {start : Time} (hStored : q.storeAfter delay callback start = some q')
    (now : Time) : (q.runAfter delay callback start now).1 = q'.rearm now := by
  obtain ⟨expiration, hPlus, rfl⟩ := Option.map_eq_some_iff.mp hStored
  obtain ⟨-, -, rfl⟩ := timePlus_eq_some_iff.mp hPlus
  exact TimerQueue.addTimer_eq q _ 0 callback now

theorem runEvery_eq_storeEvery {γ : Type*} {q q' : TimerQueue γ} {interval : Int}
    {callback : Option γ} {start : Time}
    (hStored : q.storeEvery interval callback start = some q')
    (now : Time) : (q.runEvery interval callback start now).1 = q'.rearm now := by
  obtain ⟨expiration, hPlus, rfl⟩ := Option.map_eq_some_iff.mp hStored
  obtain ⟨-, -, rfl⟩ := timePlus_eq_some_iff.mp hPlus
  exact TimerQueue.addTimer_eq q _ interval callback now

/-- A timer is stored exactly when the sum is a time point. -/
theorem storesExactly_iff {γ : Type*} (q : TimerQueue γ) {start delay : Int} (interval : Int)
    (callback : Option γ) (hStart : 0 ≤ start) (hDelay : 0 ≤ delay) :
    StoresExactly q delay start
        ((timePlus start delay).map fun expiration => q.withTimer expiration interval callback) ↔
      start + delay * nanosPerMilli < 9223372036854775808 := by
  have hNanos : 0 ≤ delay * nanosPerMilli := Int.mul_nonneg hDelay (by decide)
  constructor
  · rintro ⟨q', entry, hStored, -⟩
    obtain ⟨expiration, hPlus, -⟩ := Option.map_eq_some_iff.mp hStored
    obtain ⟨-, hSum, -⟩ := timePlus_eq_some_iff.mp hPlus
    exact (fits_64_iff.mp hSum).2
  · intro hSum
    have hPlus : timePlus start delay = some (start + delay * nanosPerMilli) := by
      rw [timePlus_eq_some_iff, fits_64_iff, fits_64_iff]
      omega
    refine ⟨q.withTimer (start + delay * nanosPerMilli) interval callback,
      ⟨q.nextId, start + delay * nanosPerMilli, interval, callback⟩, ?_, ?_, ?_, fun _ => rfl⟩
    · rw [hPlus]
      rfl
    · simp [TimerQueue.withTimer]
    · exact le_add_of_nonneg_right hNanos

/-- **Timer arithmetic on the range of `Time`.**  For every clock reading from the epoch
on, every time point and every delay: the functions are exact if and only if the time
point is not more than the range of the type before the clock reading, and the delay does
not lead beyond the last time point. -/
theorem timesExact_iff {γ : Type*} {time delay now : Int} (hNow : 0 ≤ now)
    (hTime : Fits 64 time) (hDelay : 0 ≤ delay) :
    TimesExact γ time delay now ↔
      -9223372036854775808 ≤ time - now ∧
        now + delay * nanosPerMilli < 9223372036854775808 := by
  rw [fits_64_iff] at hTime
  constructor
  · rintro ⟨⟨spec, hSpec, -⟩, -, hAfter, -⟩
    refine ⟨(fits_64_iff.mp (timerSpec64_eq_some hSpec)).1, ?_⟩
    exact (storesExactly_iff (TimerQueue.new 0) 0 none hNow hDelay).mp
      (hAfter (TimerQueue.new 0) none)
  · rintro ⟨hSince, hSum⟩
    have hFits : Fits 64 (time - now) := by
      rw [fits_64_iff]
      omega
    constructor
    · exact ⟨_, timerSpec64_of_fits hFits, timerSpec_total time now⟩
    · intro q id hHead
      simp only [TimerQueue.nextTimeout, hHead]
      exact timeoutUntil_of_fits hFits
    · intro q callback
      exact (storesExactly_iff q 0 callback hNow hDelay).mpr hSum
    · intro q callback
      exact (storesExactly_iff q delay callback hNow hDelay).mpr hSum

/-- A timer for a time point in the past and a delay of one hour. -/
theorem timesExact_hour : TimesExact Unit 1000 3600000 1700000000000000000 :=
  (timesExact_iff (by decide) (by decide) (by decide)).mpr (by decide)

/-- The default-constructed `Time` one nanosecond after the epoch, and the longest delay. -/
theorem not_timesExact_extremes :
    ¬ ArmsExactly Time.min 1 ∧ ¬ TimesExact Unit Time.min 0 1 ∧
      ¬ TimesExact Unit 1 millisecondsMax 1 := by
  refine ⟨?_, ?_, ?_⟩
  · rintro ⟨spec, hSpec, -⟩
    cases hSpec
  · rintro ⟨⟨spec, hSpec, -⟩, -, -, -⟩
    cases hSpec
  · rintro ⟨-, -, hAfter, -⟩
    obtain ⟨q', entry, hStored, -⟩ := hAfter (TimerQueue.new 0) none
    cases hStored

end SolarNet
