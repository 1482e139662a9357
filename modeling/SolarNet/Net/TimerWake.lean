import SolarNet.Net.TimeRange
import SolarNet.Net.TimerPeriods

/-!
# The timerfd wakes the loop

`TimerQueue` is driven by the readability of `m_timer_fd` alone: `EventLoop::Loop`
sleeps in `Poll`, and `HandleRead` runs when the poller reports the descriptor.  Here
the queue is put together with the kernel's side of the descriptor and with a clock.
`SetTimerFd` reads the clock and passes a *relative* time to `timerfd_settime`, so the
deadline in the kernel is later than the expiration by the time between the two;
`lag` bounds it.  `timerfd_settime` also forgets the expirations counted so far.

The clock is the one of `Time::Now`, which is taken to advance like the kernel's.
-/

namespace SolarNet

/-- The kernel's side of `m_timer_fd`: the time of the next expiration, and the
expirations since the descriptor was last set or read.  It is readable while there
are any. -/
structure KernelTimer where
  deadline : Option Time
  ticks : ℕ
  deriving DecidableEq, Repr

namespace KernelTimer

/-- `timerfd_settime(fd, 0, &ts, nullptr)` at the time `time`. -/
def settime (timer : TimerFd) (time : Time) : KernelTimer :=
  match timer with
  | .disarmed => ⟨none, 0⟩
  | .armed _ value => ⟨some (time + (value.tvSec * nanosPerSecond + value.tvNsec)), 0⟩

/-- The clock has reached `time`.  `it_interval` is zero, so the timer expires once. -/
def reach (k : KernelTimer) (time : Time) : KernelTimer :=
  match k.deadline with
  | none => k
  | some deadline => if deadline ≤ time then ⟨none, k.ticks + 1⟩ else k

end KernelTimer

namespace TimerOp

variable {γ : Type*}

/-- The first clock reading of the call. -/
def start : TimerOp γ → Time
  | .runAt _ _ now => now
  | .runAfter _ _ start _ => start
  | .runEvery _ _ start _ => start
  | .cancel _ now => now

/-- The clock reading of its `SetTimerFd`. -/
def reading : TimerOp γ → Time
  | .runAt _ _ now => now
  | .runAfter _ _ _ now => now
  | .runEvery _ _ _ now => now
  | .cancel _ now => now

end TimerOp

/-- The call reaches `timerfd_settime`; a `Cancel` of an unknown id does not. -/
def TimerQueue.sets {γ : Type*} (q : TimerQueue γ) : TimerOp γ → Bool
  | .cancel id _ => (q.timers id).isSome
  | _ => true

/-- The queue, its descriptor in the kernel, and the clock.  `setAt` is history: the
clock reading of the last `SetTimerFd`. -/
structure TimedLoop (γ : Type*) where
  queue : TimerQueue γ
  kernel : KernelTimer
  clock : Time
  setAt : Time

/-- What the loop thread does next: it sleeps or does other work until a time, it calls
the queue, or it runs `HandleRead`.  The last two return at `done`, the time of their
last `timerfd_settime`. -/
inductive TimedEvent (γ : Type*) where
  | wait (time : Time)
  | call (op : TimerOp γ) (done : Time)
  | handleRead (now finish done : Time) (scripts : List (List (TimerOp γ)))

namespace TimedLoop

open Lib TimerQueue

variable {γ : Type*}

/-- The constructor of the queue, at the time `clock`. -/
def boot (fd : Int) (clock : Time) : TimedLoop γ where
  queue := TimerQueue.new fd
  kernel := ⟨none, 0⟩
  clock := clock
  setAt := clock

/-- The state after a call that has passed the queue's timer to the kernel. -/
def programmed (q : TimerQueue γ) (reading done : Time) : TimedLoop γ where
  queue := q
  kernel := KernelTimer.settime q.timer done
  clock := done
  setAt := reading

/-- One event.  Readings of the clock do not go back, and at most `lag` passes between
a reading and the `timerfd_settime` that uses it.  `HandleRead` is a callback of the
channel, which exists when the descriptor does. -/
def step (lag : Time) (w : TimedLoop γ) : TimedEvent γ → Option (TimedLoop γ)
  | .wait time =>
      if w.clock ≤ time then
        some { w with clock := time, kernel := w.kernel.reach time }
      else none
  | .call op done =>
      if w.clock ≤ op.start ∧ op.start ≤ op.reading ∧ op.reading ≤ done ∧
          done ≤ op.reading + lag then
        if w.queue.sets op && decide (0 ≤ w.queue.timerFd) then
          some (programmed (w.queue.apply op) op.reading done)
        else
          some { w with queue := w.queue.apply op, clock := done, kernel := w.kernel.reach done }
      else none
  | .handleRead now finish done scripts =>
      if 0 ≤ w.queue.timerFd ∧ w.clock ≤ now ∧ now ≤ finish ∧ finish ≤ done ∧
          done ≤ finish + lag then
        match processExpiredTimers now finish scripts w.queue with
        | .done q' => some (programmed q' finish done)
        | _ => none
      else none

/-! ## What the kernel knows -/

/-- The kernel timer and the queue.  A deadline belongs to the earliest timer and is
neither before its expiration nor much later; once it is over the descriptor is
readable, and it is readable for no other reason. -/
structure Watched (lag : Time) (fd : Int) (w : TimedLoop γ) : Prop where
  sound : Sound fd w.queue
  setAt_le : w.setAt ≤ w.clock
  armed : ∀ head, w.queue.earliest = some head → 0 < w.kernel.ticks ∨
    ∃ deadline, w.kernel.deadline = some deadline ∧ w.clock < deadline ∧
      deadline ≤ max (ofLex head).1 w.setAt + lag + 1
  meant : ∀ deadline, w.kernel.deadline = some deadline →
    ∃ head, w.queue.earliest = some head ∧ (ofLex head).1 ≤ deadline
  readable : 0 < w.kernel.ticks →
    ∃ head, w.queue.earliest = some head ∧ (ofLex head).1 ≤ w.clock

theorem boot_watched (lag : Time) (fd : Int) (clock : Time) :
    Watched lag fd (boot fd clock : TimedLoop γ) where
  sound := new_sound fd
  setAt_le := le_rfl
  armed := by
    intro head hHead
    have hNone : (TimerQueue.new fd : TimerQueue γ).earliest = none := earliest_eq_none.mpr rfl
    rw [show (boot fd clock : TimedLoop γ).queue = TimerQueue.new fd from rfl, hNone] at hHead
    cases hHead
  meant := by simp [boot]
  readable := by simp [boot]

/-- Time passes. -/
theorem Watched.reach {lag : Time} {fd : Int} {w : TimedLoop γ} (hWatched : Watched lag fd w)
    {time : Time} (hTime : w.clock ≤ time) :
    Watched lag fd { w with clock := time, kernel := w.kernel.reach time } := by
  refine ⟨hWatched.sound, hWatched.setAt_le.trans hTime, ?_, ?_, ?_⟩
  · intro head hHead
    rcases hWatched.armed head hHead with hTicks | ⟨deadline, hDeadline, hLater, hBound⟩
    · left
      simp only [KernelTimer.reach]
      split
      · exact hTicks
      · split
        · exact Nat.succ_pos _
        · exact hTicks
    · by_cases hOver : deadline ≤ time
      · left
        simp [KernelTimer.reach, hDeadline, hOver]
      · right
        refine ⟨deadline, ?_, not_le.mp hOver, hBound⟩
        simp [KernelTimer.reach, hDeadline, hOver]
  · intro deadline hDeadline
    refine hWatched.meant deadline ?_
    cases hOld : w.kernel.deadline with
    | none => simp [KernelTimer.reach, hOld] at hDeadline
    | some old =>
        by_cases hOver : old ≤ time
        · simp [KernelTimer.reach, hOld, hOver] at hDeadline
        · simpa [KernelTimer.reach, hOld, hOver] using hDeadline
  · intro hTicks
    cases hOld : w.kernel.deadline with
    | none =>
        obtain ⟨head, hHead, hDue⟩ := hWatched.readable (by
          simpa [KernelTimer.reach, hOld] using hTicks)
        exact ⟨head, hHead, hDue.trans hTime⟩
    | some old =>
        by_cases hOver : old ≤ time
        · obtain ⟨head, hHead, hDue⟩ := hWatched.meant old hOld
          exact ⟨head, hHead, hDue.trans hOver⟩
        · obtain ⟨head, hHead, hDue⟩ := hWatched.readable (by
            simpa [KernelTimer.reach, hOld, hOver] using hTicks)
          exact ⟨head, hHead, hDue.trans hTime⟩

/-- The deadline that a relative time gives, when the reading is at most `lag` old. -/
theorem deadline_bounds {expiration reading done lag : Int} (hReading : reading ≤ done)
    (hLag : done ≤ reading + lag) :
    done < done + (if expiration ≤ reading then 1 else expiration - reading) ∧
      done + (if expiration ≤ reading then 1 else expiration - reading) ≤
        max expiration reading + lag + 1 ∧
      expiration ≤ done + (if expiration ≤ reading then 1 else expiration - reading) := by
  split <;> omega

/-- The queue has just been programmed with a reading that is at most `lag` old. -/
theorem programmed_watched {lag : Time} {fd : Int} {q : TimerQueue γ} {reading done : Time}
    (hFd : 0 ≤ fd) (hSound : Sound fd (q.rearm reading)) (hReading : reading ≤ done)
    (hLag : done ≤ reading + lag) :
    Watched lag fd (programmed (q.rearm reading) reading done) := by
  obtain ⟨timer, hTimer⟩ := rearm_eq q reading
  have hFd' : 0 ≤ q.timerFd := by
    have hEq := hSound.timerFd_eq
    rw [hTimer] at hEq
    exact hFd.trans_eq hEq.symm
  have hEarliest : (q.rearm reading).earliest = q.earliest := by
    rw [hTimer]
    rfl
  have hKernel : (programmed (q.rearm reading) reading done).kernel =
      q.earliest.elim ⟨none, 0⟩ fun head =>
        ⟨some (done + if (ofLex head).1 ≤ reading then 1 else (ofLex head).1 - reading), 0⟩ := by
    cases hHead : q.earliest with
    | none => simp [programmed, rearm, hHead, disarm, hFd', KernelTimer.settime]
    | some head =>
        simp only [programmed, rearm, hHead, resetTimerFd, if_neg (not_lt.mpr hFd'),
          KernelTimer.settime, (timerSpec_total _ _).2.2, Option.elim_some]
  refine ⟨hSound, hReading, ?_, ?_, ?_⟩
  · intro head hHead
    rw [hEarliest.symm.trans hHead] at hKernel
    refine Or.inr ⟨_, congrArg KernelTimer.deadline hKernel, ?_, ?_⟩
    · exact (deadline_bounds hReading hLag).1
    · exact (deadline_bounds hReading hLag).2.1
  · intro deadline hDeadline
    rw [hKernel] at hDeadline
    cases hHead : q.earliest with
    | none =>
        rw [hHead] at hDeadline
        cases hDeadline
    | some head =>
        rw [hHead] at hDeadline
        obtain rfl := Option.some.inj hDeadline
        exact ⟨head, hEarliest.trans hHead, (deadline_bounds hReading hLag).2.2⟩
  · intro hTicks
    rw [hKernel] at hTicks
    cases hHead : q.earliest with
    | none =>
        rw [hHead] at hTicks
        exact absurd hTicks (lt_irrefl 0)
    | some head =>
        rw [hHead] at hTicks
        exact absurd hTicks (lt_irrefl 0)

/-! ## Every event -/

/-- A call that sets the timer ends in `ResetTimerFd` or in the zero `itimerspec`. -/
theorem apply_of_sets {q : TimerQueue γ} {op : TimerOp γ} (hSets : q.sets op = true) :
    ∃ q' : TimerQueue γ, q.apply op = q'.rearm op.reading := by
  cases op with
  | runAt time callback now => exact ⟨_, addTimer_eq q _ _ callback now⟩
  | runAfter delay callback start now => exact ⟨_, addTimer_eq q _ _ callback now⟩
  | runEvery interval callback start now => exact ⟨_, addTimer_eq q _ _ callback now⟩
  | cancel id now =>
      obtain ⟨entry, hEntry⟩ := Option.isSome_iff_exists.mp hSets
      exact ⟨_, cancel_some hEntry now⟩

theorem apply_of_not_sets {q : TimerQueue γ} {op : TimerOp γ} (hSets : q.sets op = false) :
    q.apply op = q := by
  cases op with
  | runAt time callback now => cases hSets
  | runAfter delay callback start now => cases hSets
  | runEvery interval callback start now => cases hSets
  | cancel id now =>
      cases hEntry : q.timers id with
      | none => exact cancel_none hEntry now
      | some entry => simp [sets, hEntry] at hSets

/-- `HandleRead` is a pass of the queue, which sets the descriptor at its end. -/
theorem step_handleRead {lag : Time} {w w' : TimedLoop γ} {now finish done : Time}
    {scripts : List (List (TimerOp γ))}
    (hStep : step lag w (.handleRead now finish done scripts) = some w') :
    (finish ≤ done ∧ done ≤ finish + lag) ∧ w' = programmed w'.queue finish done ∧
      TimerQueue.step w.queue (.process now finish scripts) = some w'.queue := by
  simp only [step] at hStep
  split at hStep
  case isFalse => cases hStep
  case isTrue hTimes =>
    split at hStep
    case h_2 => cases hStep
    case h_1 q' hPass =>
      obtain rfl := Option.some.inj hStep
      exact ⟨hTimes.2.2.2, rfl, by simp [TimerQueue.step, hPass, programmed]⟩

theorem step_watched {lag : Time} {fd : Int} (hFd : 0 ≤ fd) {w w' : TimedLoop γ}
    {event : TimedEvent γ} (hWatched : Watched lag fd w) (hStep : step lag w event = some w') :
    Watched lag fd w' := by
  have hQueue : 0 ≤ w.queue.timerFd := hFd.trans_eq hWatched.sound.timerFd_eq.symm
  cases event with
  | wait time =>
      simp only [step] at hStep
      split at hStep
      case isFalse => cases hStep
      case isTrue hTime =>
        obtain rfl := Option.some.inj hStep
        exact hWatched.reach hTime
  | call op done =>
      simp only [step, hQueue, decide_true, Bool.and_true] at hStep
      split at hStep
      case isFalse => cases hStep
      case isTrue hTimes =>
        obtain ⟨hStart, hReading, hDone, hLag⟩ := hTimes
        have hCall : TimerQueue.step w.queue (.call op) = some (w.queue.apply op) := rfl
        have hNext : Sound fd (w.queue.apply op) := step_sound hWatched.sound hCall
        cases hSets : w.queue.sets op with
        | true =>
            obtain ⟨q', hApply⟩ := apply_of_sets hSets
            rw [hSets, if_pos rfl, hApply] at hStep
            obtain rfl := Option.some.inj hStep
            exact programmed_watched hFd (hApply ▸ hNext) hDone hLag
        | false =>
            rw [hSets, if_neg Bool.false_ne_true, apply_of_not_sets hSets] at hStep
            obtain rfl := Option.some.inj hStep
            exact hWatched.reach (hStart.trans (hReading.trans hDone))
  | handleRead now finish done scripts =>
      obtain ⟨⟨hDone, hLag⟩, hSet, hProcess⟩ := step_handleRead hStep
      have hNext : Sound fd w'.queue := step_sound hWatched.sound hProcess
      obtain ⟨op, hCall, -⟩ | ⟨_, _, _, middle, hEq, -, hLast⟩ := step_eq_some hProcess
      · cases hCall
      · obtain ⟨rfl, rfl, rfl⟩ := Action.process.inj hEq
        rw [hLast] at hSet hNext
        rw [hSet]
        exact programmed_watched hFd hNext hDone hLag

theorem exec_watched {lag : Time} {fd : Int} (hFd : 0 ≤ fd) {clock : Time}
    {events : List (TimedEvent γ)} {w : TimedLoop γ}
    (hRun : exec (step lag) (boot fd clock) events = some w) : Watched lag fd w :=
  exec_invariant (Watched lag fd) (fun _ _ _ hWatched hStep => step_watched hFd hWatched hStep)
    (boot_watched lag fd clock) hRun

/-- A pass fires a timer that is due and that no callback of the pass cancels. -/
theorem fires_of_due {fd : Int} {q q' : TimerQueue γ} (hSound : Sound fd q) {now finish : Time}
    {scripts : List (List (TimerOp γ))}
    (hStep : TimerQueue.step q (.process now finish scripts) = some q') {id : TimerId}
    {entry : TimerEntry γ} (hEntry : q.timers id = some entry) (hDue : entry.expiration ≤ now)
    (hSpared : ∀ script ∈ scripts, ∀ op ∈ script, op.cancels id = false) :
    ∃ n, 1 ≤ n ∧ invocations id q' = invocations id q ++ (entry.calls n).map (·, id) := by
  obtain ⟨n, hCourse⟩ := exec_course hSound hEntry
    (exec_cons_eq_some.mpr ⟨q', hStep, exec_nil TimerQueue.step q'⟩)
  refine ⟨n, ?_, hCourse.invocations_eq⟩
  by_contra hNot
  obtain rfl : n = 0 := by omega
  rcases hCourse.entry_eq with hStill | hGone
  · rw [TimerEntry.later_zero] at hStill
    exact absurd hDue (not_le.mpr (step_process_late hSound.coherent hStep hStill))
  · have hKept := hCourse.kept (by simpa [Action.spares] using hSpared) hGone
    exact absurd hKept.2 Nat.zero_ne_one

/-- A timer for a time that is over already.  The descriptor is set to one nanosecond,
and the loop is woken. -/
def overdueTimer : List (TimedEvent Unit) :=
  [.wait 100, .call (.runAt 40 (some ()) 105) 120, .wait 200]

end TimedLoop
end SolarNet
