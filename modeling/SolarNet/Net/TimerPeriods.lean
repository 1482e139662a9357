import SolarNet.Net.TimerExpiry
import SolarNet.Net.TimerPassEnds
import SolarNet.Net.TimerSelfCancel

/-!
# A timer keeps its schedule

`ProcessExpiredTimers` reschedules a periodic timer from its previous expiration and
not from the clock, so the times at which its callback is invoked form an arithmetic
progression, however late the passes are and whatever the callbacks call.  `Course`
says what has become of one timer since a state in which its entry was `entry`: it has
been fired `n` times, and its entry has moved by `n` periods or is gone.  Every call,
every iteration of a pass and every pass continues the course.
-/

namespace SolarNet

variable {γ : Type*}

namespace TimerEntry

/-- The entry after `n` firings. -/
def later (entry : TimerEntry γ) (n : ℕ) : TimerEntry γ :=
  { entry with expiration := entry.expiration + n * entry.period }

/-- The first `n` times of the schedule. -/
def times (entry : TimerEntry γ) (n : ℕ) : List Time :=
  (List.range n).map fun (k : ℕ) => entry.expiration + k * entry.period

/-- The invocations that `n` firings amount to; an empty function is not invoked. -/
def calls (entry : TimerEntry γ) (n : ℕ) : List Time :=
  if entry.callback.isSome then entry.times n else []

@[simp] theorem later_zero (entry : TimerEntry γ) : entry.later 0 = entry := by
  simp [later]

theorem times_succ (entry : TimerEntry γ) (n : ℕ) :
    entry.times (n + 1) = entry.times n ++ [(entry.later n).expiration] := by
  simp [times, later, List.range_succ]

theorem calls_succ_of_some {entry : TimerEntry γ} {callback : γ}
    (hCallback : entry.callback = some callback) (n : ℕ) :
    entry.calls (n + 1) = entry.calls n ++ [(entry.later n).expiration] := by
  simp [calls, hCallback, times_succ]

theorem calls_of_none {entry : TimerEntry γ} (hCallback : entry.callback = none) (n : ℕ) :
    entry.calls n = [] := by
  simp [calls, hCallback]

/-- Firing once more is one more period. -/
theorem fire_later {entry : TimerEntry γ} (hPeriodic : 0 < entry.interval) (n : ℕ) :
    (entry.later n).fire = some (entry.later (n + 1)) := by
  have hNext : entry.expiration + n * entry.period + entry.period =
      entry.expiration + ((n + 1 : ℕ) : Int) * entry.period := by
    push_cast
    ring
  have hLater : 0 < (entry.later n).interval := hPeriodic
  rw [fire, if_pos hLater]
  exact congrArg (fun time => some { entry with expiration := time }) hNext

theorem fire_oneShot {entry : TimerEntry γ} (hOneShot : ¬ 0 < entry.interval) (n : ℕ) :
    (entry.later n).fire = none := by
  simp [fire, later, hOneShot]

/-- A timer is never moved to an earlier time. -/
theorem expiration_le_later {entry : TimerEntry γ} {n : ℕ}
    (hOneShot : ¬ 0 < entry.interval → n = 0) :
    entry.expiration ≤ (entry.later n).expiration := by
  by_cases hPeriodic : 0 < entry.interval
  · have hAdded : 0 ≤ (n : Int) * entry.period :=
      mul_nonneg (Int.natCast_nonneg n) (period_pos hPeriodic).le
    simpa [later] using hAdded
  · rw [hOneShot hPeriodic, later_zero]

end TimerEntry

namespace TimerQueue

open Lib

/-- No call of the action cancels the timer. -/
def Action.spares (id : TimerId) : Action γ → Bool
  | .call op => !op.cancels id
  | .process _ _ scripts => scripts.all fun script => script.all fun op => !op.cancels id

/-- What has become of the timer `id` between `q`, where its entry was `entry`, and
`q'`.  `Spared` says that nobody cancels it, and `Read` holds of the clock readings of
the passes. -/
structure Course (Spared : Prop) (Read : Time → Prop) (id : TimerId) (entry : TimerEntry γ)
    (q q' : TimerQueue γ) (n : ℕ) : Prop where
  known : id < q'.nextId
  entry_eq : q'.timers id = some (entry.later n) ∨ q'.timers id = none
  invocations_eq : invocations id q' = invocations id q ++ (entry.calls n).map (·, id)
  due : ∀ time ∈ entry.times n, ∃ now, Read now ∧ time ≤ now
  oneShot : ¬ 0 < entry.interval → n = 0 ∨ (n = 1 ∧ q'.timers id = none)
  kept : Spared → q'.timers id = none → ¬ 0 < entry.interval ∧ n = 1

variable {Spared : Prop} {Read : Time → Prop} {id : TimerId} {entry : TimerEntry γ}
  {q q' q'' : TimerQueue γ} {n : ℕ}

theorem Course.start (hKnown : id < q.nextId) (hEntry : q.timers id = some entry) :
    Course Spared Read id entry q q 0 where
  known := hKnown
  entry_eq := Or.inl (by simpa using hEntry)
  invocations_eq := by simp [TimerEntry.calls, TimerEntry.times]
  due := by simp [TimerEntry.times]
  oneShot := fun _ => Or.inl rfl
  kept := by simp [hEntry]

/-- The course of a timer that is gone is over. -/
theorem Course.of_staysGone (hCourse : Course Spared Read id entry q q' n)
    (hGone : q'.timers id = none) (hStays : StaysGone id q' q'') :
    Course Spared Read id entry q q'' n where
  known := hStays.gone.1
  entry_eq := Or.inr hStays.gone.2
  invocations_eq := hStays.invocations_eq.trans hCourse.invocations_eq
  due := hCourse.due
  oneShot := fun hOneShot => (hCourse.oneShot hOneShot).imp_right fun h => ⟨h.1, hStays.gone.2⟩
  kept := fun hSpared _ => hCourse.kept hSpared hGone

/-- Steps that do not fire the timer: it keeps its entry, unless somebody cancels it. -/
theorem Course.of_timers (hCourse : Course Spared Read id entry q q' n)
    (hKnown : q'.nextId ≤ q''.nextId) (hInvocations : invocations id q'' = invocations id q')
    (hTimers : q''.timers id = q'.timers id ∨ (¬ Spared ∧ q''.timers id = none)) :
    Course Spared Read id entry q q'' n where
  known := lt_of_lt_of_le hCourse.known hKnown
  entry_eq := by
    rcases hTimers with hSame | ⟨-, hGone⟩
    · rw [hSame]
      exact hCourse.entry_eq
    · exact Or.inr hGone
  invocations_eq := hInvocations.trans hCourse.invocations_eq
  due := hCourse.due
  oneShot := by
    intro hOneShot
    refine (hCourse.oneShot hOneShot).imp_right ?_
    rintro ⟨hOne, hGone⟩
    refine ⟨hOne, ?_⟩
    rcases hTimers with hSame | ⟨-, hGone'⟩
    · rw [hSame, hGone]
    · exact hGone'
  kept := by
    intro hSpared hGone
    rcases hTimers with hSame | ⟨hCancelled, -⟩
    · exact hCourse.kept hSpared (hSame.symm.trans hGone)
    · exact absurd hSpared hCancelled

/-! ## One call and one callback -/

theorem Course.apply (hCourse : Course Spared Read id entry q q' n) {op : TimerOp γ}
    (hOp : Spared → op.cancels id = false) : Course Spared Read id entry q (q'.apply op) n := by
  refine hCourse.of_timers (nextId_le_apply q' op) ?_ ?_
  · simp only [invocations, apply_fired]
  · cases hCancels : op.cancels id with
    | false => exact Or.inl (apply_timers hCourse.known hCancels)
    | true =>
        obtain ⟨now, rfl⟩ := TimerOp.cancels_iff.mp hCancels
        refine Or.inr ⟨fun hSpared => ?_, cancel_timers q' id now⟩
        rw [hOp hSpared] at hCancels
        cases hCancels

theorem Course.runScript (hCourse : Course Spared Read id entry q q' n)
    {script : List (TimerOp γ)} (hScript : Spared → ∀ op ∈ script, op.cancels id = false) :
    Course Spared Read id entry q (q'.runScript script) n := by
  induction script generalizing q' with
  | nil => exact hCourse
  | cons op script ih =>
      refine ih (hCourse.apply fun hSpared => hScript hSpared op List.mem_cons_self) ?_
      exact fun hSpared other hOther => hScript hSpared other (List.mem_cons_of_mem op hOther)

/-! ## One iteration of a pass -/

theorem runScript_fired (q : TimerQueue γ) (script : List (TimerOp γ)) :
    (q.runScript script).fired = q.fired := by
  induction script generalizing q with
  | nil => rfl
  | cons op script ih => rw [runScript_cons, ih, apply_fired]

theorem settle_fired {id : TimerId} (hSettle : q.settle id = .next q') :
    q'.fired = q.fired ∧ q'.nextId = q.nextId := by
  obtain ⟨entry, -, ⟨-, rfl⟩ | ⟨-, rfl⟩⟩ := settle_cases hSettle
  · exact ⟨rfl, rfl⟩
  · exact ⟨rfl, rfl⟩

/-- What a callback adds to the history is its own invocation. -/
theorem invoke_fired (q : TimerQueue γ) (entry : TimerEntry γ) (id : TimerId)
    (script : List (TimerOp γ)) :
    (q.invoke entry id script).fired =
      q.fired ++ if entry.callback.isSome then [(entry.expiration, id)] else [] := by
  unfold invoke
  cases hCallback : entry.callback with
  | none => simp
  | some callback => simp [runScript_fired]

/-- An iteration that expires another timer. -/
theorem Course.expire_other (hCourse : Course Spared Read id entry q q' n)
    {head : Time ×ₗ TimerId} {found : TimerEntry γ} {script : List (TimerOp γ)}
    (hOther : (ofLex head).2 ≠ id) (hScript : Spared → ∀ op ∈ script, op.cancels id = false)
    (hSettle : ((q'.pop head).invoke found (ofLex head).2 script).settle (ofLex head).2 =
      .next q'') : Course Spared Read id entry q q'' n := by
  have hInvoked : Course Spared Read id entry q
      ((q'.pop head).invoke found (ofLex head).2 script) n := by
    unfold invoke
    split
    · refine Course.runScript ?_ hScript
      exact hCourse.of_timers le_rfl (by simp [invocations, pop, hOther]) (Or.inl rfl)
    · exact hCourse.of_timers le_rfl rfl (Or.inl rfl)
  refine hInvoked.of_timers (settle_fired hSettle).2.ge ?_ (Or.inl ?_)
  · simp only [invocations, (settle_fired hSettle).1]
  · obtain ⟨settled, hSettled, -⟩ := settle_cases hSettle
    rw [settle_timers hSettled hSettle]
    exact Function.update_of_ne hOther.symm _ _

/-- An iteration that expires the timer itself. -/
theorem Course.expire_self (hCourse : Course Spared Read id entry q q' n) {now : Time}
    (hNow : Read now) (hDue : (entry.later n).expiration ≤ now) {head : Time ×ₗ TimerId}
    {script : List (TimerOp γ)}
    (hFound : q'.timers id = some (entry.later n))
    (hSettle : ((q'.pop head).invoke (entry.later n) id script).settle id = .next q'') :
    Course Spared Read id entry q q'' (n + 1) := by
  have hInvoked : ((q'.pop head).invoke (entry.later n) id script).timers id =
      some (entry.later n) := by
    obtain ⟨settled, hSettled, -⟩ := settle_cases hSettle
    -- The script did not cancel the timer, since the iteration goes on.
    rcases invoke_cases (q'.pop head) (entry.later n) id script with
      ⟨-, hSame⟩ | ⟨callback, logged, hCallback, hRuns⟩
    · rw [hSame]
      exact hFound
    · have hSpares : ∀ op ∈ script, op.cancels id = false := by
        intro op hOp
        by_contra hCancels
        have hGone := runScript_timers_of_cancels (q := { q'.pop head with fired := logged })
          hCourse.known ⟨op, hOp, by simpa using hCancels⟩
        rw [hRuns, hGone] at hSettled
        cases hSettled
      rw [hRuns, runScript_timers (q := { q'.pop head with fired := logged }) hCourse.known hSpares]
      exact hFound
  have hTimers : q''.timers id = (entry.later n).fire := by
    rw [settle_timers hInvoked hSettle]
    exact Function.update_self _ _ _
  refine ⟨?_, ?_, ?_, ?_, ?_, ?_⟩
  · rw [(settle_fired hSettle).2]
    exact lt_of_lt_of_le hCourse.known (nextId_le_invoke (q'.pop head) _ _ _)
  · by_cases hPeriodic : 0 < entry.interval
    · exact Or.inl (hTimers.trans (TimerEntry.fire_later hPeriodic n))
    · exact Or.inr (hTimers.trans (TimerEntry.fire_oneShot hPeriodic n))
  · have hFired : q''.fired = q'.fired ++
        if entry.callback.isSome then [((entry.later n).expiration, id)] else [] := by
      rw [(settle_fired hSettle).1, invoke_fired]
      rfl
    simp only [invocations, hFired, List.filter_append] at hCourse ⊢
    rw [show List.filter (·.2 = id) q'.fired = _ from hCourse.invocations_eq]
    cases hCallback : entry.callback with
    | none => simp [TimerEntry.calls_of_none hCallback, invocations]
    | some callback => simp [TimerEntry.calls_succ_of_some hCallback, invocations]
  · intro time hTime
    rw [TimerEntry.times_succ, List.mem_append, List.mem_singleton] at hTime
    rcases hTime with hTime | rfl
    · exact hCourse.due time hTime
    · exact ⟨now, hNow, hDue⟩
  · intro hOneShot
    rcases hCourse.oneShot hOneShot with rfl | ⟨-, hGone⟩
    · exact Or.inr ⟨rfl, hTimers.trans (TimerEntry.fire_oneShot hOneShot 0)⟩
    · rw [hFound] at hGone
      cases hGone
  · intro _ hGone
    by_cases hPeriodic : 0 < entry.interval
    · rw [hTimers, TimerEntry.fire_later hPeriodic n] at hGone
      cases hGone
    · rcases hCourse.oneShot hPeriodic with rfl | ⟨-, hGone'⟩
      · exact ⟨hPeriodic, rfl⟩
      · rw [hFound] at hGone'
        cases hGone'

theorem Course.expireOnce (hCourse : Course Spared Read id entry q q' n)
    (hCoherent : Coherent none q') {now : Time} (hNow : Read now) {script : List (TimerOp γ)}
    (hScript : Spared → ∀ op ∈ script, op.cancels id = false)
    (hNext : expireOnce now script q' = .next q'') :
    ∃ n', Course Spared Read id entry q q'' n' := by
  rcases hCourse.entry_eq with hFound | hGone
  · rcases hCoherent.expireOnce_cases now script with
      ⟨hLeave, -⟩ | ⟨head, found, hHead, hDue, hEntry, -, -, hSettle⟩
    · rw [hLeave] at hNext
      cases hNext
    · rw [hSettle] at hNext
      by_cases hId : (ofLex head).2 = id
      · obtain ⟨same, hSame, hTime⟩ := hCoherent.entry_of_earliest hHead
        rw [hId] at hEntry hNext hSame
        obtain rfl := Option.some.inj (hFound.symm.trans hEntry)
        obtain rfl := Option.some.inj (hFound.symm.trans hSame)
        exact ⟨n + 1, hCourse.expire_self hNow (hTime.trans_le (not_lt.mp hDue)) hFound hNext⟩
      · exact ⟨n, hCourse.expire_other hId hScript hNext⟩
  · exact ⟨n, hCourse.of_staysGone hGone (expireOnce_staysGone ⟨hCourse.known, hGone⟩ hNext)⟩

/-! ## A pass and a run -/

/-- A pass is over when the loop is left, with the state that it left. -/
theorem expireLoop_done_induction (Inv : TimerQueue γ → Prop) {now : Time}
    {scripts : List (List (TimerOp γ))}
    (hNext : ∀ script ∈ scripts, ∀ q q', Inv q → expireOnce now script q = .next q' → Inv q')
    {q q' : TimerQueue γ} (hInv : Inv q) (hDone : expireLoop now scripts q = .done q') :
    Inv q' ∧ ∃ script, expireOnce now script q' = .leave := by
  induction scripts generalizing q with
  | nil =>
      simp only [expireLoop] at hDone
      split at hDone
      case h_1 hLeave =>
        obtain rfl := Pass.done.inj hDone
        exact ⟨hInv, [], hLeave⟩
      case h_2 => cases hDone
  | cons script scripts ih =>
      simp only [expireLoop] at hDone
      cases hIteration : expireOnce now script q with
      | leave =>
          rw [hIteration] at hDone
          obtain rfl := Pass.done.inj hDone
          exact ⟨hInv, script, hIteration⟩
      | next middle =>
          rw [hIteration] at hDone
          refine ih ?_ (hNext script List.mem_cons_self q middle hInv hIteration) hDone
          exact fun other hOther => hNext other (List.mem_cons_of_mem script hOther)
      | useAfterFree id =>
          rw [hIteration] at hDone
          cases hDone

/-- A completed step is a call, or a loop followed by `ResetTimerFd`. -/
theorem step_eq_some {action : Action γ} (hStep : step q action = some q') :
    (∃ op, action = .call op ∧ q' = q.apply op) ∨
      ∃ now finish scripts middle, action = .process now finish scripts ∧
        expireLoop now scripts q = .done middle ∧ q' = middle.rearm finish := by
  cases action with
  | call op => exact Or.inl ⟨op, rfl, by simpa [step] using hStep.symm⟩
  | process now finish scripts =>
      cases hLoop : expireLoop now scripts q with
      | unfinished => simp [step, processExpiredTimers, hLoop] at hStep
      | useAfterFree id => simp [step, processExpiredTimers, hLoop] at hStep
      | done middle =>
          refine Or.inr ⟨now, finish, scripts, middle, rfl, hLoop, ?_⟩
          simpa [step, processExpiredTimers, hLoop] using hStep.symm

/-- No timer that is left after a pass was due at the reading of the pass. -/
theorem step_process_late {now finish : Time} {scripts : List (List (TimerOp γ))}
    (hCoherent : Coherent none q) (hStep : step q (.process now finish scripts) = some q')
    {found : TimerEntry γ} (hFound : q'.timers id = some found) : now < found.expiration := by
  obtain ⟨op, hCall, -⟩ | ⟨_, _, _, middle, hEq, hLoop, rfl⟩ := step_eq_some hStep
  · cases hCall
  · obtain ⟨rfl, rfl, rfl⟩ := Action.process.inj hEq
    obtain ⟨hMiddle, script, hLeave⟩ := expireLoop_done_induction (Coherent none)
      (fun _ _ _ _ hCoherent hNext => expireOnce_coherent hCoherent hNext) hCoherent hLoop
    obtain ⟨timer, hTimer⟩ := rearm_eq middle finish
    rw [hTimer] at hFound
    have hActive : toLex (found.expiration, id) ∈ middle.activeTimers :=
      (hMiddle.mirrors found.expiration id).mpr ⟨found, hFound, rfl⟩
    exact forall_active_late (expireOnce_eq_leave hLeave) _ hActive

/-- A step of a run continues the course of the timer. -/
theorem Course.step (hCourse : Course Spared Read id entry q q' n) (hCoherent : Coherent none q')
    {action : Action γ} (hSpares : Spared → action.spares id = true)
    (hRead : ∀ now finish scripts, action = .process now finish scripts → Read now)
    (hStep : step q' action = some q'') : ∃ n', Course Spared Read id entry q q'' n' := by
  obtain ⟨op, rfl, rfl⟩ | ⟨now, finish, scripts, middle, rfl, hLoop, rfl⟩ := step_eq_some hStep
  · exact ⟨n, hCourse.apply fun hSpared => by simpa [Action.spares] using hSpares hSpared⟩
  · have hScripts : ∀ script ∈ scripts, Spared → ∀ op ∈ script, op.cancels id = false := by
      intro script hScript hSpared
      have hAll := hSpares hSpared
      simp only [Action.spares, List.all_eq_true] at hAll
      intro op hOp
      simpa using hAll script hScript op hOp
    obtain ⟨⟨-, n', hMiddle⟩, -⟩ := expireLoop_done_induction
      (fun q'' => Coherent none q'' ∧ ∃ n', Course Spared Read id entry q q'' n')
      (fun script hScript _ _ hInv hNext =>
        ⟨expireOnce_coherent hInv.1 hNext, hInv.2.elim fun _ hCourse =>
          hCourse.expireOnce hInv.1 (hRead now finish scripts rfl) (hScripts script hScript) hNext⟩)
      ⟨hCoherent, n, hCourse⟩ hLoop
    obtain ⟨timer, hTimer⟩ := rearm_eq middle finish
    rw [hTimer]
    exact ⟨n', hMiddle.of_timers le_rfl rfl (Or.inl rfl)⟩

theorem exec_course {fd : Int} (hSound : Sound fd q) (hEntry : q.timers id = some entry)
    {later : List (Action γ)} (hRun : exec step q later = some q') :
    ∃ n, Course (∀ action ∈ later, action.spares id = true)
      (fun now => ∃ finish scripts, Action.process now finish scripts ∈ later)
      id entry q q' n := by
  have hMeets : Meets step (fun _ action => action ∈ later) q later :=
    Meets.of_forall fun _ hAction => hAction
  refine (exec_invariant_of_meets (fun s => Sound fd s ∧ ∃ n, Course
    (∀ action ∈ later, action.spares id = true)
    (fun now => ∃ finish scripts, Action.process now finish scripts ∈ later) id entry q s n)
    ?_ ⟨hSound, 0, Course.start (hSound.coherent.id_lt hEntry) hEntry⟩ hMeets hRun).2
  rintro s action next ⟨hSound, n, hCourse⟩ hMem hStep
  refine ⟨step_sound hSound hStep, hCourse.step hSound.coherent (fun hAll => hAll action hMem) ?_
    hStep⟩
  rintro now finish scripts rfl
  exact ⟨finish, scripts, hMem⟩

/-- What is left of a timer after a pass, at any later time, is due after that pass. -/
theorem late_after_pass {fd : Int} (hSound : Sound fd q) (hEntry : q.timers id = some entry)
    {later : List (Action γ)} (hRun : exec step q later = some q') {now finish : Time}
    {scripts : List (List (TimerOp γ))} (hPass : Action.process now finish scripts ∈ later)
    {found : TimerEntry γ} (hFound : q'.timers id = some found) : now < found.expiration := by
  obtain ⟨before, after, rfl⟩ := List.append_of_mem hPass
  obtain ⟨start, hBefore, hRest⟩ := exists_of_exec_append hRun
  obtain ⟨passed, hStep, hAfter⟩ := exec_cons_eq_some.mp hRest
  have hStart : Sound fd start := exec_invariant (Sound fd) (fun _ _ _ => step_sound) hSound hBefore
  have hPassed : Sound fd passed := step_sound hStart hStep
  obtain ⟨n, hBegun⟩ := exec_course hSound hEntry
    (exec_append_eq_some hBefore (exec_cons_eq_some.mpr ⟨passed, hStep, exec_nil step passed⟩))
  cases hLeft : passed.timers id with
  | none =>
      rw [(exec_staysGone ⟨hBegun.known, hLeft⟩ hAfter).gone.2] at hFound
      cases hFound
  | some left =>
      obtain ⟨m, hCourse⟩ := exec_course hPassed hLeft hAfter
      have hLate := step_process_late hStart.coherent hStep hLeft
      rcases hCourse.entry_eq with hSome | hNone
      · obtain rfl := Option.some.inj (hFound.symm.trans hSome)
        refine lt_of_lt_of_le hLate (TimerEntry.expiration_le_later fun hOneShot => ?_)
        rcases hCourse.oneShot hOneShot with hZero | ⟨-, hGone⟩
        · exact hZero
        · rw [hFound] at hGone
          cases hGone
      · rw [hFound] at hNone
        cases hNone

/-- A timer of one millisecond in a pass that comes 2.5 ms late, with callbacks that add
another timer and cancel it again. -/
def latePass : List (Action Unit) :=
  [.process 3500000 3500001 [[.runAt 9000000 none 5], [.cancel 2 6], []]]

end TimerQueue
end SolarNet
