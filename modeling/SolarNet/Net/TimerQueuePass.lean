import SolarNet.Lib.Run
import SolarNet.Net.TimerQueueInvariant

/-!
# The expiry pass and runs of `TimerQueue`

The loop of `ProcessExpiredTimers` takes the earliest timer out of
`m_active_timers`, runs its callback, and puts it back or erases it.  Between
these moments the queue is coherent with that timer as the current one, so a
callback may call any operation.

The loop goes on to use the entry after the callback.  This file shows exactly
when that is safe: a pass uses a freed entry if and only if one of the
callbacks that it invokes cancels its own timer.  For all other passes, in any
sequence with other operations, the representation invariant holds.
-/

namespace SolarNet
namespace TimerQueue

open Lib

variable {γ : Type*}

/-! ## One iteration of the pass -/

/-- The queue after `m_active_timers.erase(it)`. -/
def pop (q : TimerQueue γ) (head : Time ×ₗ TimerId) : TimerQueue γ :=
  { q with activeTimers := q.activeTimers.erase head }

/-- In a coherent queue the earliest active timer has an entry, and the entry
expires at the time under which the timer is active. -/
theorem Coherent.entry_of_earliest {q : TimerQueue γ} (hCoherent : Coherent none q)
    {head : Time ×ₗ TimerId} (hHead : q.earliest = some head) :
    ∃ entry, q.timers (ofLex head).2 = some entry ∧
      entry.expiration = (ofLex head).1 := by
  have hMem : toLex ((ofLex head).1, (ofLex head).2) ∈ q.activeTimers :=
    mem_of_earliest hHead
  obtain ⟨-, hEntry⟩ := (hCoherent.mirror _ _).mp hMem
  exact hEntry

theorem expireOnce_due {now : Time} {script : List (TimerOp γ)} {q : TimerQueue γ}
    {head : Time ×ₗ TimerId} {entry : TimerEntry γ} (hHead : q.earliest = some head)
    (hDue : ¬ (ofLex head).1 > now) (hEntry : q.timers (ofLex head).2 = some entry) :
    expireOnce now script q =
      ((q.pop head).invoke entry (ofLex head).2 script).settle (ofLex head).2 := by
  simp only [expireOnce, hHead, if_neg hDue, hEntry]
  rfl

theorem expireOnce_leave {now : Time} {script : List (TimerOp γ)} {q : TimerQueue γ}
    (hNotDue : ∀ head, q.earliest = some head → (ofLex head).1 > now) :
    expireOnce now script q = .leave := by
  cases hHead : q.earliest with
  | none => simp [expireOnce, hHead]
  | some head => simp [expireOnce, hHead, hNotDue head hHead]

/-- Taking the earliest timer out makes it the timer that is being expired. -/
theorem pop_coherent {q : TimerQueue γ} (hCoherent : Coherent none q)
    {head : Time ×ₗ TimerId} (hHead : q.earliest = some head) :
    Coherent (some (ofLex head).2) (q.pop head) := by
  obtain ⟨entry, hEntry, hTime⟩ := hCoherent.entry_of_earliest hHead
  refine ⟨?_, hCoherent.entry_id, hCoherent.mem_issued, hCoherent.issued_lt,
    hCoherent.issued_nodup⟩
  intro time id
  have hOld := hCoherent.mirror time id
  simp only [pop, Finset.mem_erase, hOld]
  constructor
  · rintro ⟨hNe, -, found, hFound, hExpiration⟩
    refine ⟨?_, found, hFound, hExpiration⟩
    intro hId
    obtain rfl := Option.some.inj hId
    rw [hEntry] at hFound
    obtain rfl := Option.some.inj hFound
    apply hNe
    rw [← hExpiration, hTime]
    rfl
  · rintro ⟨hId, hFound⟩
    refine ⟨?_, by simp, hFound⟩
    rintro rfl
    exact hId rfl

theorem invoke_coherent {q : TimerQueue γ} {id : TimerId}
    (hCoherent : Coherent (some id) q) (hId : id < q.nextId) (entry : TimerEntry γ)
    (script : List (TimerOp γ)) : Coherent (some id) (q.invoke entry id script) := by
  unfold invoke
  split
  · refine runScript_coherent ?_ ?_ script
    · exact ⟨hCoherent.mirror, hCoherent.entry_id, hCoherent.mem_issued,
        hCoherent.issued_lt, hCoherent.issued_nodup⟩
    · intro other hOther
      obtain rfl := Option.some.inj hOther
      exact hId
  · exact hCoherent

theorem reschedule_coherent {q : TimerQueue γ} {id : TimerId} {entry : TimerEntry γ}
    (hCoherent : Coherent (some id) q) (hEntry : q.timers id = some entry) :
    Coherent none (q.reschedule id entry) := by
  constructor
  · intro time other
    have hOld := hCoherent.mirror time other
    by_cases hOther : other = id
    · subst hOther
      have hAbsent : toLex (time, other) ∉ q.activeTimers := by
        rw [hOld]
        simp
      simp [reschedule, hAbsent, eq_comm]
    · simp [reschedule, hOther, hOld]
  · intro other found hFound
    by_cases hOther : other = id
    · subst hOther
      obtain rfl : _ = found := by simpa [reschedule] using hFound
      exact hCoherent.entry_id other entry hEntry
    · exact hCoherent.entry_id other found (by simpa [reschedule, hOther] using hFound)
  · intro other found hFound
    by_cases hOther : other = id
    · subst hOther
      exact hCoherent.mem_issued other entry hEntry
    · exact hCoherent.mem_issued other found (by simpa [reschedule, hOther] using hFound)
  · exact hCoherent.issued_lt
  · exact hCoherent.issued_nodup

theorem eraseTimer_coherent {q : TimerQueue γ} {id : TimerId}
    (hCoherent : Coherent (some id) q) : Coherent none (q.eraseTimer id) := by
  have hSub : ∀ other found, (q.eraseTimer id).timers other = some found →
      q.timers other = some found := by
    intro other found hFound
    by_cases hOther : other = id
    · simp [eraseTimer, hOther] at hFound
    · simpa [eraseTimer, hOther] using hFound
  constructor
  · intro time other
    have hOld := hCoherent.mirror time other
    by_cases hOther : other = id
    · subst hOther
      simp [eraseTimer, hOld]
    · simp [eraseTimer, hOther, hOld]
  · exact fun other found hFound => hCoherent.entry_id other found (hSub other found hFound)
  · exact fun other found hFound => hCoherent.mem_issued other found (hSub other found hFound)
  · exact hCoherent.issued_lt
  · exact hCoherent.issued_nodup

/-- After its callback a timer is put back or erased. -/
theorem settle_cases {q q' : TimerQueue γ} {id : TimerId} (hSettle : q.settle id = .next q') :
    ∃ entry, q.timers id = some entry ∧
      ((0 < entry.interval ∧ q' = q.reschedule id entry) ∨
        (¬ 0 < entry.interval ∧ q' = q.eraseTimer id)) := by
  unfold settle at hSettle
  cases hEntry : q.timers id with
  | none => simp [hEntry] at hSettle
  | some entry =>
      simp only [hEntry] at hSettle
      refine ⟨entry, rfl, ?_⟩
      split at hSettle
      · next hPeriodic => exact Or.inl ⟨hPeriodic, (Iteration.next.inj hSettle).symm⟩
      · next hOneShot => exact Or.inr ⟨hOneShot, (Iteration.next.inj hSettle).symm⟩

theorem settle_coherent {q q' : TimerQueue γ} {id : TimerId}
    (hCoherent : Coherent (some id) q) (hSettle : q.settle id = .next q') :
    Coherent none q' := by
  obtain ⟨entry, hEntry, ⟨-, rfl⟩ | ⟨-, rfl⟩⟩ := settle_cases hSettle
  · exact reschedule_coherent hCoherent hEntry
  · exact eraseTimer_coherent hCoherent

theorem settle_useAfterFree {q : TimerQueue γ} {id : TimerId} :
    (∃ freed, q.settle id = .useAfterFree freed) ↔ q.timers id = none := by
  unfold settle
  cases hEntry : q.timers id with
  | none => simp
  | some entry =>
      simp only [reduceCtorEq, iff_false, not_exists]
      intro freed
      split <;> simp

/-- An iteration that goes on has taken out the earliest timer, which was due. -/
theorem expireOnce_eq_next {now : Time} {script : List (TimerOp γ)} {q q' : TimerQueue γ}
    (hNext : expireOnce now script q = .next q') :
    ∃ head, q.earliest = some head ∧ ¬ (ofLex head).1 > now ∧
      ((q.timers (ofLex head).2 = none ∧ q' = q.pop head) ∨
        ∃ entry, q.timers (ofLex head).2 = some entry ∧
          ((q.pop head).invoke entry (ofLex head).2 script).settle (ofLex head).2 =
            .next q') := by
  cases hHead : q.earliest with
  | none => simp [expireOnce, hHead] at hNext
  | some head =>
      by_cases hDue : (ofLex head).1 > now
      · simp [expireOnce, hHead, hDue] at hNext
      · refine ⟨head, rfl, hDue, ?_⟩
        cases hEntry : q.timers (ofLex head).2 with
        | none =>
            simp only [expireOnce, hHead, if_neg hDue, hEntry] at hNext
            exact Or.inl ⟨rfl, (Iteration.next.inj hNext).symm⟩
        | some entry =>
            rw [expireOnce_due hHead hDue hEntry] at hNext
            exact Or.inr ⟨entry, rfl, hNext⟩

/-- The loop is left only when no timer is due. -/
theorem expireOnce_eq_leave {now : Time} {script : List (TimerOp γ)} {q : TimerQueue γ}
    (hLeave : expireOnce now script q = .leave) :
    ∀ head, q.earliest = some head → (ofLex head).1 > now := by
  intro head hHead
  by_contra hDue
  cases hEntry : q.timers (ofLex head).2 with
  | none => simp [expireOnce, hHead, if_neg hDue, hEntry] at hLeave
  | some entry =>
      rw [expireOnce_due hHead hDue hEntry] at hLeave
      unfold settle at hLeave
      split at hLeave
      · cases hLeave
      · split at hLeave <;> cases hLeave

/-- Either the loop is left, or the earliest timer is expired. -/
theorem Coherent.expireOnce_cases {q : TimerQueue γ} (hCoherent : Coherent none q)
    (now : Time) (script : List (TimerOp γ)) :
    (expireOnce now script q = .leave ∧
      ∀ head, q.earliest = some head → (ofLex head).1 > now) ∨
    ∃ head entry, q.earliest = some head ∧ ¬ (ofLex head).1 > now ∧
      q.timers (ofLex head).2 = some entry ∧ (ofLex head).2 < q.nextId ∧
      Coherent (some (ofLex head).2) ((q.pop head).invoke entry (ofLex head).2 script) ∧
      expireOnce now script q =
        ((q.pop head).invoke entry (ofLex head).2 script).settle (ofLex head).2 := by
  by_cases hLeave : ∀ head, q.earliest = some head → (ofLex head).1 > now
  · exact Or.inl ⟨expireOnce_leave hLeave, hLeave⟩
  · push Not at hLeave
    obtain ⟨head, hHead, hDue⟩ := hLeave
    obtain ⟨entry, hEntry, -⟩ := hCoherent.entry_of_earliest hHead
    have hDue' : ¬ (ofLex head).1 > now := not_lt.mpr hDue
    have hId : (ofLex head).2 < q.nextId := hCoherent.id_lt hEntry
    exact Or.inr ⟨head, entry, hHead, hDue', hEntry, hId,
      invoke_coherent (pop_coherent hCoherent hHead) hId entry script,
      expireOnce_due hHead hDue' hEntry⟩

/-- Every completed iteration keeps the invariant. -/
theorem expireOnce_coherent {now : Time} {script : List (TimerOp γ)}
    {q q' : TimerQueue γ} (hCoherent : Coherent none q)
    (hNext : expireOnce now script q = .next q') : Coherent none q' := by
  rcases hCoherent.expireOnce_cases now script with
    ⟨hLeave, -⟩ | ⟨head, entry, -, -, -, -, hInvoked, hSettle⟩
  · rw [hLeave] at hNext
    cases hNext
  · rw [hSettle] at hNext
    exact settle_coherent hInvoked hNext

/-! ## The descriptor does not change -/

theorem runScript_timerFd (q : TimerQueue γ) (script : List (TimerOp γ)) :
    (q.runScript script).timerFd = q.timerFd := by
  induction script generalizing q with
  | nil => rfl
  | cons op script ih => rw [runScript_cons, ih, apply_timerFd]

theorem settle_timerFd {q q' : TimerQueue γ} {id : TimerId}
    (hSettle : q.settle id = .next q') : q'.timerFd = q.timerFd := by
  obtain ⟨entry, -, ⟨-, rfl⟩ | ⟨-, rfl⟩⟩ := settle_cases hSettle
  · rfl
  · rfl

theorem expireOnce_timerFd {now : Time} {script : List (TimerOp γ)}
    {q q' : TimerQueue γ} (hCoherent : Coherent none q)
    (hNext : expireOnce now script q = .next q') : q'.timerFd = q.timerFd := by
  rcases hCoherent.expireOnce_cases now script with
    ⟨hLeave, -⟩ | ⟨head, entry, -, -, -, -, -, hSettle⟩
  · rw [hLeave] at hNext
    cases hNext
  · rw [hSettle] at hNext
    rw [settle_timerFd hNext]
    unfold invoke
    split
    · exact runScript_timerFd _ script
    · rfl

/-! ## Callbacks that cancel their own timer -/

/-- The timer whose callback the next iteration of a pass at `now` invokes. -/
def dueCallback (now : Time) (q : TimerQueue γ) : Option TimerId :=
  match q.earliest with
  | none => none
  | some head =>
      if (ofLex head).1 > now then none
      else
        match q.timers (ofLex head).2 with
        | none => none
        | some entry => entry.callback.map fun _ => (ofLex head).2

/-- The script of the next iteration cancels the timer that it belongs to. -/
def selfCancels (now : Time) (script : List (TimerOp γ)) (q : TimerQueue γ) : Bool :=
  match q.dueCallback now with
  | none => false
  | some id => script.any (·.cancels id)

/-- No callback that the pass invokes cancels its own timer. -/
def selfCancelFree (now : Time) : List (List (TimerOp γ)) → TimerQueue γ → Bool
  | [], _ => true
  | script :: scripts, q =>
      !q.selfCancels now script &&
        match expireOnce now script q with
        | .next q' => selfCancelFree now scripts q'
        | _ => true

/-- The callback of an entry removes the entry exactly when it is set and
cancels its own timer. -/
theorem invoke_timers_eq_none_iff {q : TimerQueue γ} {id : TimerId}
    {entry : TimerEntry γ} (hId : id < q.nextId) (hEntry : q.timers id = some entry)
    (script : List (TimerOp γ)) :
    (q.invoke entry id script).timers id = none ↔
      entry.callback.isSome ∧ ∃ op ∈ script, op.cancels id = true := by
  cases hCallback : entry.callback with
  | none => simp [invoke, hCallback, hEntry]
  | some callback =>
      let logged : TimerQueue γ := { q with fired := q.fired ++ [(entry.expiration, id)] }
      have hLogged : logged.timers id = some entry := hEntry
      have hLoggedId : id < logged.nextId := hId
      have hInvoke : q.invoke entry id script = logged.runScript script := by
        simp only [invoke, hCallback]
        rfl
      rw [hInvoke]
      by_cases hCancels : ∃ op ∈ script, op.cancels id = true
      · simp [runScript_timers_of_cancels hLoggedId hCancels, hCancels]
      · have hKeeps : ∀ op ∈ script, op.cancels id = false := by
          intro op hOp
          rw [← Bool.not_eq_true]
          exact fun hSelf => hCancels ⟨op, hOp, hSelf⟩
        simp [runScript_timers hLoggedId hKeeps, hLogged, hCancels]

/-- An iteration reads a freed entry exactly when the callback that it invokes
cancels its own timer. -/
theorem expireOnce_useAfterFree_iff {q : TimerQueue γ} (hCoherent : Coherent none q)
    (now : Time) (script : List (TimerOp γ)) :
    (∃ id, expireOnce now script q = .useAfterFree id) ↔
      q.selfCancels now script = true := by
  rcases hCoherent.expireOnce_cases now script with
    ⟨hLeave, hNotDue⟩ | ⟨head, entry, hHead, hDue, hEntry, hId, -, hSettle⟩
  · -- A pass that leaves the loop invokes nothing.
    have hNoCallback : q.dueCallback now = none := by
      unfold dueCallback
      cases hHead : q.earliest with
      | none => rfl
      | some head => simp [hNotDue head hHead]
    simp [hLeave, selfCancels, hNoCallback]
  · have hPopped : (q.pop head).timers (ofLex head).2 = some entry := hEntry
    have hPoppedId : (ofLex head).2 < (q.pop head).nextId := hId
    rw [hSettle, settle_useAfterFree, invoke_timers_eq_none_iff hPoppedId hPopped]
    have hCallback : q.dueCallback now = entry.callback.map fun _ => (ofLex head).2 := by
      simp only [dueCallback, hHead, if_neg hDue, hEntry]
    rw [selfCancels, hCallback]
    cases entry.callback with
    | none => simp
    | some callback => simp [List.any_eq_true]

/-- A pass uses a freed entry exactly when some callback that it invokes cancels
its own timer. -/
theorem expireLoop_useAfterFree_iff {q : TimerQueue γ} (hCoherent : Coherent none q)
    (now : Time) (scripts : List (List (TimerOp γ))) :
    (∃ id, expireLoop now scripts q = .useAfterFree id) ↔
      selfCancelFree now scripts q = false := by
  induction scripts generalizing q with
  | nil =>
      simp only [selfCancelFree, Bool.true_eq_false, iff_false, not_exists, expireLoop]
      intro id
      split <;> simp
  | cons script scripts ih =>
      have hOnce := expireOnce_useAfterFree_iff hCoherent now script
      simp only [expireLoop, selfCancelFree]
      cases hIteration : expireOnce now script q with
      | leave =>
          have hSafe : q.selfCancels now script = false := by
            rw [← Bool.not_eq_true, ← hOnce]
            simp [hIteration]
          simp [hSafe]
      | next q' =>
          have hSafe : q.selfCancels now script = false := by
            rw [← Bool.not_eq_true, ← hOnce]
            simp [hIteration]
          simp only [hSafe, Bool.not_false, Bool.true_and]
          exact ih (expireOnce_coherent hCoherent hIteration)
      | useAfterFree id =>
          have hSelf : q.selfCancels now script = true := hOnce.mp ⟨id, hIteration⟩
          simp [hSelf]

/-! ## A whole pass -/

theorem expireLoop_coherent {now : Time} {scripts : List (List (TimerOp γ))}
    {q q' : TimerQueue γ} (hCoherent : Coherent none q)
    (hDone : expireLoop now scripts q = .done q') :
    Coherent none q' ∧ q'.timerFd = q.timerFd := by
  induction scripts generalizing q with
  | nil =>
      simp only [expireLoop] at hDone
      split at hDone
      · obtain rfl := Pass.done.inj hDone
        exact ⟨hCoherent, rfl⟩
      · cases hDone
  | cons script scripts ih =>
      simp only [expireLoop] at hDone
      cases hIteration : expireOnce now script q with
      | leave =>
          rw [hIteration] at hDone
          obtain rfl := Pass.done.inj hDone
          exact ⟨hCoherent, rfl⟩
      | next middle =>
          rw [hIteration] at hDone
          obtain ⟨hAfter, hFd⟩ := ih (expireOnce_coherent hCoherent hIteration) hDone
          exact ⟨hAfter, hFd.trans (expireOnce_timerFd hCoherent hIteration)⟩
      | useAfterFree id =>
          rw [hIteration] at hDone
          cases hDone

/-- The scripts cover all iterations that the loop makes. -/
def terminates (now : Time) (scripts : List (List (TimerOp γ))) (q : TimerQueue γ) :
    Bool :=
  match expireLoop now scripts q with
  | .unfinished => false
  | _ => true

/-! ## Runs -/

/-- The representation invariant between top-level operations. -/
structure Sound (fd : Int) (q : TimerQueue γ) : Prop where
  coherent : Coherent none q
  programmed : q.Programmed
  timerFd_eq : q.timerFd = fd

theorem new_sound (fd : Int) : Sound fd (new fd : TimerQueue γ) :=
  ⟨new_coherent fd, new_programmed fd, rfl⟩

theorem step_sound {fd : Int} {q q' : TimerQueue γ} {action : Action γ}
    (hSound : Sound fd q) (hStep : step q action = some q') : Sound fd q' := by
  cases action with
  | call op =>
      obtain rfl : q.apply op = q' := by simpa [step] using hStep
      refine ⟨apply_coherent hSound.coherent (by simp) op,
        apply_programmed hSound.programmed op, ?_⟩
      rw [apply_timerFd]
      exact hSound.timerFd_eq
  | process now finish scripts =>
      cases hLoop : expireLoop now scripts q with
      | unfinished => simp [step, processExpiredTimers, hLoop] at hStep
      | useAfterFree id => simp [step, processExpiredTimers, hLoop] at hStep
      | done middle =>
          obtain rfl : middle.rearm finish = q' := by
            simpa [step, processExpiredTimers, hLoop] using hStep
          obtain ⟨hCoherent, hFd⟩ := expireLoop_coherent hSound.coherent hLoop
          obtain ⟨timer, hTimer⟩ := rearm_eq middle finish
          refine ⟨hCoherent.rearm finish, rearm_programmed middle finish, ?_⟩
          rw [hTimer]
          exact hFd.trans hSound.timerFd_eq

theorem exec_sound {fd : Int} {actions : List (Action γ)} {q : TimerQueue γ}
    (hRun : exec step (new fd) actions = some q) : Sound fd q :=
  exec_invariant (Sound fd) (fun _ _ _ => step_sound) (new_sound fd) hRun

/-- The side condition on a pass: it terminates, and no callback that it invokes
cancels its own timer. -/
def Admissible (q : TimerQueue γ) : Action γ → Prop
  | .call _ => True
  | .process now _ scripts =>
      terminates now scripts q = true ∧ selfCancelFree now scripts q = true

/-- An admissible action completes. -/
theorem step_defined {q : TimerQueue γ} (hCoherent : Coherent none q)
    (action : Action γ) (hAdmissible : Admissible q action) :
    ∃ q', step q action = some q' := by
  cases action with
  | call op => exact ⟨q.apply op, rfl⟩
  | process now finish scripts =>
      obtain ⟨hTerminates, hFree⟩ := hAdmissible
      cases hLoop : expireLoop now scripts q with
      | unfinished => simp [terminates, hLoop] at hTerminates
      | useAfterFree id =>
          have hSelf := (expireLoop_useAfterFree_iff hCoherent now scripts).mp ⟨id, hLoop⟩
          rw [hFree] at hSelf
          cases hSelf
      | done q' => exact ⟨q'.rearm finish, by simp [step, processExpiredTimers, hLoop]⟩

/-- The first component of the earliest timer is the smallest expiration. -/
theorem earliest_of_isLeast {q : TimerQueue γ} {time : Time}
    (hLeast : IsLeast {t | ∃ id, toLex (t, id) ∈ q.activeTimers} time) :
    ∃ head, q.earliest = some head ∧ (ofLex head).1 = time := by
  obtain ⟨⟨id, hMem⟩, hLower⟩ := hLeast
  cases hHead : q.earliest with
  | none =>
      rw [earliest_eq_none.mp hHead] at hMem
      simp at hMem
  | some head =>
      refine ⟨head, rfl, le_antisymm ?_ ?_⟩
      · have hLe : toLex (ofLex head) ≤ toLex (time, id) := earliest_le hHead hMem
        rcases Prod.Lex.toLex_le_toLex.mp hLe with hLt | ⟨hEq, -⟩
        · exact hLt.le
        · exact hEq.le
      · exact hLower ⟨(ofLex head).2, mem_of_earliest hHead⟩

/-- Two timers, and a pass whose first callback cancels the second timer and
adds one before the earliest, and whose second callback adds one for later. -/
def nestedPass : List (Action Unit) :=
  [.call (.runAt 5 (some ()) 0), .call (.runEvery 1 (some ()) 0 0),
    .process 2000000 2000001
      [[.cancel 2 10, .runAt 4 (some ()) 10], [.runAt 9000000 none 10]]]

end TimerQueue
end SolarNet
