import SolarNet.Net.TimerQueuePass

/-!
# Timers that cancel themselves

A timer that was cancelled is gone: its id is not handed out again, and its callback
is never invoked again.  A callback may cancel any timer but its own.  From every
reachable queue, a pass does what is expected of it exactly when no callback that it
invokes cancels its own timer.
-/

namespace SolarNet
namespace TimerQueue

open Lib

variable {γ : Type*}

/-! ## Timers that are gone -/

/-- The timer was handed out, and has no entry any more. -/
def Gone (id : TimerId) (q : TimerQueue γ) : Prop :=
  id < q.nextId ∧ q.timers id = none

/-- The invocations of the callback of a timer so far. -/
def invocations (id : TimerId) (q : TimerQueue γ) : List (Time × TimerId) :=
  q.fired.filter (·.2 = id)

/-- The timer is gone in both queues, and its callback was not invoked in between. -/
structure StaysGone (id : TimerId) (q q' : TimerQueue γ) : Prop where
  gone : Gone id q'
  invocations_eq : invocations id q' = invocations id q

theorem StaysGone.refl {id : TimerId} {q : TimerQueue γ} (hGone : Gone id q) :
    StaysGone id q q :=
  ⟨hGone, rfl⟩

theorem StaysGone.trans {id : TimerId} {q q' q'' : TimerQueue γ} (hFirst : StaysGone id q q')
    (hSecond : StaysGone id q' q'') : StaysGone id q q'' :=
  ⟨hSecond.gone, hSecond.invocations_eq.trans hFirst.invocations_eq⟩

theorem rearm_staysGone {id : TimerId} {q : TimerQueue γ} (hGone : Gone id q) (now : Time) :
    StaysGone id q (q.rearm now) := by
  obtain ⟨timer, hTimer⟩ := rearm_eq q now
  rw [hTimer]
  exact ⟨hGone, rfl⟩

theorem apply_fired (q : TimerQueue γ) (op : TimerOp γ) : (q.apply op).fired = q.fired := by
  rcases apply_cases q op with hSame | ⟨_, _, _, _, hAdd⟩ | ⟨_, _, _, -, -, hCancel⟩
  · rw [hSame]
  · obtain ⟨timer, hTimer⟩ := rearm_eq (q.withTimer _ _ _) _
    rw [hAdd, hTimer]
    rfl
  · obtain ⟨timer, hTimer⟩ := rearm_eq (q.withoutTimer _ _) _
    rw [hCancel, hTimer]
    rfl

theorem runScript_staysGone {id : TimerId} {q : TimerQueue γ} (hGone : Gone id q)
    (script : List (TimerOp γ)) : StaysGone id q (q.runScript script) := by
  induction script generalizing q with
  | nil => exact .refl hGone
  | cons op script ih =>
      have hHead : StaysGone id q (q.apply op) := by
        constructor
        · exact ⟨lt_of_lt_of_le hGone.1 (nextId_le_apply q op),
            runScript_timers_none hGone.1 hGone.2 [op]⟩
        · rw [invocations, apply_fired]
          rfl
      exact hHead.trans (ih hHead.gone)

theorem settle_staysGone {id other : TimerId} {q q' : TimerQueue γ} (hGone : Gone id q)
    (hSettle : q.settle other = .next q') : StaysGone id q q' := by
  obtain ⟨entry, hEntry, hCases⟩ := settle_cases hSettle
  have hOther : id ≠ other := by
    rintro rfl
    rw [hGone.2] at hEntry
    cases hEntry
  rcases hCases with ⟨-, rfl⟩ | ⟨-, rfl⟩
  · exact ⟨⟨hGone.1, (Function.update_of_ne hOther _ _).trans hGone.2⟩, rfl⟩
  · exact ⟨⟨hGone.1, (Function.update_of_ne hOther _ _).trans hGone.2⟩, rfl⟩

/-- An iteration of a pass does not invoke the callback of a timer that is gone. -/
theorem expireOnce_staysGone {now : Time} {script : List (TimerOp γ)} {id : TimerId}
    {q q' : TimerQueue γ} (hGone : Gone id q) (hNext : expireOnce now script q = .next q') :
    StaysGone id q q' := by
  obtain ⟨head, hHead, -, ⟨-, rfl⟩ | ⟨entry, hEntry, hSettle⟩⟩ := expireOnce_eq_next hNext
  · -- The earliest timer has no entry either; it only leaves `m_active_timers`.
    exact ⟨hGone, rfl⟩
  · have hOther : (ofLex head).2 ≠ id := by
      rintro rfl
      rw [hGone.2] at hEntry
      cases hEntry
    have hInvoked : StaysGone id q ((q.pop head).invoke entry (ofLex head).2 script) := by
      unfold invoke
      split
      · have hRecorded : StaysGone id q { q.pop head with
            fired := q.fired ++ [(entry.expiration, (ofLex head).2)] } :=
          ⟨hGone, by simp [invocations, hOther]⟩
        exact hRecorded.trans (runScript_staysGone hRecorded.gone script)
      · exact ⟨hGone, rfl⟩
    exact hInvoked.trans (settle_staysGone hInvoked.gone hSettle)

theorem expireLoop_staysGone {now : Time} {scripts : List (List (TimerOp γ))} {id : TimerId}
    {q q' : TimerQueue γ} (hGone : Gone id q) (hDone : expireLoop now scripts q = .done q') :
    StaysGone id q q' := by
  induction scripts generalizing q with
  | nil =>
      simp only [expireLoop] at hDone
      split at hDone
      · obtain rfl := Pass.done.inj hDone
        exact .refl hGone
      · cases hDone
  | cons script scripts ih =>
      simp only [expireLoop] at hDone
      cases hIteration : expireOnce now script q with
      | leave =>
          rw [hIteration] at hDone
          obtain rfl := Pass.done.inj hDone
          exact .refl hGone
      | next middle =>
          rw [hIteration] at hDone
          have hFirst := expireOnce_staysGone hGone hIteration
          exact hFirst.trans (ih hFirst.gone hDone)
      | useAfterFree id =>
          rw [hIteration] at hDone
          cases hDone

theorem step_staysGone {id : TimerId} {q q' : TimerQueue γ} {action : Action γ}
    (hGone : Gone id q) (hStep : step q action = some q') : StaysGone id q q' := by
  cases action with
  | call op =>
      obtain rfl : q.apply op = q' := by simpa [step] using hStep
      exact runScript_staysGone hGone [op]
  | process now finish scripts =>
      cases hLoop : expireLoop now scripts q with
      | unfinished => simp [step, processExpiredTimers, hLoop] at hStep
      | useAfterFree id => simp [step, processExpiredTimers, hLoop] at hStep
      | done middle =>
          obtain rfl : middle.rearm finish = q' := by
            simpa [step, processExpiredTimers, hLoop] using hStep
          have hPass := expireLoop_staysGone hGone hLoop
          exact hPass.trans (rearm_staysGone hPass.gone finish)

/-- The callback of a timer that is gone is never invoked again. -/
theorem exec_staysGone {id : TimerId} {q q' : TimerQueue γ} {later : List (Action γ)}
    (hGone : Gone id q) (hRun : exec step q later = some q') : StaysGone id q q' :=
  exec_invariant (StaysGone id q)
    (fun _ _ _ hBefore hStep => hBefore.trans (step_staysGone hBefore.gone hStep))
    (.refl hGone) hRun

/-! ## Self-cancellation -/

/-- One iteration of the loop of a pass, as a step. -/
def iterate (now : Time) (q : TimerQueue γ) (script : List (TimerOp γ)) :
    Option (TimerQueue γ) :=
  match expireOnce now script q with
  | .next q' => some q'
  | _ => none

/-- The callback of a timer that is gone at some moment of the pass `scripts`, which
leads from `q` to `q'`, is not invoked again: not in the rest of the pass, and not
later. -/
def NeverAgain (now : Time) (scripts : List (List (TimerOp γ))) (q q' : TimerQueue γ) :
    Prop :=
  ∀ first rest middle, scripts = first ++ rest → exec (iterate now) q first = some middle →
    ∀ id, Gone id middle → ∀ later final, exec step q' later = some final →
      invocations id final = invocations id middle

/-- What a pass has to guarantee when callbacks cancel their own timers: no entry is
used after it was freed, the containers agree afterwards, and a timer that is gone is
not invoked again. -/
def SelfCancelSafe (now finish : Time) (scripts : List (List (TimerOp γ)))
    (q : TimerQueue γ) : Prop :=
  match processExpiredTimers now finish scripts q with
  | .useAfterFree _ => False
  | .done q' =>
      (∀ time id, toLex (time, id) ∈ q'.activeTimers ↔
        ∃ entry, q'.timers id = some entry ∧ entry.expiration = time) ∧
      NeverAgain now scripts q q'
  | .unfinished => True

theorem iterate_eq_some {now : Time} {q q' : TimerQueue γ} {script : List (TimerOp γ)} :
    iterate now q script = some q' ↔ expireOnce now script q = .next q' := by
  unfold iterate
  cases expireOnce now script q with
  | leave => simp
  | next middle => simp
  | useAfterFree id => simp

/-- The loop follows its iterations. -/
theorem expireLoop_append {now : Time} {q middle : TimerQueue γ}
    {first rest : List (List (TimerOp γ))} (hFirst : exec (iterate now) q first = some middle) :
    expireLoop now (first ++ rest) q = expireLoop now rest middle := by
  induction first generalizing q with
  | nil =>
      obtain rfl : q = middle := by simpa using hFirst
      rfl
  | cons script first ih =>
      obtain ⟨next, hNext, hRest⟩ := exec_cons_eq_some.mp hFirst
      rw [List.cons_append, expireLoop, iterate_eq_some.mp hNext]
      exact ih hRest

theorem neverAgain_of_done {now finish : Time} {scripts : List (List (TimerOp γ))}
    {q q' : TimerQueue γ} (hDone : expireLoop now scripts q = .done q') :
    NeverAgain now scripts q (q'.rearm finish) := by
  rintro first rest middle rfl hFirst id hGone later final hRun
  rw [expireLoop_append hFirst] at hDone
  have hRest := expireLoop_staysGone hGone hDone
  have hRearm := hRest.trans (rearm_staysGone hRest.gone finish)
  exact (hRearm.trans (exec_staysGone hRearm.gone hRun)).invocations_eq

/-- **A callback must not cancel its own timer.**  From every reachable queue, a
pass is safe exactly when no callback that it invokes cancels its own timer:
one that does is followed by a read of the freed entry. -/
theorem selfCancelSafe_iff_selfCancelFree {fd : Int} {actions : List (Action γ)}
    {q : TimerQueue γ} (hRun : exec step (new fd) actions = some q)
    (now finish : Time) (scripts : List (List (TimerOp γ))) :
    SelfCancelSafe now finish scripts q ↔ selfCancelFree now scripts q = true := by
  have hCoherent := (exec_sound hRun).coherent
  have hFreed := expireLoop_useAfterFree_iff hCoherent now scripts
  unfold SelfCancelSafe processExpiredTimers
  cases hLoop : expireLoop now scripts q with
  | useAfterFree id =>
      have hSelf : selfCancelFree now scripts q = false := hFreed.mp ⟨id, hLoop⟩
      simp [hSelf]
  | done q' =>
      have hFree : selfCancelFree now scripts q = true := by
        rw [← Bool.not_eq_false, ← hFreed]
        simp [hLoop]
      have hMirror := ((expireLoop_coherent hCoherent hLoop).1.rearm finish).mirror
      simp only [hFree, iff_true]
      refine ⟨?_, neverAgain_of_done hLoop⟩
      intro time id
      simpa using hMirror time id
  | unfinished =>
      have hFree : selfCancelFree now scripts q = true := by
        rw [← Bool.not_eq_false, ← hFreed]
        simp [hLoop]
      simp [hFree]

/-- Safe: the callback of timer `1` cancels timer `2`, which is due as well. -/
theorem selfCancelSafe_of_cancelling_other :
    SelfCancelSafe 10 11 [[.cancel 2 10]]
      (((new 3 : TimerQueue Unit).apply (.runAt 5 (some ()) 0)).apply
        (.runAt 6 (some ()) 0)) :=
  (selfCancelSafe_iff_selfCancelFree
    (show exec step (new 3)
      [.call (.runAt 5 (some ()) 0), .call (.runAt 6 (some ()) 0)] = some _ from rfl)
    10 11 [[.cancel 2 10]]).mpr (by decide +kernel)

/-- Unsafe, for a one-shot and for a periodic timer: the callback of timer `1`
cancels timer `1`. -/
theorem not_selfCancelSafe_of_cancelling_self :
    ¬ SelfCancelSafe 10 11 [[.cancel 1 10]]
        ((new 3 : TimerQueue Unit).apply (.runAt 5 (some ()) 0)) ∧
      ¬ SelfCancelSafe 2000000 2000001 [[.cancel 1 10]]
        ((new 3 : TimerQueue Unit).apply (.runEvery 1 (some ()) 0 0)) :=
  ⟨fun hSafe => hSafe, fun hSafe => hSafe⟩

end TimerQueue
end SolarNet
