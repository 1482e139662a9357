import SolarNet.Lib.Run
import SolarNet.Net.EventLoop

/-!
# Runs of `EventLoop`

Two results about every interleaving of the loop thread with its callers.

The functor queue is first in, first out, and each functor is executed at most
once: what was executed, what is left of the current batch, and what is
pending make up everything that was pushed, in the order of the pushes.  When
`Loop()` returns, nothing that was pushed before a swap is left behind.

No wakeup is lost as long as the loop thread does not call `QueueInLoop` where
`m_calling_pending_functors` is not set and `Poll` comes before the next look at the
queue: outside `Loop()`, and in a destructor that runs while `DoPendingFunctors`
destroys its functors.  Such a call issues no `Wakeup`.
-/

namespace SolarNet
namespace EventLoop

open Lib

variable {F T : Type*}

/-- The functors of the current batch that have not been started. -/
def unstarted : LoopPc F → List F
  | .batch rest | .running rest => rest
  | _ => []

@[simp] theorem unstarted_ite (c : Prop) [Decidable c] (pc pc' : LoopPc F)
    (hPc : unstarted pc = []) (hPc' : unstarted pc' = []) :
    unstarted (if c then pc else pc') = [] := by
  split
  · exact hPc
  · exact hPc'

/-! ## The functor queue -/

/-- Executed functors, the rest of the batch, and the pending functors are the
pushed functors in order. -/
def Conserves (s : EventLoop F T) : Prop :=
  s.executed ++ unstarted s.pc ++ s.pendingFunctors = s.pushed

theorem Moves.conserves {s s' : EventLoop F T} {act : LoopAct} (hMoves : Moves s act s')
    (hConserves : Conserves s) : Conserves s' := by
  unfold Conserves at hConserves ⊢
  cases hMoves with
  | handleRead hPc => exact hConserves
  | testTop hPc =>
      show s.executed ++ unstarted (if s.quit then .pending else .poll) ++ _ = _
      rw [unstarted_ite _ _ _ rfl rfl, ← hConserves, hPc]
      rfl
  | testBottom hPc =>
      show s.executed ++ unstarted (if s.quit then .outside else .top) ++ _ = _
      rw [unstarted_ite _ _ _ rfl rfl, ← hConserves, hPc]
      rfl
  | swap hPc => simpa [hPc, unstarted] using hConserves
  | runNext functor rest hPc => simpa [hPc, unstarted] using hConserves
  | enter hPc | pollReturn hPc | endHandling hPc | startPending hPc | functorReturn rest hPc
  | endPending hPc | destroyFunctors hPc => simpa [hPc, unstarted] using hConserves

/-- The functors that a return from `Loop()` must not leave behind: `queued` is
a prefix of what was executed and what is left of the batch, or it is still
part of the queue and a swap comes before the next test of `m_quit`. -/
def Serves (queued : List F) (s : EventLoop F T) : Prop :=
  queued <+: s.executed ++ unstarted s.pc ∨
    queued <+: s.executed ++ unstarted s.pc ++ s.pendingFunctors ∧
      (s.pc = .handling ∨ s.pc = .pending ∨ s.pc = .swapping)

theorem Serves.executed {queued : List F} {s : EventLoop F T} (hServes : Serves queued s)
    (hOutside : s.pc = .outside) : queued <+: s.executed := by
  rcases hServes with hDone | ⟨-, hPc | hPc | hPc⟩
  · simpa [hOutside, unstarted] using hDone
  all_goals rw [hOutside] at hPc; cases hPc

theorem Moves.serves {queued : List F} {s s' : EventLoop F T} {act : LoopAct}
    (hMoves : Moves s act s') (hServes : Serves queued s) : Serves queued s' := by
  unfold Serves at hServes ⊢
  cases hMoves with
  | handleRead hPc => exact hServes
  | testTop hPc =>
      refine Or.inl ?_
      show queued <+: s.executed ++ unstarted (if s.quit then .pending else .poll)
      rw [unstarted_ite _ _ _ rfl rfl]
      simpa [hPc, unstarted] using hServes
  | testBottom hPc =>
      refine Or.inl ?_
      show queued <+: s.executed ++ unstarted (if s.quit then .outside else .top)
      rw [unstarted_ite _ _ _ rfl rfl]
      simpa [hPc, unstarted] using hServes
  | swap hPc =>
      -- The swap is where the pending part turns into the batch.
      refine Or.inl ?_
      rcases hServes with hDone | ⟨hQueued, -⟩
      · have hLonger := hDone.trans (List.prefix_append _ s.pendingFunctors)
        simpa [hPc, unstarted] using hLonger
      · simpa [hPc, unstarted] using hQueued
  | runNext functor rest hPc => simpa [hPc, unstarted] using hServes
  | pollReturn hPc =>
      -- `Poll` lies after the last swap, so only the first alternative applies.
      refine Or.inl ?_
      simpa [hPc, unstarted] using hServes
  | enter hPc | endHandling hPc | startPending hPc | functorReturn rest hPc
  | endPending hPc | destroyFunctors hPc => simpa [hPc, unstarted] using hServes

section Steps

variable [DecidableEq T]

/-- What a step leaves in the queue, for every step outside `Loop()`: the pc
and the executed functors stay, and the queue and the history grow alike. -/
theorem step_queue {s s' : EventLoop F T} {label : LoopLabel F T}
    (hStep : step s label = some s') :
    (∃ act, label = .loop act ∧ s.calls .loopThread = .idle ∧ Moves s act s') ∨
      s'.pc = s.pc ∧ s'.executed = s.executed ∧
        ∃ more, s'.pendingFunctors = s.pendingFunctors ++ more ∧
          s'.pushed = s.pushed ++ more := by
  cases label with
  | loop act =>
      simp only [step] at hStep
      split at hStep
      · next hIdle => exact Or.inl ⟨act, rfl, hIdle, moves_of_loopStep hStep⟩
      · cases hStep
  | queueInLoop caller functor =>
      refine Or.inr ?_
      simp only [step, Option.ite_none_right_eq_some, Option.some.injEq] at hStep
      obtain ⟨-, rfl⟩ := hStep
      exact ⟨rfl, rfl, [functor], rfl, rfl⟩
  | runInLoop caller functor =>
      refine Or.inr ?_
      simp only [step, Option.ite_none_right_eq_some, Option.some.injEq] at hStep
      obtain ⟨-, rfl⟩ := hStep
      cases caller with
      | loopThread => exact ⟨rfl, rfl, [], by simp [runInLoop], by simp [runInLoop]⟩
      | other thread => exact ⟨rfl, rfl, [functor], rfl, rfl⟩
  | quit caller =>
      refine Or.inr ?_
      simp only [step, Option.ite_none_right_eq_some, Option.some.injEq] at hStep
      obtain ⟨-, rfl⟩ := hStep
      exact ⟨rfl, rfl, [], by simp [quitStore, setCall], by simp [quitStore, setCall]⟩
  | finishCall caller =>
      refine Or.inr ?_
      simp only [step, Option.ite_none_left_eq_some, Option.some.injEq] at hStep
      obtain ⟨-, rfl⟩ := hStep
      unfold finishCall
      split
      · exact ⟨rfl, rfl, [], by simp [wakeup, setCall], by simp [wakeup, setCall]⟩
      · exact ⟨rfl, rfl, [], by simp [setCall], by simp [setCall]⟩

theorem step_conserves (s : EventLoop F T) (label : LoopLabel F T) (s' : EventLoop F T)
    (hConserves : Conserves s) (hStep : step s label = some s') : Conserves s' := by
  rcases step_queue hStep with ⟨act, -, -, hMoves⟩ | ⟨hPc, hExecuted, more, hPending, hPushed⟩
  · exact hMoves.conserves hConserves
  · unfold Conserves
    rw [hPc, hExecuted, hPending, hPushed, ← hConserves]
    simp

theorem step_serves (queued : List F) (s : EventLoop F T) (label : LoopLabel F T)
    (s' : EventLoop F T) (hServes : Serves queued s) (hStep : step s label = some s') :
    Serves queued s' := by
  rcases step_queue hStep with ⟨act, -, -, hMoves⟩ | ⟨hPc, hExecuted, more, hPending, -⟩
  · exact hMoves.serves hServes
  · unfold Serves at hServes ⊢
    rw [hPc, hExecuted, hPending]
    rcases hServes with hDone | ⟨hQueued, hBefore⟩
    · exact Or.inl hDone
    · refine Or.inr ⟨?_, hBefore⟩
      have hLonger := hQueued.trans (List.prefix_append _ more)
      simpa using hLonger

theorem exec_serves {queued : List F} {s final : EventLoop F T} {labels : List (LoopLabel F T)}
    (hServes : Serves queued s) (hRun : exec step s labels = some final)
    (hOutside : final.pc = .outside) : queued <+: final.executed :=
  (exec_invariant (Serves queued) (step_serves queued) hServes hRun).executed hOutside

/-- The functor queue is an exactly-once FIFO, in every interleaving.  At every
moment the executed functors, the rest of the batch and the pending functors
are the functors in the order of their pushes.  When `Loop()` has returned, every
functor pushed before a swap has been executed.  When it has returned after a
`Quit` on the loop thread, every functor pushed before a handler's `Quit` has
been executed, and so has the whole batch of a functor that called `Quit`. -/
theorem functorQueue_exactlyOnce_fifo {labels : List (LoopLabel F T)} {s : EventLoop F T}
    (hRun : exec step new labels = some s) :
    s.executed ++ unstarted s.pc ++ s.pendingFunctors = s.pushed ∧
    (∀ (s' : EventLoop F T) (later : List (LoopLabel F T)) (final : EventLoop F T),
      step s (.loop .swap) = some s' → exec step s' later = some final →
      final.pc = .outside → s.pushed <+: final.executed) ∧
    (∀ (s' : EventLoop F T) (later : List (LoopLabel F T)) (final : EventLoop F T),
      step s (.quit .loopThread) = some s' → exec step s' later = some final →
      final.pc = .outside →
      (s.pc = .handling → s.pushed <+: final.executed) ∧
      ∀ rest, s.pc = .running rest → s.executed ++ rest <+: final.executed) := by
  have hNew : Conserves (new : EventLoop F T) := rfl
  have hConserves : Conserves s := exec_invariant Conserves step_conserves hNew hRun
  refine ⟨hConserves, ?_, ?_⟩
  · intro s' later final hSwap hLater hOutside
    simp only [step, Option.ite_none_right_eq_some] at hSwap
    cases moves_of_loopStep hSwap.2 with
    | swap hPc =>
        -- Everything that was pushed is executed or in the new batch.
        refine exec_serves (Or.inl ?_) hLater hOutside
        rw [← hConserves, hPc]
        simp [unstarted]
  · intro s' later final hQuit hLater hOutside
    simp only [step, Option.ite_none_right_eq_some, Option.some.injEq] at hQuit
    obtain ⟨-, rfl⟩ := hQuit
    constructor
    · intro hPc
      have hServes : Serves s.pushed (s.quitStore .loopThread) := by
        refine Or.inr ⟨?_, Or.inl hPc⟩
        show s.pushed <+: s.executed ++ unstarted s.pc ++ s.pendingFunctors
        rw [hConserves]
      exact exec_serves hServes hLater hOutside
    · intro rest hPc
      -- The batch of the functor that calls `Quit` is executed to its end.
      refine exec_serves (Or.inl ?_) hLater hOutside
      show s.executed ++ rest <+: s.executed ++ unstarted s.pc
      rw [hPc]
      exact List.prefix_rfl

/-- Two functors are pushed, the first one calls `Quit`, and `Loop()` returns
after both. -/
def quitInFunctor : List (LoopLabel Nat Nat) :=
  [.queueInLoop (.other 0) 1, .queueInLoop (.other 1) 2, .loop .enter, .loop .testTop,
    .loop .pollReturn, .loop .endHandling, .loop .startPending, .loop .swap, .loop .runNext]

theorem functorQueue_exactlyOnce_fifo_quitInFunctor :
    ∃ s : EventLoop Nat Nat, exec step new quitInFunctor = some s ∧
      s.pc = .running [2] ∧
      s.executed ++ unstarted s.pc ++ s.pendingFunctors = [1, 2] ∧
      ∃ final, exec step s [.quit .loopThread, .finishCall .loopThread,
          .loop .functorReturn, .loop .runNext, .loop .functorReturn, .loop .endPending,
          .loop .destroyFunctors, .loop .testBottom] = some final ∧
        final.pc = .outside ∧ [1, 2] <+: final.executed := by
  refine ⟨_, rfl, rfl, (@functorQueue_exactlyOnce_fifo Nat Nat _ quitInFunctor _ rfl).1, _,
    rfl, rfl, ?_⟩
  exact ((@functorQueue_exactlyOnce_fifo Nat Nat _ quitInFunctor _ rfl).2.2 _
    [.finishCall .loopThread, .loop .functorReturn, .loop .runNext, .loop .functorReturn,
      .loop .endPending, .loop .destroyFunctors, .loop .testBottom] _ rfl rfl rfl).2 _ rfl

end Steps

/-! ## Wakeups -/

/-- `DoPendingFunctors` is executing. -/
def draining : LoopPc F → Bool
  | .swapping | .batch _ | .running _ => true
  | _ => false

/-- With `m_quit` set the loop does not poll again. -/
def leaving : LoopPc F → Bool
  | .outside | .top | .destroying | .testing => true
  | _ => false

/-- `Poll` may come before the next swap. -/
def exposed : LoopPc F → Bool
  | .handling | .pending | .swapping => false
  | _ => true

/-- The eventfd is readable, or another thread that has pushed its functor has
yet to execute its `Wakeup`. -/
def WakeupComing (s : EventLoop F T) : Prop :=
  s.wakeupCounter ≠ 0 ∨ ∃ thread, s.calls (.other thread) = .queued

/-- Whenever the loop thread is about to block in `Poll` with work in its
queue, a wakeup has come or will come. -/
def NoLostWakeup (s : EventLoop F T) : Prop :=
  s.pc = .poll → s.pendingFunctors ≠ [] → WakeupComing s

/-- The loop will not block on the queue: a wakeup is coming, the loop thread
itself is inside a `QueueInLoop` that will issue one, or `m_quit` keeps the loop
from polling. -/
def Alerted (s : EventLoop F T) : Prop :=
  WakeupComing s ∨ (s.calls .loopThread = .queued ∧ draining s.pc = true) ∨
    (s.quit = true ∧ leaving s.pc = true)

/-- The invariant behind the absence of lost wakeups. -/
structure Notified (s : EventLoop F T) : Prop where
  calling_eq : s.callingPendingFunctors = draining s.pc
  loop_call : s.calls .loopThread ≠ .idle → inUserCode s.pc = true
  alerted : exposed s.pc = true → s.pendingFunctors ≠ [] → Alerted s

theorem notified_new : Notified (new : EventLoop F T) where
  calling_eq := rfl
  loop_call := fun hCall => absurd rfl hCall
  alerted := fun _ hPending => absurd rfl hPending

/-- When the loop thread is in no call, the alert is a matter of the eventfd, or the loop
is leaving. -/
theorem Alerted.of_idle {s : EventLoop F T} (hAlerted : Alerted s)
    (hIdle : s.calls .loopThread = .idle) :
    WakeupComing s ∨ (s.quit = true ∧ leaving s.pc = true) := by
  rcases hAlerted with hComing | ⟨hQueued, -⟩ | hLeaving
  · exact Or.inl hComing
  · rw [hIdle] at hQueued
    cases hQueued
  · exact Or.inr hLeaving

theorem Alerted.wakeupComing {s : EventLoop F T} (hAlerted : Alerted s)
    (hIdle : s.calls .loopThread = .idle) (hPolls : leaving s.pc = false) : WakeupComing s := by
  refine (hAlerted.of_idle hIdle).resolve_right ?_
  rintro ⟨-, hLeaving⟩
  rw [hPolls] at hLeaving
  cases hLeaving

theorem Moves.notified {s s' : EventLoop F T} {act : LoopAct} (hMoves : Moves s act s')
    (hIdle : s.calls .loopThread = .idle) (hNotified : Notified s) : Notified s' := by
  obtain ⟨hCalling, -, hAlerted⟩ := hNotified
  cases hMoves with
  | enter hPc =>
      refine ⟨by simpa [hPc, draining] using hCalling, absurd hIdle, fun _ hPending => ?_⟩
      rcases (hAlerted (by rw [hPc]; rfl) hPending).of_idle hIdle with hComing | ⟨hQuit, -⟩
      · exact Or.inl hComing
      · exact Or.inr (Or.inr ⟨hQuit, rfl⟩)
  | testTop hPc =>
      refine ⟨?_, absurd hIdle, fun hExposed hPending => Or.inl ?_⟩
      · by_cases hQuit : s.quit = true <;> simpa [hPc, hQuit, draining] using hCalling
      · -- With `m_quit` set the loop goes on to the swap, not to `Poll`.
        refine ((hAlerted (by rw [hPc]; rfl) hPending).of_idle hIdle).resolve_right ?_
        rintro ⟨hQuit, -⟩
        simp [hQuit, exposed] at hExposed
  | pollReturn hPc | endHandling hPc =>
      exact ⟨by simpa [hPc, draining] using hCalling, absurd hIdle,
        fun hExposed => by cases hExposed⟩
  | handleRead hPc =>
      -- The counter is reset here, and the swap is still to come.
      refine ⟨hCalling, absurd hIdle, fun hExposed => ?_⟩
      rw [show s.handleRead.pc = s.pc from rfl, hPc] at hExposed
      cases hExposed
  | startPending hPc => exact ⟨rfl, absurd hIdle, fun hExposed => by cases hExposed⟩
  | swap hPc =>
      exact ⟨by simpa [hPc, draining] using hCalling, absurd hIdle,
        fun _ hPending => absurd rfl hPending⟩
  | runNext functor rest hPc =>
      refine ⟨by simpa [hPc, draining] using hCalling, absurd hIdle, ?_⟩
      intro _ hPending
      exact Or.inl ((hAlerted (by rw [hPc]; rfl) hPending).wakeupComing hIdle (by rw [hPc]; rfl))
  | functorReturn rest hPc =>
      refine ⟨by simpa [hPc, draining] using hCalling, absurd hIdle, ?_⟩
      intro _ hPending
      exact Or.inl ((hAlerted (by rw [hPc]; rfl) hPending).wakeupComing hIdle (by rw [hPc]; rfl))
  | endPending hPc =>
      refine ⟨rfl, absurd hIdle, fun _ hPending => Or.inl ?_⟩
      exact (hAlerted (by rw [hPc]; rfl) hPending).wakeupComing hIdle (by rw [hPc]; rfl)
  | destroyFunctors hPc =>
      refine ⟨by simpa [hPc, draining] using hCalling, absurd hIdle, fun _ hPending => ?_⟩
      rcases (hAlerted (by rw [hPc]; rfl) hPending).of_idle hIdle with hComing | ⟨hQuit, -⟩
      · exact Or.inl hComing
      · exact Or.inr (Or.inr ⟨hQuit, rfl⟩)
  | testBottom hPc =>
      refine ⟨?_, absurd hIdle, fun _ hPending => ?_⟩
      · by_cases hQuit : s.quit = true <;> simpa [hPc, hQuit, draining] using hCalling
      · rcases (hAlerted (by rw [hPc]; rfl) hPending).of_idle hIdle with hComing | ⟨hQuit, -⟩
        · exact Or.inl hComing
        · refine Or.inr (Or.inr ⟨hQuit, ?_⟩)
          simp [hQuit, leaving]

section Steps

variable [DecidableEq T]

/-- While `m_quit` is not set, the loop thread does not queue a functor outside `Loop()`,
nor in a destructor that runs while `DoPendingFunctors` destroys its functors. -/
def NoEarlyQueue (s : EventLoop F T) : LoopLabel F T → Prop
  | .queueInLoop .loopThread _ => s.pc = .outside ∨ s.pc = .destroying → s.quit = true
  | _ => True

instance [DecidableEq F] (s : EventLoop F T) (label : LoopLabel F T) :
    Decidable (NoEarlyQueue s label) :=
  match label with
  | .queueInLoop .loopThread _ =>
      inferInstanceAs (Decidable (s.pc = .outside ∨ s.pc = .destroying → s.quit = true))
  | .queueInLoop (.other _) _ | .loop _ | .runInLoop _ _ | .quit _ | .finishCall _ =>
      isTrue trivial

/-- The call slot of one thread changes; the others keep theirs. -/
theorem WakeupComing.setCall {s : EventLoop F T} (hComing : WakeupComing s)
    {caller : Caller T} {pc : CallPc} (hCaller : s.calls caller ≠ .queued) :
    WakeupComing (s.setCall caller pc) := by
  rcases hComing with hCounter | ⟨thread, hThread⟩
  · exact Or.inl hCounter
  · refine Or.inr ⟨thread, ?_⟩
    have hNe : Caller.other thread ≠ caller := by
      rintro rfl
      exact hCaller hThread
    show Function.update s.calls caller pc (.other thread) = .queued
    rw [Function.update_of_ne hNe, hThread]

omit [DecidableEq T] in
theorem canCall_idle {s : EventLoop F T} {caller : Caller T} (hCan : s.canCall caller = true) :
    s.calls caller = .idle := by
  simp only [canCall, Bool.and_eq_true, beq_iff_eq] at hCan
  exact hCan.1

omit [DecidableEq T] in
theorem canCall_loopThread {s : EventLoop F T} (hCan : s.canCall .loopThread = true) :
    inUserCode s.pc = true := by
  simp only [canCall, Bool.and_eq_true] at hCan
  exact hCan.2

/-- A call that starts leaves the loop thread in user code. -/
theorem setCall_loop_call {s : EventLoop F T} (hNotified : Notified s) {caller : Caller T}
    {pc : CallPc} (hCan : s.canCall caller = true)
    (hCall : (s.setCall caller pc).calls .loopThread ≠ .idle) : inUserCode s.pc = true := by
  by_cases hCaller : caller = .loopThread
  · rw [hCaller] at hCan
    exact canCall_loopThread hCan
  · apply hNotified.loop_call
    intro hIdle
    apply hCall
    show Function.update s.calls caller pc .loopThread = .idle
    rw [Function.update_of_ne (Ne.symm hCaller), hIdle]

theorem queueInLoop_notified {s : EventLoop F T} {caller : Caller T} {functor : F}
    (hNotified : Notified s) (hCan : s.canCall caller = true)
    (hEarly : NoEarlyQueue s (.queueInLoop caller functor)) :
    Notified (s.queueInLoop caller functor) := by
  refine ⟨hNotified.calling_eq, setCall_loop_call hNotified hCan, ?_⟩
  intro hExposed _
  cases caller with
  | other thread =>
      -- The `Wakeup` of this very call is still to come.
      refine Or.inl (Or.inr ⟨thread, ?_⟩)
      show Function.update s.calls (.other thread) .queued (.other thread) = .queued
      rw [Function.update_self]
  | loopThread =>
      -- The loop thread queues from outside `Loop()`, from a handler, from a functor, or
      -- from a destructor.
      have hUser := canCall_loopThread hCan
      have hSlot : (s.queueInLoop .loopThread functor).calls .loopThread = .queued := by
        simp [queueInLoop, setCall]
      cases hPc : s.pc with
      | outside | destroying =>
          refine Or.inr (Or.inr ⟨hEarly (by simp [hPc]), ?_⟩)
          show leaving s.pc = true
          rw [hPc]
          rfl
      | running rest =>
          -- `m_calling_pending_functors` is set, so the call will issue a `Wakeup`.
          refine Or.inr (Or.inl ⟨hSlot, ?_⟩)
          show draining s.pc = true
          rw [hPc]
          rfl
      | handling =>
          -- `DoPendingFunctors` comes before the next `Poll`.
          have hHandling : exposed s.pc = true := hExposed
          rw [hPc] at hHandling
          cases hHandling
      | top | poll | pending | swapping | batch rest | testing =>
          rw [hPc] at hUser
          cases hUser

theorem quitStore_notified {s : EventLoop F T} {caller : Caller T} (hNotified : Notified s)
    (hCan : s.canCall caller = true) : Notified (s.quitStore caller) := by
  refine ⟨hNotified.calling_eq, setCall_loop_call hNotified hCan, ?_⟩
  intro hExposed hPending
  have hIdle := canCall_idle hCan
  rcases hNotified.alerted hExposed hPending with hComing | ⟨hQueued, hDraining⟩ | ⟨-, hPc⟩
  · refine Or.inl (WakeupComing.setCall (s := { s with quit := true }) hComing ?_)
    simp [hIdle]
  · refine Or.inr (Or.inl ⟨?_, hDraining⟩)
    have hNe : Caller.loopThread ≠ caller := by
      rintro rfl
      rw [hIdle] at hQueued
      cases hQueued
    show Function.update s.calls caller .quitting .loopThread = .queued
    rw [Function.update_of_ne hNe, hQueued]
  · exact Or.inr (Or.inr ⟨rfl, hPc⟩)

omit [DecidableEq T] in
/-- A call that ends without a `Wakeup` is one of the loop thread. -/
theorem loopThread_of_not_wakes {s : EventLoop F T} {caller : Caller T}
    (hCall : s.calls caller ≠ .idle) (hWakes : s.wakes caller = false) :
    caller = .loopThread ∧
      (s.calls .loopThread = .queued → s.callingPendingFunctors = false) := by
  cases caller with
  | loopThread =>
      refine ⟨rfl, fun hQueued => ?_⟩
      simpa [wakes, hQueued] using hWakes
  | other thread =>
      cases hPc : s.calls (.other thread) with
      | idle => exact absurd hPc hCall
      | queued => simp [wakes, hPc] at hWakes
      | quitting => simp [wakes, hPc] at hWakes

theorem finishCall_notified {s : EventLoop F T} {caller : Caller T} (hNotified : Notified s)
    (hCall : s.calls caller ≠ .idle) : Notified (s.finishCall caller) := by
  unfold finishCall
  have hLoop : ∀ s₀ : EventLoop F T, s₀.calls = s.calls → s₀.pc = s.pc →
      (s₀.setCall caller .idle).calls .loopThread ≠ .idle → inUserCode s.pc = true := by
    intro s₀ hCalls hPc hBusy
    apply hNotified.loop_call
    intro hIdle
    apply hBusy
    show Function.update s₀.calls caller .idle .loopThread = .idle
    rw [hCalls]
    by_cases hCaller : Caller.loopThread = caller
    · rw [hCaller, Function.update_self]
    · rw [Function.update_of_ne hCaller, hIdle]
  cases hWakes : s.wakes caller with
  | true =>
      refine ⟨hNotified.calling_eq, hLoop _ rfl rfl, fun _ _ => Or.inl (Or.inl ?_)⟩
      exact Nat.succ_ne_zero s.wakeupCounter
  | false =>
      obtain ⟨rfl, hCalling⟩ := loopThread_of_not_wakes hCall hWakes
      refine ⟨hNotified.calling_eq, hLoop _ rfl rfl, fun hExposed hPending => ?_⟩
      rcases hNotified.alerted hExposed hPending with hComing | ⟨hQueued, hDraining⟩ | hQuit
      · -- The slot that is cleared is not the one of the other thread.
        rcases hComing with hCounter | ⟨thread, hThread⟩
        · exact Or.inl (Or.inl hCounter)
        · refine Or.inl (Or.inr ⟨thread, ?_⟩)
          show Function.update s.calls .loopThread .idle (.other thread) = .queued
          rw [Function.update_of_ne (by simp), hThread]
      · rw [← hNotified.calling_eq, hCalling hQueued] at hDraining
        cases hDraining
      · exact Or.inr (Or.inr hQuit)

theorem step_notified (s : EventLoop F T) (label : LoopLabel F T) (s' : EventLoop F T)
    (hNotified : Notified s) (hEarly : NoEarlyQueue s label)
    (hStep : step s label = some s') : Notified s' := by
  cases label with
  | loop act =>
      simp only [step, Option.ite_none_right_eq_some] at hStep
      exact (moves_of_loopStep hStep.2).notified hStep.1 hNotified
  | queueInLoop caller functor =>
      simp only [step, Option.ite_none_right_eq_some, Option.some.injEq] at hStep
      obtain ⟨hCan, rfl⟩ := hStep
      exact queueInLoop_notified hNotified hCan hEarly
  | runInLoop caller functor =>
      simp only [step, Option.ite_none_right_eq_some, Option.some.injEq] at hStep
      obtain ⟨hCan, rfl⟩ := hStep
      cases caller with
      | loopThread => exact ⟨hNotified.calling_eq, hNotified.loop_call, hNotified.alerted⟩
      | other thread => exact queueInLoop_notified hNotified hCan trivial
  | quit caller =>
      simp only [step, Option.ite_none_right_eq_some, Option.some.injEq] at hStep
      obtain ⟨hCan, rfl⟩ := hStep
      exact quitStore_notified hNotified hCan
  | finishCall caller =>
      simp only [step, Option.ite_none_left_eq_some, Option.some.injEq] at hStep
      obtain ⟨hCall, rfl⟩ := hStep
      exact finishCall_notified hNotified hCall

/-- No wakeup is lost in a run in which the loop thread queues nothing while it
is outside `Loop()` or destroys the functors that it has run. -/
theorem noLostWakeup_of_noEarlyQueue {labels : List (LoopLabel F T)} {s : EventLoop F T}
    (hMeets : Meets step NoEarlyQueue new labels) (hRun : exec step new labels = some s) :
    NoLostWakeup s := by
  have hNotified : Notified s :=
    exec_invariant_of_meets Notified step_notified notified_new hMeets hRun
  intro hPoll hPending
  refine (hNotified.alerted (by rw [hPoll]; rfl) hPending).wakeupComing ?_ (by rw [hPoll]; rfl)
  by_contra hCall
  have hUser := hNotified.loop_call hCall
  rw [hPoll] at hUser
  cases hUser

/-- A functor queued from a handler runs before the next `Poll`; one that another
thread pushes in the meantime comes with a wakeup. -/
def queueInHandler : List (LoopLabel Nat Nat) :=
  [.loop .enter, .loop .testTop, .loop .pollReturn, .queueInLoop .loopThread 1,
    .finishCall .loopThread, .loop .endHandling, .loop .startPending, .loop .swap,
    .queueInLoop (.other 0) 2, .loop .runNext, .loop .functorReturn, .loop .endPending,
    .loop .destroyFunctors, .loop .testBottom, .loop .testTop]

theorem noLostWakeup_queueInHandler :
    ∃ s : EventLoop Nat Nat, exec step new queueInHandler = some s ∧
      s.pc = .poll ∧ s.pendingFunctors = [2] ∧ NoLostWakeup s := by
  refine ⟨_, rfl, rfl, rfl, ?_⟩
  exact @noLostWakeup_of_noEarlyQueue Nat Nat _ queueInHandler _ (by decide) rfl

/-- The loop thread queues a functor, enters `Loop()` and blocks. -/
def queueBeforeLoop : List (LoopLabel Nat Nat) :=
  [.queueInLoop .loopThread 1, .finishCall .loopThread, .loop .enter, .loop .testTop]

theorem not_noLostWakeup_queueBeforeLoop :
    ∃ s : EventLoop Nat Nat, exec step new queueBeforeLoop = some s ∧ ¬ NoLostWakeup s := by
  refine ⟨_, rfl, ?_⟩
  intro hNoLost
  rcases hNoLost rfl (List.cons_ne_nil 1 []) with hCounter | ⟨thread, hThread⟩
  · exact hCounter rfl
  · cases hThread

/-- A functor of another thread has run, and what it captured queues a functor when it is
destroyed: the loop comes to `Poll` with work and without a wakeup. -/
example : (exec step (new : EventLoop Nat Nat)
    [.loop .enter, .loop .testTop, .queueInLoop (.other 0) 1, .finishCall (.other 0),
      .loop .pollReturn, .loop .handleRead, .loop .endHandling, .loop .startPending,
      .loop .swap, .loop .runNext, .loop .functorReturn, .loop .endPending,
      .queueInLoop .loopThread 2, .finishCall .loopThread, .loop .destroyFunctors,
      .loop .testBottom, .loop .testTop]).map
        (fun s => (s.pc, s.pendingFunctors, s.wakeupCounter, s.calls (.other 0))) =
    some (.poll, [2], 0, .idle) := by
  decide

end Steps

end EventLoop
end SolarNet
