import SolarNet.Net.EventLoopRuns

/-!
# `Quit` is never lost

`Loop()` tests `m_quit` twice in each iteration, and `Quit` on another thread
stores the flag and then wakes the loop through the eventfd.  The same eventfd
serves the functor queue and is drained by `HandleRead`.

Once a call of `Quit` has returned, the loop is *ending*: the flag is set, and
the eventfd is readable as long as the loop thread is at `Poll`.  An ending loop
stays so.  What it still does in `Loop()` is fixed: `ending` lists the
steps between two pieces of user code that are left, and `Poll` occurs among them
only where the loop thread has passed the first test already.
-/

namespace SolarNet
namespace EventLoop

open Lib

variable {F T : Type*}

/-! ## Calls in progress -/

/-- A `Quit` in progress has stored the flag, and the loop thread makes calls only from
user code. -/
structure CallsOrdered (s : EventLoop F T) : Prop where
  quit_stored : ∀ caller, s.calls caller = .quitting → s.quit = true
  loop_call : s.calls .loopThread ≠ .idle → inUserCode s.pc = true

theorem callsOrdered_new : CallsOrdered (new : EventLoop F T) where
  quit_stored := fun _ hCall => by cases hCall
  loop_call := fun hCall => absurd rfl hCall

/-- The step of `Loop()` itself that a label stands for; the steps of the handlers, of the
functors and of the other threads are left out. -/
def controlAct : LoopLabel F T → Option LoopAct
  | .loop .handleRead | .loop .runNext | .loop .functorReturn => none
  | .loop act => some act
  | _ => none

/-- A step of `Loop()` changes neither the calls nor the flag. -/
theorem Moves.calls_eq {s s' : EventLoop F T} {act : LoopAct} (hMoves : Moves s act s') :
    s'.calls = s.calls ∧ s'.quit = s.quit := by
  cases hMoves <;> exact ⟨rfl, rfl⟩

section Steps

variable [DecidableEq T]

/-- The steps of a call leave the loop thread where it is, do not reset the flag and do
not drain the eventfd. -/
theorem step_call_frame {s s' : EventLoop F T} {label : LoopLabel F T}
    (hStep : step s label = some s') :
    (∃ act, label = .loop act ∧ s.calls .loopThread = .idle ∧ Moves s act s') ∨
      controlAct label = none ∧ s'.pc = s.pc ∧ (s.quit = true → s'.quit = true) ∧
        s.wakeupCounter ≤ s'.wakeupCounter := by
  cases label with
  | loop act =>
      simp only [step, Option.ite_none_right_eq_some] at hStep
      exact Or.inl ⟨act, rfl, hStep.1, moves_of_loopStep hStep.2⟩
  | queueInLoop caller functor =>
      simp only [step, Option.ite_none_right_eq_some, Option.some.injEq] at hStep
      obtain ⟨-, rfl⟩ := hStep
      exact Or.inr ⟨rfl, rfl, id, le_rfl⟩
  | runInLoop caller functor =>
      simp only [step, Option.ite_none_right_eq_some, Option.some.injEq] at hStep
      obtain ⟨-, rfl⟩ := hStep
      cases caller with
      | loopThread => exact Or.inr ⟨rfl, rfl, id, le_rfl⟩
      | other thread => exact Or.inr ⟨rfl, rfl, id, le_rfl⟩
  | quit caller =>
      simp only [step, Option.ite_none_right_eq_some, Option.some.injEq] at hStep
      obtain ⟨-, rfl⟩ := hStep
      exact Or.inr ⟨rfl, rfl, fun _ => rfl, le_rfl⟩
  | finishCall caller =>
      simp only [step, Option.ite_none_left_eq_some, Option.some.injEq] at hStep
      obtain ⟨-, rfl⟩ := hStep
      unfold finishCall
      split
      · exact Or.inr ⟨rfl, rfl, id, Nat.le_succ s.wakeupCounter⟩
      · exact Or.inr ⟨rfl, rfl, id, le_rfl⟩

/-- A thread's call slot changes to `pc`. -/
theorem CallsOrdered.setCall {s : EventLoop F T} (hOrdered : CallsOrdered s)
    {caller : Caller T} {pc : CallPc} (hQuit : pc = .quitting → s.quit = true)
    (hUser : pc ≠ .idle → caller = .loopThread → inUserCode s.pc = true) :
    CallsOrdered (s.setCall caller pc) := by
  constructor
  · intro other hOther
    by_cases hSame : other = caller
    · subst hSame
      exact hQuit (by simpa [EventLoop.setCall] using hOther)
    · exact hOrdered.quit_stored other (by simpa [EventLoop.setCall, hSame] using hOther)
  · intro hBusy
    by_cases hSame : Caller.loopThread = caller
    · subst hSame
      exact hUser (by simpa [EventLoop.setCall] using hBusy) rfl
    · exact hOrdered.loop_call (by simpa [EventLoop.setCall, hSame] using hBusy)

theorem step_callsOrdered (s : EventLoop F T) (label : LoopLabel F T) (s' : EventLoop F T)
    (hOrdered : CallsOrdered s) (hStep : step s label = some s') : CallsOrdered s' := by
  have hQueue : ∀ caller functor, s.canCall caller = true →
      CallsOrdered (s.queueInLoop caller functor) := by
    intro caller functor hCan
    have hPushed : CallsOrdered { s with
        pendingFunctors := s.pendingFunctors ++ [functor]
        pushed := s.pushed ++ [functor] } := ⟨hOrdered.quit_stored, hOrdered.loop_call⟩
    refine hPushed.setCall (fun hEq => by cases hEq) ?_
    rintro - rfl
    exact canCall_loopThread hCan
  cases label with
  | loop act =>
      simp only [step, Option.ite_none_right_eq_some] at hStep
      obtain ⟨hCalls, hQuit⟩ := (moves_of_loopStep hStep.2).calls_eq
      constructor
      · rw [hCalls, hQuit]
        exact hOrdered.quit_stored
      · rw [hCalls]
        exact absurd hStep.1
  | queueInLoop caller functor =>
      simp only [step, Option.ite_none_right_eq_some, Option.some.injEq] at hStep
      obtain ⟨hCan, rfl⟩ := hStep
      exact hQueue caller functor hCan
  | runInLoop caller functor =>
      simp only [step, Option.ite_none_right_eq_some, Option.some.injEq] at hStep
      obtain ⟨hCan, rfl⟩ := hStep
      cases caller with
      | loopThread => exact ⟨hOrdered.quit_stored, hOrdered.loop_call⟩
      | other thread => exact hQueue (.other thread) functor hCan
  | quit caller =>
      simp only [step, Option.ite_none_right_eq_some, Option.some.injEq] at hStep
      obtain ⟨hCan, rfl⟩ := hStep
      have hStored : CallsOrdered { s with quit := true } := ⟨fun _ _ => rfl, hOrdered.loop_call⟩
      refine hStored.setCall (fun _ => rfl) ?_
      rintro - rfl
      exact canCall_loopThread hCan
  | finishCall caller =>
      simp only [step, Option.ite_none_left_eq_some, Option.some.injEq] at hStep
      obtain ⟨-, rfl⟩ := hStep
      unfold finishCall
      split
      · have hWoken : CallsOrdered s.wakeup := ⟨hOrdered.quit_stored, hOrdered.loop_call⟩
        exact hWoken.setCall (fun hEq => by cases hEq) (fun hNe => absurd rfl hNe)
      · exact hOrdered.setCall (fun hEq => by cases hEq) (fun hNe => absurd rfl hNe)

end Steps

/-! ## A loop that is ending -/

/-- `m_quit` is set, and `Poll` does not block. -/
structure Ending (s : EventLoop F T) : Prop where
  quit_set : s.quit = true
  readable : s.pc = .poll → s.wakeupCounter ≠ 0

/-- The steps of `DoPendingFunctors` and the second test. -/
def lastPass : List LoopAct :=
  [.startPending, .swap, .endPending, .destroyFunctors, .testBottom]

/-- The steps that are left in `Loop()` once `m_quit` is set, apart from those of the
handlers and of the functors. -/
def ending : LoopPc F → List LoopAct
  | .outside => []
  | .top => .testTop :: lastPass
  | .poll => .pollReturn :: .endHandling :: lastPass
  | .handling => .endHandling :: lastPass
  | .pending => lastPass
  | .swapping => [.swap, .endPending, .destroyFunctors, .testBottom]
  | .batch _ | .running _ => [.endPending, .destroyFunctors, .testBottom]
  | .destroying => [.destroyFunctors, .testBottom]
  | .testing => [.testBottom]

theorem Moves.ending {s s' : EventLoop F T} {act : LoopAct} (hMoves : Moves s act s')
    (hEnding : Ending s) : Ending s' := by
  obtain ⟨hQuit, hReadable⟩ := hEnding
  cases hMoves with
  | testTop hPc => exact ⟨hQuit, by simp [hQuit]⟩
  | testBottom hPc => exact ⟨hQuit, by simp [hQuit]⟩
  | handleRead hPc => exact ⟨hQuit, by simp [EventLoop.handleRead, hPc]⟩
  | enter hPc | pollReturn hPc | endHandling hPc | startPending hPc | swap hPc
  | runNext functor rest hPc | functorReturn rest hPc | endPending hPc
  | destroyFunctors hPc => exact ⟨hQuit, by simp⟩

/-- A step of `Loop()` is the first of those that are left. -/
theorem Moves.controlAct_ending {s s' : EventLoop F T} {act : LoopAct}
    (hMoves : Moves s act s') (hQuit : s.quit = true) (hEnter : act ≠ .enter) :
    ((controlAct (.loop act : LoopLabel F T)).toList) ++ EventLoop.ending s'.pc =
      EventLoop.ending s.pc := by
  cases hMoves with
  | enter hPc => exact absurd rfl hEnter
  | testTop hPc | testBottom hPc => simp [hPc, hQuit, controlAct, EventLoop.ending]
  | handleRead hPc => simp [EventLoop.handleRead, hPc, controlAct, EventLoop.ending]
  | pollReturn hPc | endHandling hPc | startPending hPc | swap hPc
  | runNext functor rest hPc | functorReturn rest hPc | endPending hPc
  | destroyFunctors hPc => simp [hPc, controlAct, EventLoop.ending, lastPass]

/-- An ending loop does not come to `Poll` again. -/
theorem Moves.pollReturn_ending {s s' : EventLoop F T} {act : LoopAct}
    (hMoves : Moves s act s') (hQuit : s.quit = true) :
    (EventLoop.ending s'.pc).count .pollReturn +
        ((controlAct (.loop act : LoopLabel F T)).toList).count .pollReturn =
      (EventLoop.ending s.pc).count .pollReturn := by
  by_cases hEnter : act = .enter
  · subst hEnter
    cases hMoves with
    | enter hPc =>
        rw [hPc]
        rfl
  · rw [← hMoves.controlAct_ending hQuit hEnter, List.count_append, Nat.add_comm]

theorem count_ending_le (pc : LoopPc F) : (ending pc).count .pollReturn ≤ 1 := by
  cases pc <;> simp [ending, lastPass]

section Steps

variable [DecidableEq T]

theorem step_ending (s : EventLoop F T) (label : LoopLabel F T) (s' : EventLoop F T)
    (hEnding : Ending s) (hStep : step s label = some s') : Ending s' := by
  rcases step_call_frame hStep with ⟨act, -, -, hMoves⟩ | ⟨-, hPc, hQuit, hCounter⟩
  · exact hMoves.ending hEnding
  · refine ⟨hQuit hEnding.quit_set, fun hPoll => ?_⟩
    have hBefore := hEnding.readable (hPc ▸ hPoll)
    omega

/-- When `Quit` returns, the loop is ending. -/
theorem ending_of_quit {s s' : EventLoop F T} {caller : Caller T} (hOrdered : CallsOrdered s)
    (hCall : s.calls caller = .quitting) (hReturn : step s (.finishCall caller) = some s') :
    Ending s' := by
  have hQuit := hOrdered.quit_stored caller hCall
  simp only [step, hCall, reduceCtorEq, if_false, Option.some.injEq] at hReturn
  subst hReturn
  cases caller with
  | other thread =>
      have hWakes : s.wakes (.other thread) = true := by simp [wakes, hCall]
      simp only [finishCall, hWakes, if_true]
      exact ⟨hQuit, fun _ => Nat.succ_ne_zero s.wakeupCounter⟩
  | loopThread =>
      -- No wakeup is needed: the loop thread is not at `Poll`.
      have hUser := hOrdered.loop_call (by simp [hCall])
      have hWakes : s.wakes .loopThread = false := by simp [wakes, hCall]
      simp only [finishCall, hWakes, Bool.false_eq_true, if_false]
      refine ⟨hQuit, fun hPoll => ?_⟩
      have hPc : s.pc = .poll := hPoll
      rw [hPc] at hUser
      cases hUser

theorem exec_ending {s final : EventLoop F T} {labels : List (LoopLabel F T)}
    (hEnding : Ending s) (hRun : exec step s labels = some final) : Ending final :=
  exec_invariant Ending step_ending hEnding hRun

/-- `Poll` is entered at most once more. -/
theorem count_pollReturn {s final : EventLoop F T} {labels : List (LoopLabel F T)}
    (hEnding : Ending s) (hRun : exec step s labels = some final) :
    (labels.filterMap controlAct).count .pollReturn + (ending final.pc).count .pollReturn =
      (ending s.pc).count .pollReturn := by
  induction labels generalizing s with
  | nil =>
      obtain rfl : s = final := by simpa using hRun
      simp
  | cons label labels ih =>
      obtain ⟨next, hNext, hRest⟩ := exec_cons_eq_some.mp hRun
      have hTail := ih (step_ending s label next hEnding hNext) hRest
      rcases step_call_frame hNext with ⟨act, rfl, -, hMoves⟩ | ⟨hNone, hPc, -, -⟩
      · have hHead := hMoves.pollReturn_ending hEnding.quit_set
        rw [List.filterMap_cons]
        cases hAct : controlAct (.loop act : LoopLabel F T) with
        | none =>
            simp only [hAct, Option.toList_none, List.count_nil] at hHead ⊢
            omega
        | some found =>
            simp only [hAct, Option.toList_some, List.count_cons, List.count_nil] at hHead ⊢
            omega
      · rw [List.filterMap_cons, hNone, ← hPc]
        exact hTail

/-- Within one call of `Loop()` the steps taken and the steps that are left make up the
steps that were left before. -/
theorem acts_append_ending {s final : EventLoop F T} {labels : List (LoopLabel F T)}
    (hEnding : Ending s) (hRun : exec step s labels = some final)
    (hEnter : .loop .enter ∉ labels) :
    labels.filterMap controlAct ++ ending final.pc = ending s.pc := by
  induction labels generalizing s with
  | nil =>
      obtain rfl : s = final := by simpa using hRun
      rfl
  | cons label labels ih =>
      obtain ⟨next, hNext, hRest⟩ := exec_cons_eq_some.mp hRun
      rw [List.mem_cons, not_or] at hEnter
      have hTail := ih (step_ending s label next hEnding hNext) hRest hEnter.2
      rcases step_call_frame hNext with ⟨act, rfl, -, hMoves⟩ | ⟨hNone, hPc, -, -⟩
      · have hHead := hMoves.controlAct_ending hEnding.quit_set
          (fun hEq => hEnter.1 (by rw [hEq]))
        rw [← hHead, ← hTail, List.filterMap_cons]
        cases controlAct (.loop act : LoopLabel F T) <;> rfl
      · rw [List.filterMap_cons, hNone, ← hPc]
        exact hTail

/-! ## `Loop()` returns -/

/-- The loop thread comes out of `Loop()` by its own steps, without entering it again. -/
def Returns (s : EventLoop F T) : Prop :=
  ∃ (acts : List LoopAct) (final : EventLoop F T), .enter ∉ acts ∧
    exec step s (acts.map .loop) = some final ∧ final.pc = .outside

theorem Returns.of_loopStep {s s' : EventLoop F T} (act : LoopAct)
    (hIdle : s.calls .loopThread = .idle) (hStep : s.loopStep act = some s')
    (hAct : act ≠ .enter) (hReturns : Returns s') : Returns s := by
  obtain ⟨acts, final, hEnter, hRun, hPc⟩ := hReturns
  refine ⟨act :: acts, final, ?_, ?_, hPc⟩
  · rw [List.mem_cons, not_or]
    exact ⟨hAct.symm, hEnter⟩
  · refine exec_cons_eq_some.mpr ⟨s', ?_, hRun⟩
    simp [step, hIdle, hStep]

theorem returns_of_testing {s : EventLoop F T} (hQuit : s.quit = true)
    (hIdle : s.calls .loopThread = .idle) (hPc : s.pc = .testing) : Returns s := by
  have hStep : s.loopStep .testBottom = some { s with pc := .outside } := by
    simp [loopStep, hPc, hQuit]
  exact Returns.of_loopStep _ hIdle hStep (by decide) ⟨[], _, by simp, rfl, rfl⟩

theorem returns_of_destroying {s : EventLoop F T} (hQuit : s.quit = true)
    (hIdle : s.calls .loopThread = .idle) (hPc : s.pc = .destroying) : Returns s := by
  have hStep : s.loopStep .destroyFunctors = some { s with pc := .testing } := by
    simp [loopStep, hPc]
  exact Returns.of_loopStep _ hIdle hStep (by decide) (returns_of_testing hQuit hIdle rfl)

/-- The functors of the batch are run one after the other. -/
theorem returns_of_batch {s : EventLoop F T} (hQuit : s.quit = true)
    (hIdle : s.calls .loopThread = .idle) {rest : List F} (hPc : s.pc = .batch rest) :
    Returns s := by
  induction rest generalizing s with
  | nil =>
      have hStep : s.loopStep .endPending =
          some { s with callingPendingFunctors := false, pc := .destroying } := by
        simp [loopStep, hPc]
      exact Returns.of_loopStep _ hIdle hStep (by decide) (returns_of_destroying hQuit hIdle rfl)
  | cons functor rest ih =>
      have hRun : s.loopStep .runNext =
          some { s with executed := s.executed ++ [functor], pc := .running rest } := by
        simp [loopStep, hPc]
      exact Returns.of_loopStep _ hIdle hRun (by decide)
        (Returns.of_loopStep .functorReturn hIdle rfl (by decide) (ih hQuit hIdle rfl))

theorem returns_of_pending {s : EventLoop F T} (hQuit : s.quit = true)
    (hIdle : s.calls .loopThread = .idle) (hPc : s.pc = .pending ∨ s.pc = .swapping) :
    Returns s := by
  have hSwapping : ∀ t : EventLoop F T, t.quit = true → t.calls .loopThread = .idle →
      t.pc = .swapping → Returns t := by
    intro t hQuit hIdle hPc
    have hStep : t.loopStep .swap =
        some { t with pendingFunctors := [], pc := .batch t.pendingFunctors } := by
      simp [loopStep, hPc]
    exact Returns.of_loopStep _ hIdle hStep (by decide) (returns_of_batch hQuit hIdle rfl)
  rcases hPc with hPc | hPc
  · have hStep : s.loopStep .startPending =
        some { s with callingPendingFunctors := true, pc := .swapping } := by
      simp [loopStep, hPc]
    exact Returns.of_loopStep _ hIdle hStep (by decide) (hSwapping _ hQuit hIdle rfl)
  · exact hSwapping s hQuit hIdle hPc

/-- Wherever the loop thread is when `m_quit` is set, it can leave `Loop()`. -/
theorem returns_of_quit {s : EventLoop F T} (hQuit : s.quit = true)
    (hIdle : s.calls .loopThread = .idle) : Returns s := by
  have hHandling : ∀ t : EventLoop F T, t.quit = true → t.calls .loopThread = .idle →
      t.pc = .handling → Returns t := by
    intro t hQuit hIdle hPc
    have hStep : t.loopStep .endHandling = some { t with pc := .pending } := by
      simp [loopStep, hPc]
    exact Returns.of_loopStep _ hIdle hStep (by decide)
      (returns_of_pending hQuit hIdle (Or.inl rfl))
  cases hPc : s.pc with
  | outside => exact ⟨[], s, by simp, rfl, hPc⟩
  | top =>
      have hStep : s.loopStep .testTop = some { s with pc := .pending } := by
        simp [loopStep, hPc, hQuit]
      exact Returns.of_loopStep _ hIdle hStep (by decide)
        (returns_of_pending hQuit hIdle (Or.inl rfl))
  | poll =>
      have hStep : s.loopStep .pollReturn = some { s with pc := .handling } := by
        simp [loopStep, hPc]
      exact Returns.of_loopStep _ hIdle hStep (by decide) (hHandling _ hQuit hIdle rfl)
  | handling => exact hHandling s hQuit hIdle hPc
  | pending => exact returns_of_pending hQuit hIdle (Or.inl hPc)
  | swapping => exact returns_of_pending hQuit hIdle (Or.inr hPc)
  | batch rest => exact returns_of_batch hQuit hIdle hPc
  | running rest =>
      have hStep : s.loopStep .functorReturn = some { s with pc := .batch rest } := by
        simp [loopStep, hPc]
      exact Returns.of_loopStep _ hIdle hStep (by decide) (returns_of_batch hQuit hIdle rfl)
  | destroying => exact returns_of_destroying hQuit hIdle hPc
  | testing => exact returns_of_testing hQuit hIdle hPc

/-- **`Quit` is never lost.**  In every interleaving, and for a `Quit` of any thread at any
moment, after the call has returned: the loop thread enters `Poll` at most once more, and
whenever it is at `Poll` the eventfd is readable; within one call of `Loop()` it goes
through the steps of `ending` in their order, which lead through `DoPendingFunctors` to
the return; and it does return once its handlers and functors do. -/
theorem quit_never_lost {labels : List (LoopLabel F T)} {s t : EventLoop F T}
    {caller : Caller T} (hRun : exec step new labels = some s)
    (hQuit : s.calls caller = .quitting) (hReturn : step s (.finishCall caller) = some t)
    {later : List (LoopLabel F T)} {u : EventLoop F T} (hLater : exec step t later = some u) :
    (later.filterMap controlAct).count .pollReturn ≤ 1 ∧
      (u.pc = .poll → u.wakeupCounter ≠ 0) ∧
      (∀ rest final, exec step u rest = some final → .loop .enter ∉ rest →
        rest.filterMap controlAct ++ ending final.pc = ending u.pc) ∧
      (u.calls .loopThread = .idle → Returns u) := by
  have hOrdered : CallsOrdered s :=
    exec_invariant CallsOrdered step_callsOrdered callsOrdered_new hRun
  have hEnding := ending_of_quit hOrdered hQuit hReturn
  have hStill := exec_ending hEnding hLater
  refine ⟨?_, hStill.readable, ?_, returns_of_quit hStill.quit_set⟩
  · have hCount := count_pollReturn hEnding hLater
    have hBound := count_ending_le t.pc
    omega
  · intro rest final hRest hEnter
    exact acts_append_ending hStill hRest hEnter

/-- Another thread calls `Quit` while the loop thread is at `Poll`. -/
def quitAtPoll : List (LoopLabel Nat Nat) :=
  [.loop .enter, .loop .testTop, .quit (.other 0)]

theorem quit_never_lost_quitAtPoll :
    ∃ s t : EventLoop Nat Nat, exec step new quitAtPoll = some s ∧
      step s (.finishCall (.other 0)) = some t ∧ t.pc = .poll ∧ t.wakeupCounter ≠ 0 ∧
      Returns t := by
  refine ⟨_, _, rfl, rfl, rfl, ?_⟩
  have hNeverLost := @quit_never_lost Nat Nat _ quitAtPoll _ _ (.other 0) rfl rfl rfl [] _ rfl
  exact ⟨hNeverLost.2.1 rfl, hNeverLost.2.2.2 rfl⟩

end Steps

end EventLoop
end SolarNet
