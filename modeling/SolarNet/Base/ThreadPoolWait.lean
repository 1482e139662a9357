import SolarNet.Base.ThreadPoolRuns

/-!
# What a return of `Wait` means

`Wait` joins the threads one after another.  `Thread::Join` lets the first caller join
the thread and every later caller pass, whether the thread has ended or not.  So a return
of `Wait` means that the workers have left as long as no call passes a worker that is
still running.
-/

namespace SolarNet

open Lib

namespace ThreadPool

variable {n : Nat} {σ κ : Type*} {p p' : ThreadPool n σ κ}

/-- Every worker has left `RunWorker`, and the queue is empty. -/
def Finished (p : ThreadPool n σ κ) : Prop := (∀ w, p.worker w = .exited) ∧ p.tasks = []

/-- A call of `Wait` that returned, and `m_stopped`, mean that the pool is finished. -/
structure WaitSound (p : ThreadPool n σ κ) : Prop where
  returned : ∀ call, p.wait call = .returned → p.Finished
  stopped : p.stopped = true → p.Finished

/-- No `Join` finds `m_joined` set for a worker that has not left. -/
def JoinsExited (p : ThreadPool n σ κ) : PoolLabel n σ κ → Prop
  | .join call => ∀ i : Fin n, p.wait call = .joining i → p.joined i = true →
      p.worker i = .exited
  | _ => True

instance [DecidableEq σ] (p : ThreadPool n σ κ) (label : PoolLabel n σ κ) :
    Decidable (JoinsExited p label) := by
  cases label with
  | join call =>
      exact inferInstanceAs (Decidable (∀ i : Fin n, p.wait call = .joining i →
        p.joined i = true → p.worker i = .exited))
  | _ => exact isTrue trivial

/-- The workers before `i` have left. -/
def LeftBefore (p : ThreadPool n σ κ) (i : Nat) : Prop :=
  ∀ w : Fin n, w.val < i → p.worker w = .exited

/-- How far a call of `Wait` has come: it has passed workers that have left. -/
structure Passed (p : ThreadPool n σ κ) : Prop where
  joining : ∀ call i, p.wait call = .joining i → p.LeftBefore i
  blocked : ∀ call i, p.wait call = .blocked i → p.LeftBefore i
  returned : ∀ call, p.wait call = .returned → p.LeftBefore n
  stopped : p.stopped = true → p.LeftBefore n

theorem LeftBefore.succ {i : Fin n} (hBefore : p.LeftBefore i) (hExited : p.worker i = .exited) :
    p.LeftBefore (i + 1) := by
  intro w hw
  by_cases hSame : w = i
  · rw [hSame]
    exact hExited
  · exact hBefore w (by omega)

/-- The calls are where they were, and workers that left stay away. -/
theorem Passed.frame (hInv : p.Passed) (hWait : p'.wait = p.wait)
    (hStopped : p'.stopped = p.stopped)
    (hExited : ∀ w, p.worker w = .exited → p'.worker w = .exited) : p'.Passed := by
  have hLeft : ∀ i, p.LeftBefore i → p'.LeftBefore i :=
    fun i hBefore w hw => hExited w (hBefore w hw)
  constructor
  · intro call i hPc
    rw [hWait] at hPc
    exact hLeft i (hInv.joining call i hPc)
  · intro call i hPc
    rw [hWait] at hPc
    exact hLeft i (hInv.blocked call i hPc)
  · intro call hPc
    rw [hWait] at hPc
    exact hLeft n (hInv.returned call hPc)
  · intro hDone
    rw [hStopped] at hDone
    exact hLeft n (hInv.stopped hDone)

variable [DecidableEq κ]

/-- A call gets to a place that its passed workers allow. -/
theorem Passed.setWait (hInv : p.Passed) {call : κ} {pc : WaitPc}
    (hJoining : ∀ i, pc = .joining i → p.LeftBefore i)
    (hBlocked : ∀ i, pc = .blocked i → p.LeftBefore i)
    (hReturned : pc = .returned → p.LeftBefore n) : (p.setWait call pc).Passed := by
  have hWait : ∀ other pc', (p.setWait call pc).wait other = pc' →
      pc = pc' ∨ p.wait other = pc' := by
    intro other pc' hPc
    by_cases hOther : other = call
    · subst hOther
      exact Or.inl (by simpa [ThreadPool.setWait] using hPc)
    · exact Or.inr (by simpa [ThreadPool.setWait, hOther] using hPc)
  constructor
  · intro other i hPc
    exact (hWait other _ hPc).elim (hJoining i) (hInv.joining other i)
  · intro other i hPc
    exact (hWait other _ hPc).elim (hBlocked i) (hInv.blocked other i)
  · intro other hPc
    exact (hWait other _ hPc).elim hReturned (hInv.returned other)
  · exact hInv.stopped

variable [DecidableEq σ] {label : PoolLabel n σ κ}

theorem PoolMove.passed (hMove : PoolMove p label p') (hUnlaunched : p.Unlaunched)
    (hInv : p.Passed) (hOk : JoinsExited p label) : p'.Passed := by
  have hExited : ∀ w, p.worker w = .exited → p'.worker w = .exited :=
    fun w hLeft => hMove.exited hUnlaunched hLeft
  cases hMove with
  | wait call hPc hAll =>
      refine hInv.setWait (fun i hi => ?_) nofun nofun
      obtain rfl : 0 = i := by simpa using hi
      exact fun w hw => absurd hw (by omega)
  | joinSkip call i hPc hJoined =>
      -- The condition is about this step: the call passes a worker without joining it.
      have hLeft : p.worker i = .exited := hOk i hPc hJoined
      refine hInv.setWait (fun j hj => ?_) nofun nofun
      obtain rfl : i.val + 1 = j := by simpa using hj
      exact (hInv.joining call i hPc).succ hLeft
  | join call i hPc =>
      have hSet : (p.setWait call (.blocked i)).Passed := by
        refine hInv.setWait nofun (fun j hj => ?_) nofun
        obtain rfl : i.val = j := by simpa using hj
        exact hInv.joining call i hPc
      exact { hSet with }
  | joinReturn call i hPc hLeft =>
      refine hInv.setWait (fun j hj => ?_) nofun nofun
      obtain rfl : i.val + 1 = j := by simpa using hj
      exact (hInv.blocked call i hPc).succ hLeft
  | waitReturn call hPc =>
      have hAll : p.LeftBefore n := hInv.joining call n hPc
      have hSet : (p.setWait call .returned).Passed := hInv.setWait nofun nofun fun _ => hAll
      exact { hSet with stopped := fun _ => hAll }
  | _ => exact hInv.frame rfl rfl hExited

omit [DecidableEq σ] [DecidableEq κ] in
theorem LeftBefore.finished (hAll : p.LeftBefore n) (hSome : 0 < n) (hEnding : p.Ending) :
    p.Finished :=
  ⟨fun w => hAll w w.isLt, (hEnding.exited ⟨0, hSome⟩ (hAll _ hSome)).2.1⟩

/-- In every run in which no `Join` passes a worker that has not left, a return of `Wait`
and `m_stopped` mean that every worker has left and that the queue is empty. -/
theorem waitSound_of_joinsExited (requested : Nat)
    (labels : List (PoolLabel (threadCount requested) σ κ))
    (p : ThreadPool (threadCount requested) σ κ)
    (hRun : exec poolStep new labels = some p) (hMeets : Meets poolStep JoinsExited new labels) :
    p.WaitSound := by
  have hInv : p.PoolInv ∧ p.Passed := by
    refine exec_invariant_of_meets (fun p => p.PoolInv ∧ p.Passed) ?_ ?_ hMeets hRun
    · rintro p label next ⟨hInv, hPassed⟩ hOk hStep
      have hMove := poolStep_move hStep
      exact ⟨hMove.inv hInv, hMove.passed hInv.unlaunched hPassed hOk⟩
    · exact ⟨new_poolInv, nofun, nofun, nofun, nofun⟩
  have hFinished : p.LeftBefore (threadCount requested) → p.Finished :=
    fun hAll => hAll.finished (threadCount_pos requested) hInv.1.ending
  exact ⟨fun call hPc => hFinished (hInv.2.returned call hPc),
    fun hStopped => hFinished (hInv.2.stopped hStopped)⟩

/-- A pool with a task in its queue is stopped before its worker looks at it. -/
def stoppedWithTask : List (PoolLabel (threadCount 0) Nat Bool) :=
  [.start, .launch, .submit 7 false, .submitLock 7, .submitLoad 7, .submitPush 7,
    .submitNotify 7 none, .stop, .stopLock, .stopUnlock, .stopNotify]

/-- The worker runs the task and leaves. -/
def workerLeaves : List (PoolLabel (threadCount 0) Nat Bool) :=
  [.workerLock onlyWorker, .workerLoad onlyWorker, .workerTake onlyWorker,
    .workerFinish onlyWorker false, .workerLock onlyWorker, .workerLoad onlyWorker,
    .workerExit onlyWorker]

/-- Two calls of `Wait`, the second one after the first has returned. -/
def waitTwice : List (PoolLabel (threadCount 0) Nat Bool) :=
  stoppedWithTask ++ [.wait false, .join false] ++ workerLeaves ++
    [.joinReturn false, .waitReturn false, .wait true, .join true, .waitReturn true]

theorem waitSound_of_joinsExited_waitTwice :
    ∃ p, exec poolStep new waitTwice = some p ∧ Meets poolStep JoinsExited new waitTwice ∧
      p.wait true = .returned ∧ p.finished = [7] ∧ p.WaitSound := by
  have hMeets : Meets poolStep JoinsExited new waitTwice := by decide +kernel
  refine ⟨_, rfl, hMeets, by decide, by decide, ?_⟩
  exact waitSound_of_joinsExited 0 waitTwice _ rfl hMeets

/-- Two calls of `Wait` at a time: the first waits for the worker, the second passes it,
stores `m_stopped` and returns.  The task is still in the queue. -/
theorem not_waitSound_concurrentWait :
    ∃ p, exec poolStep new (stoppedWithTask ++
        [.wait false, .join false, .wait true, .join true, .waitReturn true]) = some p ∧
      p.stop = .returned ∧ p.wait false = .blocked 0 ∧ p.wait true = .returned ∧
      p.stopped = true ∧ p.worker onlyWorker = .wantsLock ∧ p.tasks = [7] ∧ ¬ p.WaitSound := by
  refine ⟨_, rfl, by decide, by decide, by decide, by decide, by decide, by decide, ?_⟩
  intro hSound
  have hExited := (hSound.returned true (by decide)).1 onlyWorker
  revert hExited
  decide

end ThreadPool
end SolarNet
