import SolarNet.Base.ThreadPool

/-!
# The invariant of the thread pool

`Stop` sets `m_stopping` without the mutex, and `Submit` and the workers test it with the
mutex.  The invariants of this file are about what a test under the mutex is worth: an
accepted task is seen by some worker, a worker that leaves was the last to see the queue,
and after `Stop` no worker sleeps without having been notified.

The invariant has three parts: the mutex (`Exclusive`), the tasks (`Accounts`) and the
end of the pool (`Ending`).
-/

namespace SolarNet

open Lib

namespace ThreadPool

variable {n : Nat} {σ κ : Type*} {p p' : ThreadPool n σ κ}

/-! ## The mutex -/

theorem holds_setWorker {w : Fin n} {pc : PoolWorkerPc σ} {agent : PoolAgent n σ}
    (hHolds : (p.setWorker w pc).Holds agent) :
    agent = .worker w ∧ pc.holds = true ∨ agent ≠ .worker w ∧ p.Holds agent := by
  cases agent with
  | worker other =>
      by_cases hOther : other = w
      · subst hOther
        exact Or.inl ⟨rfl, by simpa [Holds, setWorker] using hHolds⟩
      · exact Or.inr ⟨by simpa using hOther, by simpa [Holds, setWorker, hOther] using hHolds⟩
  | submit id => exact Or.inr ⟨by simp, hHolds⟩
  | stop => exact Or.inr ⟨by simp, hHolds⟩

theorem holds_setSubmit [DecidableEq σ] {id : σ} {pc : SubmitPc} {agent : PoolAgent n σ}
    (hHolds : (p.setSubmit id pc).Holds agent) :
    agent = .submit id ∧ pc.holds = true ∨ agent ≠ .submit id ∧ p.Holds agent := by
  cases agent with
  | submit other =>
      by_cases hOther : other = id
      · subst hOther
        exact Or.inl ⟨rfl, by simpa [Holds, setSubmit] using hHolds⟩
      · exact Or.inr ⟨by simpa using hOther, by simpa [Holds, setSubmit, hOther] using hHolds⟩
  | worker w => exact Or.inr ⟨by simp, hHolds⟩
  | stop => exact Or.inr ⟨by simp, hHolds⟩

theorem exclusive_setWorker {w : Fin n} {pc : PoolWorkerPc σ} (hInv : Exclusive p.mutex p.Holds)
    (hPc : pc.holds = true → p.Holds (.worker w)) :
    Exclusive p.mutex (p.setWorker w pc).Holds := by
  refine hInv.keep fun agent hHolds => ?_
  rcases holds_setWorker hHolds with ⟨rfl, hNew⟩ | ⟨-, hOld⟩
  · exact hPc hNew
  · exact hOld

theorem exclusive_setWorker_lock {w : Fin n} {pc : PoolWorkerPc σ}
    (hInv : Exclusive p.mutex p.Holds) (hFree : p.mutex = none) :
    Exclusive (some (.worker w)) (p.setWorker w pc).Holds := by
  refine hInv.acquire hFree fun agent hHolds => ?_
  rcases holds_setWorker hHolds with ⟨rfl, -⟩ | ⟨-, hOld⟩
  · exact Or.inl rfl
  · exact Or.inr hOld

theorem exclusive_setWorker_unlock {w : Fin n} {pc : PoolWorkerPc σ}
    (hInv : Exclusive p.mutex p.Holds) (hHeld : p.Holds (.worker w)) (hPc : pc.holds = false) :
    Exclusive none (p.setWorker w pc).Holds := by
  refine hInv.release hHeld fun agent hHolds => ?_
  rcases holds_setWorker hHolds with ⟨-, hBoth⟩ | hOld
  · simp [hPc] at hBoth
  · exact hOld

section Submit

variable [DecidableEq σ] {id : σ} {pc : SubmitPc}

theorem exclusive_setSubmit (hInv : Exclusive p.mutex p.Holds)
    (hPc : pc.holds = true → p.Holds (.submit id)) :
    Exclusive p.mutex (p.setSubmit id pc).Holds := by
  refine hInv.keep fun agent hHolds => ?_
  rcases holds_setSubmit hHolds with ⟨rfl, hNew⟩ | ⟨-, hOld⟩
  · exact hPc hNew
  · exact hOld

theorem exclusive_setSubmit_lock (hInv : Exclusive p.mutex p.Holds) (hFree : p.mutex = none) :
    Exclusive (some (.submit id)) (p.setSubmit id pc).Holds := by
  refine hInv.acquire hFree fun agent hHolds => ?_
  rcases holds_setSubmit hHolds with ⟨rfl, -⟩ | ⟨-, hOld⟩
  · exact Or.inl rfl
  · exact Or.inr hOld

theorem exclusive_setSubmit_unlock (hInv : Exclusive p.mutex p.Holds)
    (hHeld : p.Holds (.submit id)) (hPc : pc.holds = false) :
    Exclusive none (p.setSubmit id pc).Holds := by
  refine hInv.release hHeld fun agent hHolds => ?_
  rcases holds_setSubmit hHolds with ⟨-, hBoth⟩ | hOld
  · simp [hPc] at hBoth
  · exact hOld

end Submit

/-- Only `Stop` moves. -/
theorem holds_of_stop {agent : PoolAgent n σ} (hHolds : p'.Holds agent)
    (hWorker : p'.worker = p.worker) (hSubmit : p'.submit = p.submit) :
    agent = .stop ∧ p'.stop = .holding ∨ agent ≠ .stop ∧ p.Holds agent := by
  cases agent with
  | worker w => exact Or.inr ⟨by simp, by simpa [Holds, hWorker] using hHolds⟩
  | submit id => exact Or.inr ⟨by simp, by simpa [Holds, hSubmit] using hHolds⟩
  | stop => exact Or.inl ⟨rfl, hHolds⟩

theorem exclusive_stopNotify (hInv : Exclusive p.mutex p.Holds) :
    Exclusive p.mutex
      ({ p with stop := .returned, worker := fun w => (p.worker w).notified }
        : ThreadPool n σ κ).Holds := by
  refine hInv.keep fun agent hHolds => ?_
  cases agent with
  | worker w =>
      have hSame : (p.worker w).notified.holds = (p.worker w).holds := by
        cases p.worker w <;> rfl
      exact hSame.symm.trans hHolds
  | submit id => exact hHolds
  | stop => cases hHolds

variable [DecidableEq σ]

theorem PoolMove.exclusive [DecidableEq κ] {label : PoolLabel n σ κ}
    (hMove : PoolMove p label p') (hInv : Exclusive p.mutex p.Holds) :
    Exclusive p'.mutex p'.Holds := by
  have hWorker : ∀ w, (p.worker w).holds = true → p.Holds (.worker w) := fun w hPc => hPc
  have hSubmit : ∀ id, (p.submit id).holds = true → p.Holds (.submit id) := fun id hPc => hPc
  cases hMove with
  | start | wait | joinSkip | join | joinReturn | waitReturn =>
      exact hInv.keep fun agent hHolds => by cases agent <;> exact hHolds
  | launch hi => exact exclusive_setWorker hInv nofun
  | submit id null hPc => exact exclusive_setSubmit hInv (by cases null <;> nofun)
  | submitLock id hPc hFree => exact exclusive_setSubmit_lock hInv hFree
  | submitLoad id hPc => exact exclusive_setSubmit hInv fun _ => hSubmit id (by rw [hPc]; rfl)
  | submitPush id hPc => exact exclusive_setSubmit_unlock hInv (hSubmit id (by rw [hPc]; rfl)) rfl
  | submitReject id hPc =>
      exact exclusive_setSubmit_unlock hInv (hSubmit id (by rw [hPc]; rfl)) rfl
  | submitNotify id hPc => exact exclusive_setSubmit hInv nofun
  | submitWake id w hPc hParked =>
      have hReturned : Exclusive p.mutex (p.setSubmit id (.returned true)).Holds :=
        exclusive_setSubmit hInv nofun
      exact exclusive_setWorker hReturned nofun
  | stop hPc =>
      refine hInv.keep fun agent hHolds => ?_
      rcases holds_of_stop (p := p) hHolds rfl rfl with ⟨-, hNew⟩ | ⟨-, hOld⟩
      · cases hNew
      · exact hOld
  | stopLock hPc hFree =>
      refine hInv.acquire hFree fun agent hHolds => ?_
      rcases holds_of_stop (p := p) hHolds rfl rfl with ⟨rfl, -⟩ | ⟨-, hOld⟩
      · exact Or.inl rfl
      · exact Or.inr hOld
  | stopUnlock hPc =>
      have hHeld : p.Holds .stop := hPc
      refine hInv.release hHeld fun agent hHolds => ?_
      rcases holds_of_stop (p := p) hHolds rfl rfl with ⟨-, hNew⟩ | hOld
      · cases hNew
      · exact hOld
  | stopNotify hPc => exact exclusive_stopNotify hInv
  | workerLock w hPc hFree => exact exclusive_setWorker_lock hInv hFree
  | workerLoad w hPc => exact exclusive_setWorker hInv fun _ => hWorker w (by rw [hPc]; rfl)
  | workerPark w hPc _ => exact exclusive_setWorker_unlock hInv (hWorker w (by rw [hPc]; rfl)) rfl
  | workerProceed w hPc _ => exact exclusive_setWorker hInv fun _ => hWorker w (by rw [hPc]; rfl)
  | workerExit w hPc _ => exact exclusive_setWorker_unlock hInv (hWorker w (by rw [hPc]; rfl)) rfl
  | workerTake w task rest hPc _ =>
      exact exclusive_setWorker_unlock hInv (hWorker w (by rw [hPc]; rfl)) rfl
  | workerFinish w _ task hPc => exact exclusive_setWorker hInv nofun
  | workerWake w hPc => exact exclusive_setWorker hInv nofun

/-! ## The tasks -/

/-- Tasks leave the queue in the order in which they entered it, each one once; the queue
got the tasks of the calls that return `true`; and a task that was taken is running or
finished. -/
structure Accounts (p : ThreadPool n σ κ) : Prop where
  fifo : p.dequeued ++ p.tasks = p.pushed
  nodup : p.pushed.Nodup
  pushed_iff : ∀ id, id ∈ p.pushed ↔ (p.submit id).accepts = true
  dequeued_iff : ∀ id, id ∈ p.dequeued ↔ id ∈ p.finished ∨ ∃ w, p.worker w = .running id
  finished_nodup : p.finished.Nodup
  unfinished : ∀ w id, p.worker w = .running id → id ∉ p.finished
  alone : ∀ w v id, p.worker w = .running id → p.worker v = .running id → w = v

omit [DecidableEq σ] in
/-- The lists are kept, and so is who runs what. -/
theorem Accounts.frame (hInv : p.Accounts) (hTasks : p'.tasks = p.tasks)
    (hPushed : p'.pushed = p.pushed) (hDequeued : p'.dequeued = p.dequeued)
    (hFinished : p'.finished = p.finished)
    (hSubmit : ∀ id, (p'.submit id).accepts = (p.submit id).accepts)
    (hRunning : ∀ w task, p'.worker w = .running task ↔ p.worker w = .running task) :
    p'.Accounts where
  fifo := by rw [hTasks, hPushed, hDequeued, hInv.fifo]
  nodup := by rw [hPushed]; exact hInv.nodup
  pushed_iff id := by rw [hPushed, hSubmit]; exact hInv.pushed_iff id
  dequeued_iff id := by simpa only [hDequeued, hFinished, hRunning] using hInv.dequeued_iff id
  finished_nodup := by rw [hFinished]; exact hInv.finished_nodup
  unfinished w id hRun := by rw [hFinished]; exact hInv.unfinished w id ((hRunning w id).mp hRun)
  alone w v id hRun hRun' := hInv.alone w v id ((hRunning w id).mp hRun) ((hRunning v id).mp hRun')

omit [DecidableEq σ] in
/-- A worker that runs nothing goes on to run nothing. -/
theorem setWorker_running_iff {w : Fin n} {pc : PoolWorkerPc σ}
    (hOld : ∀ task, p.worker w ≠ .running task) (hNew : ∀ task, pc ≠ .running task)
    (v : Fin n) (task : σ) :
    (p.setWorker w pc).worker v = .running task ↔ p.worker v = .running task := by
  by_cases hOther : v = w
  · subst hOther
    simp [setWorker, hOld, hNew]
  · simp [setWorker, hOther]

omit [DecidableEq σ] in
theorem Accounts.setWorker (hInv : p.Accounts) {w : Fin n} {pc : PoolWorkerPc σ}
    (hOld : ∀ task, p.worker w ≠ .running task) (hNew : ∀ task, pc ≠ .running task) :
    (p.setWorker w pc).Accounts :=
  hInv.frame rfl rfl rfl rfl (fun _ => rfl) (setWorker_running_iff hOld hNew)

theorem setSubmit_accepts {id : σ} {pc : SubmitPc} (hSame : pc.accepts = (p.submit id).accepts)
    (other : σ) : ((p.setSubmit id pc).submit other).accepts = (p.submit other).accepts := by
  by_cases hOther : other = id
  · subst hOther
    simpa [ThreadPool.setSubmit] using hSame
  · simp [ThreadPool.setSubmit, hOther]

theorem Accounts.setSubmit (hInv : p.Accounts) {id : σ} {pc : SubmitPc}
    (hSame : pc.accepts = (p.submit id).accepts) : (p.setSubmit id pc).Accounts :=
  hInv.frame rfl rfl rfl rfl (setSubmit_accepts hSame) fun _ _ => Iff.rfl

/-- `Submit` pushes its task. -/
theorem Accounts.push (hInv : p.Accounts) {id : σ} (hPc : p.submit id = .pushing) :
    ((p.push id).setSubmit id .notifying).Accounts where
  fifo := by
    show p.dequeued ++ (p.tasks ++ [id]) = p.pushed ++ [id]
    rw [← hInv.fifo, List.append_assoc]
  nodup := by
    have hNew : id ∉ p.pushed := by simp [hInv.pushed_iff, hPc, SubmitPc.accepts]
    show (p.pushed ++ [id]).Nodup
    rw [List.nodup_append]
    exact ⟨hInv.nodup, List.nodup_singleton id, by rintro a hA b hB rfl; simp_all⟩
  pushed_iff other := by
    by_cases hOther : other = id
    · simp [hOther, ThreadPool.setSubmit, ThreadPool.push, SubmitPc.accepts]
    · simpa [ThreadPool.setSubmit, ThreadPool.push, hOther] using hInv.pushed_iff other
  dequeued_iff := hInv.dequeued_iff
  finished_nodup := hInv.finished_nodup
  unfinished := hInv.unfinished
  alone := hInv.alone

omit [DecidableEq σ] in
/-- A task in the queue was not taken. -/
theorem Accounts.not_dequeued (hInv : p.Accounts) {task : σ} (hTask : task ∈ p.tasks) :
    task ∉ p.dequeued := by
  have hNodup := hInv.nodup
  rw [← hInv.fifo, List.nodup_append] at hNodup
  exact fun hTaken => hNodup.2.2 task hTaken task hTask rfl

omit [DecidableEq σ] in
/-- A worker takes the first task of the queue. -/
theorem Accounts.take (hInv : p.Accounts) {w : Fin n} {task : σ} {rest : List σ}
    (hTasks : p.tasks = task :: rest) (hPc : p.worker w = .deciding) :
    ((p.pop task).setWorker w (.running task)).Accounts := by
  have hFresh : task ∉ p.dequeued := hInv.not_dequeued (by simp [hTasks])
  have hNobody : ∀ v, p.worker v ≠ .running task :=
    fun v hRun => hFresh ((hInv.dequeued_iff task).mpr (Or.inr ⟨v, hRun⟩))
  have hRunning : ∀ v id, ((p.pop task).setWorker w (.running task)).worker v = .running id ↔
      v = w ∧ id = task ∨ p.worker v = .running id := by
    intro v id
    by_cases hOther : v = w
    · subst hOther
      simp [ThreadPool.setWorker, hPc, eq_comm]
    · simp [ThreadPool.setWorker, ThreadPool.pop, hOther]
  constructor
  · show (p.dequeued ++ [task]) ++ p.tasks.tail = p.pushed
    rw [← hInv.fifo, hTasks, List.append_assoc]
    rfl
  · exact hInv.nodup
  · exact hInv.pushed_iff
  · intro id
    show id ∈ p.dequeued ++ [task] ↔ id ∈ p.finished ∨ _
    simp only [List.mem_append, List.mem_singleton, hRunning, hInv.dequeued_iff]
    constructor
    · rintro ((hFinished | ⟨v, hRun⟩) | rfl)
      · exact Or.inl hFinished
      · exact Or.inr ⟨v, Or.inr hRun⟩
      · exact Or.inr ⟨w, Or.inl ⟨rfl, rfl⟩⟩
    · rintro (hFinished | ⟨v, ⟨-, rfl⟩ | hRun⟩)
      · exact Or.inl (Or.inl hFinished)
      · exact Or.inr rfl
      · exact Or.inl (Or.inr ⟨v, hRun⟩)
  · exact hInv.finished_nodup
  · intro v id hRun
    rcases (hRunning v id).mp hRun with ⟨-, rfl⟩ | hOld
    · exact fun hFinished => hFresh ((hInv.dequeued_iff id).mpr (Or.inl hFinished))
    · exact hInv.unfinished v id hOld
  · intro v u id hRun hRun'
    rcases (hRunning v id).mp hRun with ⟨rfl, rfl⟩ | hOld
    · rcases (hRunning u id).mp hRun' with ⟨rfl, -⟩ | hOld'
      · rfl
      · exact absurd hOld' (hNobody u)
    · rcases (hRunning u id).mp hRun' with ⟨rfl, rfl⟩ | hOld'
      · exact absurd hOld (hNobody v)
      · exact hInv.alone v u id hOld hOld'

omit [DecidableEq σ] in
/-- A worker has run its task. -/
theorem Accounts.finish (hInv : p.Accounts) {w : Fin n} {task : σ}
    (hPc : p.worker w = .running task) :
    ((p.finish task).setWorker w .wantsLock).Accounts := by
  have hRunning : ∀ v id, ((p.finish task).setWorker w .wantsLock).worker v = .running id ↔
      v ≠ w ∧ p.worker v = .running id := by
    intro v id
    by_cases hOther : v = w
    · simp [ThreadPool.setWorker, hOther]
    · simp [ThreadPool.setWorker, ThreadPool.finish, hOther]
  constructor
  · exact hInv.fifo
  · exact hInv.nodup
  · exact hInv.pushed_iff
  · intro id
    show id ∈ p.dequeued ↔ id ∈ p.finished ++ [task] ∨ _
    simp only [hInv.dequeued_iff, List.mem_append, List.mem_singleton, hRunning]
    constructor
    · rintro (hFinished | ⟨v, hRun⟩)
      · exact Or.inl (Or.inl hFinished)
      · by_cases hOther : v = w
        · rw [hOther, hPc] at hRun
          exact Or.inl (Or.inr (by simpa using hRun.symm))
        · exact Or.inr ⟨v, hOther, hRun⟩
    · rintro ((hFinished | rfl) | ⟨v, -, hRun⟩)
      · exact Or.inl hFinished
      · exact Or.inr ⟨w, hPc⟩
      · exact Or.inr ⟨v, hRun⟩
  · show (p.finished ++ [task]).Nodup
    rw [List.nodup_append]
    refine ⟨hInv.finished_nodup, List.nodup_singleton task, ?_⟩
    rintro id hFinished other hOther rfl
    obtain rfl : id = task := by simpa using hOther
    exact hInv.unfinished w id hPc hFinished
  · intro v id hRun
    obtain ⟨hOther, hOld⟩ := (hRunning v id).mp hRun
    show id ∉ p.finished ++ [task]
    simp only [List.mem_append, List.mem_singleton, not_or]
    refine ⟨hInv.unfinished v id hOld, ?_⟩
    rintro rfl
    exact hOther (hInv.alone v w id hOld hPc)
  · intro v u id hRun hRun'
    exact hInv.alone v u id ((hRunning v id).mp hRun).2 ((hRunning u id).mp hRun').2

/-- The threads that `Start` has not launched yet. -/
def Unlaunched (p : ThreadPool n σ κ) : Prop :=
  ∀ w : Fin n, p.launched ≤ w → p.worker w = .notStarted

omit [DecidableEq σ] in
theorem Unlaunched.setWorker (hInv : p.Unlaunched) {w : Fin n} (pc : PoolWorkerPc σ)
    (hPc : p.worker w ≠ .notStarted) : (p.setWorker w pc).Unlaunched := by
  intro v hv
  have hOther : v ≠ w := by
    rintro rfl
    exact hPc (hInv v hv)
  exact (Function.update_of_ne hOther _ _).trans (hInv v hv)

theorem PoolMove.unlaunched [DecidableEq κ] {label : PoolLabel n σ κ}
    (hMove : PoolMove p label p') (hInv : p.Unlaunched) : p'.Unlaunched := by
  cases hMove with
  | launch hi =>
      intro v hv
      change p.launched + 1 ≤ v at hv
      have hOther : v ≠ ⟨p.launched, hi⟩ := by
        rintro rfl
        simp at hv
      show Function.update p.worker _ _ v = .notStarted
      rw [Function.update_of_ne hOther]
      exact hInv v (by omega)
  | stopNotify hPc =>
      intro v hv
      show (p.worker v).notified = .notStarted
      rw [hInv v hv]
      rfl
  | submitWake id w hPc hParked => exact Unlaunched.setWorker hInv _ (by simp [hParked])
  | workerLock w hPc hFree => exact Unlaunched.setWorker hInv .testing (by simp [hPc])
  | workerLoad w hPc => exact Unlaunched.setWorker hInv _ (by simp [hPc])
  | workerPark w hPc _ => exact Unlaunched.setWorker hInv .parked (by simp [hPc])
  | workerProceed w hPc _ => exact Unlaunched.setWorker hInv _ (by simp [hPc])
  | workerExit w hPc _ => exact Unlaunched.setWorker hInv .exited (by simp [hPc])
  | workerTake w task rest hPc _ =>
      have hPop : (p.pop task).Unlaunched := hInv
      exact hPop.setWorker (.running task) (by simp [ThreadPool.pop, hPc])
  | workerFinish w _ task hPc =>
      have hFinish : (p.finish task).Unlaunched := hInv
      exact hFinish.setWorker .wantsLock (by simp [ThreadPool.finish, hPc])
  | workerWake w hPc => exact Unlaunched.setWorker hInv _ (by simp [hPc])
  | _ => exact hInv

theorem PoolMove.accounts [DecidableEq κ] {label : PoolLabel n σ κ}
    (hMove : PoolMove p label p') (hInv : p.Accounts) (hUnlaunched : p.Unlaunched) :
    p'.Accounts := by
  cases hMove with
  | start | wait | joinSkip | join | joinReturn | waitReturn => exact { hInv with }
  | launch hi =>
      have hFresh : p.worker ⟨p.launched, hi⟩ = .notStarted := hUnlaunched _ le_rfl
      have hSet : (p.setWorker ⟨p.launched, hi⟩ .wantsLock).Accounts :=
        hInv.setWorker (by simp [hFresh]) nofun
      exact { hSet with }
  | submit id null hPc => exact hInv.setSubmit (by cases null <;> simp [hPc, SubmitPc.accepts])
  | submitLock id hPc hFree =>
      have hSet : (p.setSubmit id .loading).Accounts := hInv.setSubmit (by rw [hPc]; rfl)
      exact { hSet with }
  | submitLoad id hPc =>
      exact hInv.setSubmit (by cases p.stopping <;> simp [hPc, SubmitPc.accepts])
  | submitPush id hPc => exact { hInv.push hPc with }
  | submitReject id hPc =>
      have hSet : (p.setSubmit id (.returned false)).Accounts := hInv.setSubmit (by rw [hPc]; rfl)
      exact { hSet with }
  | submitNotify id hPc => exact hInv.setSubmit (by rw [hPc]; rfl)
  | submitWake id w hPc hParked =>
      have hSet : (p.setSubmit id (.returned true)).Accounts := hInv.setSubmit (by rw [hPc]; rfl)
      have hIdle : ∀ task, (p.setSubmit id (.returned true)).worker w ≠ .running task := by
        simp [ThreadPool.setSubmit, hParked]
      exact hSet.setWorker hIdle nofun
  | stop hPc => exact { hInv with }
  | stopLock hPc hFree => exact { hInv with }
  | stopUnlock hPc => exact { hInv with }
  | stopNotify hPc =>
      refine hInv.frame rfl rfl rfl rfl (fun _ => rfl) fun w task => ?_
      cases hWorker : p.worker w <;> simp [PoolWorkerPc.notified, hWorker]
  | workerLock w hPc hFree =>
      have hSet : (p.setWorker w .testing).Accounts := hInv.setWorker (by simp [hPc]) nofun
      exact { hSet with }
  | workerLoad w hPc => exact hInv.setWorker (by simp [hPc]) (by cases p.stopping <;> nofun)
  | workerPark w hPc _ =>
      have hSet : (p.setWorker w .parked).Accounts := hInv.setWorker (by simp [hPc]) nofun
      exact { hSet with }
  | workerProceed w hPc _ => exact hInv.setWorker (by simp [hPc]) nofun
  | workerExit w hPc _ =>
      have hSet : (p.setWorker w .exited).Accounts := hInv.setWorker (by simp [hPc]) nofun
      exact { hSet with }
  | workerTake w task rest hPc hTasks => exact { hInv.take hTasks hPc with }
  | workerFinish w _ task hPc => exact hInv.finish hPc
  | workerWake w hPc => exact hInv.setWorker (by simp [hPc]) nofun

/-! ## The end of the pool -/

/-- What the tests of `m_stopping` are worth.  A worker that found its condition true has
a task or was told to stop; when a worker has left, the queue is empty and stays so; and
after the critical section of `Stop` no worker can park any more. -/
structure Ending (p : ThreadPool n σ κ) : Prop where
  deciding : ∀ w, p.worker w = .deciding → p.stopping = true ∨ p.tasks ≠ []
  exited : ∀ w, p.worker w = .exited →
    p.stopping = true ∧ p.tasks = [] ∧ ∀ id, p.submit id ≠ .pushing
  stopping : p.stop ≠ .idle → p.stopping = true
  tested : p.stop = .notifying ∨ p.stop = .returned → ∀ w, p.worker w ≠ .sawRunning
  awake : p.stop = .returned → ∀ w, p.worker w ≠ .parked

namespace Ending

omit [DecidableEq σ] in
/-- A worker gets to a place that its part of the invariant allows. -/
theorem setWorker (hInv : p.Ending) {w : Fin n} {pc : PoolWorkerPc σ}
    (hDeciding : pc = .deciding → p.stopping = true ∨ p.tasks ≠ [])
    (hExited : pc = .exited → p.stopping = true ∧ p.tasks = [] ∧ ∀ id, p.submit id ≠ .pushing)
    (hTested : pc = .sawRunning → p.stop ≠ .notifying ∧ p.stop ≠ .returned)
    (hParked : pc = .parked → p.stop ≠ .returned) : (p.setWorker w pc).Ending := by
  have hWorker : ∀ v pc', (p.setWorker w pc).worker v = pc' → pc = pc' ∨ p.worker v = pc' := by
    intro v pc' hPc
    by_cases hOther : v = w
    · subst hOther
      exact Or.inl (by simpa [ThreadPool.setWorker] using hPc)
    · exact Or.inr (by simpa [ThreadPool.setWorker, hOther] using hPc)
  constructor
  · intro v hPc
    exact (hWorker v _ hPc).elim hDeciding (hInv.deciding v)
  · intro v hPc
    exact (hWorker v _ hPc).elim hExited (hInv.exited v)
  · exact hInv.stopping
  · intro hStop v hPc
    rcases hWorker v _ hPc with hNew | hOld
    · exact hStop.elim (hTested hNew).1 (hTested hNew).2
    · exact hInv.tested hStop v hOld
  · intro hStop v hPc
    exact (hWorker v _ hPc).elim (fun hNew => hParked hNew hStop) (hInv.awake hStop v)

/-- A call of `Submit` moves, and a task is pushed only before `Stop`. -/
theorem setSubmit (hInv : p.Ending) {id : σ} {pc : SubmitPc}
    (hPushing : pc = .pushing → p.stopping = false) : (p.setSubmit id pc).Ending where
  deciding := hInv.deciding
  exited w hPc := by
    obtain ⟨hStopping, hEmpty, hNone⟩ := hInv.exited w hPc
    refine ⟨hStopping, hEmpty, fun other => ?_⟩
    by_cases hOther : other = id
    · subst hOther
      intro hNew
      have hRunning := hPushing (by simpa [ThreadPool.setSubmit] using hNew)
      simp [hStopping] at hRunning
    · simpa [ThreadPool.setSubmit, hOther] using hNone other
  stopping := hInv.stopping
  tested := hInv.tested
  awake := hInv.awake

omit [DecidableEq σ] in
theorem push (hInv : p.Ending) {id : σ} (hPc : p.submit id = .pushing) : (p.push id).Ending where
  deciding w hDeciding := Or.inr (by simp [ThreadPool.push])
  exited w hExited := absurd hPc ((hInv.exited w hExited).2.2 id)
  stopping := hInv.stopping
  tested := hInv.tested
  awake := hInv.awake

omit [DecidableEq σ] in
/-- The worker that takes a task has the mutex, so no other worker is deciding. -/
theorem take (hInv : p.Ending) (hExclusive : Exclusive p.mutex p.Holds) {w : Fin n} {task : σ}
    {rest : List σ} (hPc : p.worker w = .deciding) (hTasks : p.tasks = task :: rest) :
    ((p.pop task).setWorker w (.running task)).Ending := by
  have hHeld : p.Holds (.worker w) := by simp [Holds, hPc, PoolWorkerPc.holds]
  have hWorker : ∀ v, v ≠ w →
      ((p.pop task).setWorker w (.running task)).worker v = p.worker v :=
    fun v hOther => Function.update_of_ne hOther _ _
  have hOwn : ((p.pop task).setWorker w (.running task)).worker w = .running task :=
    Function.update_self _ _ _
  have hOthers : ∀ v pc, ((p.pop task).setWorker w (.running task)).worker v = pc →
      pc ≠ .running task → v ≠ w ∧ p.worker v = pc := by
    intro v pc hPc' hNot
    have hOther : v ≠ w := by
      rintro rfl
      exact hNot (hPc'.symm.trans hOwn)
    exact ⟨hOther, (hWorker v hOther).symm.trans hPc'⟩
  constructor
  · intro v hDeciding
    obtain ⟨hOther, hOld⟩ := hOthers v _ hDeciding nofun
    have hAlso : p.Holds (.worker v) := by simp [Holds, hOld, PoolWorkerPc.holds]
    have hSame := hExclusive.unique hAlso hHeld
    exact absurd (by simpa using hSame) hOther
  · intro v hExited
    obtain ⟨-, hOld⟩ := hOthers v _ hExited nofun
    have hEmpty := (hInv.exited v hOld).2.1
    simp [hTasks] at hEmpty
  · exact hInv.stopping
  · intro hStop v hSaw
    exact hInv.tested hStop v (hOthers v _ hSaw nofun).2
  · intro hStop v hParked
    exact hInv.awake hStop v (hOthers v _ hParked nofun).2

omit [DecidableEq σ] in
/-- A worker leaves while it has the mutex, so no task is being pushed. -/
theorem exit (hInv : p.Ending) (hExclusive : Exclusive p.mutex p.Holds) {w : Fin n}
    (hPc : p.worker w = .deciding) (hEmpty : p.tasks = []) : (p.setWorker w .exited).Ending := by
  have hStopping : p.stopping = true :=
    (hInv.deciding w hPc).resolve_right (not_not.mpr hEmpty)
  have hHeld : p.Holds (.worker w) := by simp [Holds, hPc, PoolWorkerPc.holds]
  have hNone : ∀ id, p.submit id ≠ .pushing := by
    intro id hPushing
    have hAlso : p.Holds (.submit id) := by simp [Holds, hPushing, SubmitPc.holds]
    cases hExclusive.unique hHeld hAlso
  exact hInv.setWorker nofun (fun _ => ⟨hStopping, hEmpty, hNone⟩) nofun nofun

omit [DecidableEq σ] in
/-- `Stop` wakes the workers that are parked. -/
theorem notifyAll (hInv : p.Ending) (hPc : p.stop = .notifying) :
    Ending { p with stop := .returned, worker := fun w => (p.worker w).notified } := by
  have hWorker : ∀ w pc, (p.worker w).notified = pc → pc ≠ .wantsLock → pc ≠ .parked →
      p.worker w = pc := by
    intro w pc hPc' hWants hPark
    cases hOld : p.worker w <;> simp_all [PoolWorkerPc.notified]
  constructor
  · intro w hDeciding
    exact hInv.deciding w (hWorker w _ hDeciding nofun nofun)
  · intro w hExited
    exact hInv.exited w (hWorker w _ hExited nofun nofun)
  · exact fun _ => hInv.stopping (by simp [hPc])
  · intro _ w hSaw
    exact hInv.tested (Or.inl hPc) w (hWorker w _ hSaw nofun nofun)
  · intro _ w hParked
    cases hOld : p.worker w <;> simp [PoolWorkerPc.notified, hOld] at hParked

end Ending

theorem PoolMove.ending [DecidableEq κ] {label : PoolLabel n σ κ}
    (hMove : PoolMove p label p') (hInv : p.Ending)
    (hExclusive : Exclusive p.mutex p.Holds) : p'.Ending := by
  have hBefore : p.stopping = false → p.stop = .idle := by
    intro hRunning
    by_contra hStop
    simp [hInv.stopping hStop] at hRunning
  cases hMove with
  | start | wait | joinSkip | join | joinReturn | waitReturn => exact { hInv with }
  | launch hi =>
      have hSet : (p.setWorker ⟨p.launched, hi⟩ .wantsLock).Ending :=
        hInv.setWorker nofun nofun nofun nofun
      exact { hSet with }
  | submit id null hPc => exact hInv.setSubmit (by cases null <;> nofun)
  | submitLock id hPc hFree =>
      have hSet : (p.setSubmit id .loading).Ending := hInv.setSubmit nofun
      exact { hSet with }
  | submitLoad id hPc => exact hInv.setSubmit (by cases p.stopping <;> simp)
  | submitPush id hPc =>
      have hSet : ((p.push id).setSubmit id .notifying).Ending := (hInv.push hPc).setSubmit nofun
      exact { hSet with }
  | submitReject id hPc =>
      have hSet : (p.setSubmit id (.returned false)).Ending := hInv.setSubmit nofun
      exact { hSet with }
  | submitNotify id hPc => exact hInv.setSubmit nofun
  | submitWake id w hPc hParked =>
      have hSet : (p.setSubmit id (.returned true)).Ending := hInv.setSubmit nofun
      exact hSet.setWorker nofun nofun nofun nofun
  | stop hPc =>
      refine { hInv with
        deciding := fun _ _ => Or.inl rfl
        exited := fun w hExited => ⟨rfl, (hInv.exited w hExited).2⟩
        stopping := fun _ => rfl
        tested := nofun
        awake := nofun }
  | stopLock hPc hFree =>
      exact { hInv with
        stopping := fun _ => hInv.stopping (by simp [hPc])
        tested := nofun
        awake := nofun }
  | stopUnlock hPc =>
      -- `Stop` has the mutex, so no worker is between its test and its wait.
      have hHeld : p.Holds .stop := hPc
      refine { hInv with
        stopping := fun _ => hInv.stopping (by simp [hPc])
        tested := fun _ w hSaw => ?_
        awake := nofun }
      have hAlso : p.Holds (.worker w) := by
        change p.worker w = .sawRunning at hSaw
        simp [Holds, hSaw, PoolWorkerPc.holds]
      cases hExclusive.unique hHeld hAlso
  | stopNotify hPc => exact hInv.notifyAll hPc
  | workerLock w hPc hFree =>
      have hSet : (p.setWorker w .testing).Ending := hInv.setWorker nofun nofun nofun nofun
      exact { hSet with }
  | workerLoad w hPc =>
      cases hStopping : p.stopping with
      | true => exact hInv.setWorker (fun _ => Or.inl hStopping) nofun nofun nofun
      | false =>
          have hIdle : p.stop = .idle := hBefore hStopping
          exact hInv.setWorker nofun nofun (fun _ => by simp [hIdle]) nofun
  | workerPark w hPc hEmpty =>
      have hSet : (p.setWorker w .parked).Ending :=
        hInv.setWorker nofun nofun nofun fun _ hStop => hInv.tested (Or.inr hStop) w hPc
      exact { hSet with }
  | workerProceed w hPc hSome => exact hInv.setWorker (fun _ => Or.inr hSome) nofun nofun nofun
  | workerExit w hPc hEmpty => exact { hInv.exit hExclusive hPc hEmpty with }
  | workerTake w task rest hPc hTasks => exact { hInv.take hExclusive hPc hTasks with }
  | workerFinish w _ task hPc =>
      have hFinish : (p.finish task).Ending := { hInv with }
      exact hFinish.setWorker nofun nofun nofun nofun
  | workerWake w hPc => exact hInv.setWorker nofun nofun nofun nofun

end ThreadPool
end SolarNet
