import SolarNet.Lib.Tally
import SolarNet.Base.ThreadPoolRuns

/-!
# The pool does not sleep on its work

`Submit` calls `notify_one` after it has left the critical section, and a worker tests the
queue again after every task.  So while some worker is parked, there is for each queued
task a `Submit` that has yet to notify, or a worker on its way to the queue (`Credit`).

The steps of the pool itself are those that need no new call, no spurious wake and no new
thread (`internal`).  Each of them takes away from the work that is left:

* a task counts 5, since the worker that takes it goes back to the head of the loop;
* a `Submit` before its lock counts 13: its own steps, the task, and the wake;
* `notify_all` may wake every worker, so a `Stop` counts four for each of them.

When none of these steps is possible, nothing is left to do.
-/

namespace SolarNet

open Lib

/-- Steps of the pool itself. -/
def PoolLabel.internal {n : Nat} {σ κ : Type*} : PoolLabel n σ κ → Bool
  | .submitLock _ | .submitLoad _ | .submitPush _ | .submitReject _ | .submitNotify _ _
  | .stopLock | .stopUnlock | .stopNotify
  | .workerLock _ | .workerLoad _ | .workerPark _ | .workerProceed _ | .workerExit _
  | .workerTake _ | .workerFinish _ _ => true
  | .start | .launch | .submit _ _ | .stop | .workerWake _ | .wait _ | .join _ | .joinReturn _
  | .waitReturn _ => false

/-- The worker is on its way to the queue. -/
def PoolWorkerPc.awake {σ : Type*} : PoolWorkerPc σ → ℕ
  | .wantsLock | .testing | .sawRunning | .deciding => 1
  | .notStarted | .parked | .running _ | .exited => 0

/-- The call has yet to notify. -/
def SubmitPc.owes : SubmitPc → ℕ
  | .notifying => 1
  | .idle | .wantsLock | .loading | .pushing | .rejecting | .returned _ => 0

def PoolWorkerPc.work {σ : Type*} : PoolWorkerPc σ → ℕ
  | .running _ => 5
  | .wantsLock => 4
  | .testing => 3
  | .sawRunning => 2
  | .deciding => 1
  | .notStarted | .parked | .exited => 0

def SubmitPc.work : SubmitPc → ℕ
  | .wantsLock => 13
  | .loading => 12
  | .pushing => 11
  | .notifying => 5
  | .rejecting => 1
  | .idle | .returned _ => 0

def StopPc.work (n : ℕ) : StopPc → ℕ
  | .wantsLock => 4 * n + 3
  | .holding => 4 * n + 2
  | .notifying => 4 * n + 1
  | .idle | .returned => 0

namespace ThreadPool

variable {n : Nat} {σ κ : Type*}

/-- The calls of `Submit` outside of `calls` have not begun. -/
def Begun (p : ThreadPool n σ κ) (calls : Finset σ) : Prop :=
  ∀ id, id ∉ calls → p.submit id = .idle

/-- The work that is left. -/
def work (p : ThreadPool n σ κ) (calls : Finset σ) : ℕ :=
  5 * p.tasks.length + tally Finset.univ PoolWorkerPc.work p.worker +
    tally calls SubmitPc.work p.submit + p.stop.work n

/-- While a worker is parked, there is a wake under way for each task. -/
def Credit (p : ThreadPool n σ κ) : Prop :=
  ∀ calls, p.Begun calls → (∃ w, p.worker w = .parked) →
    p.tasks.length ≤ tally calls SubmitPc.owes p.submit +
      tally Finset.univ PoolWorkerPc.awake p.worker

variable {p p' : ThreadPool n σ κ} [DecidableEq σ]

omit [DecidableEq σ] in
theorem tally_setWorker (weight : PoolWorkerPc σ → ℕ) (p : ThreadPool n σ κ) (w : Fin n)
    (pc : PoolWorkerPc σ) :
    tally Finset.univ weight (p.setWorker w pc).worker + weight (p.worker w) =
      tally Finset.univ weight p.worker + weight pc :=
  tally_update (Finset.mem_univ w) weight p.worker pc

omit [DecidableEq σ] in
theorem Begun.mem {calls : Finset σ} (hBegun : p.Begun calls) {id : σ} (hPc : p.submit id ≠ .idle) :
    id ∈ calls := by
  by_contra hOut
  exact hPc (hBegun id hOut)

theorem tally_setSubmit {calls : Finset σ} {id : σ} (hMem : id ∈ calls) (weight : SubmitPc → ℕ)
    (p : ThreadPool n σ κ) (pc : SubmitPc) :
    tally calls weight (p.setSubmit id pc).submit + weight (p.submit id) =
      tally calls weight p.submit + weight pc :=
  tally_update hMem weight p.submit pc

/-! ## Calls that have begun -/

section Begun

theorem setSubmit_idle {id other : σ} {pc : SubmitPc} (hPc : pc ≠ .idle)
    (hIdle : (p.setSubmit id pc).submit other = .idle) : p.submit other = .idle := by
  by_cases hSame : other = id
  · subst hSame
    simp only [setSubmit, Function.update_self] at hIdle
    exact absurd hIdle hPc
  · simpa [setSubmit, hSame] using hIdle

variable [DecidableEq κ] {label : PoolLabel n σ κ}

/-- A call that has begun does not go back. -/
theorem PoolMove.begun (hMove : PoolMove p label p') {calls : Finset σ} (hBegun : p'.Begun calls) :
    p.Begun calls := by
  intro id hOut
  have hIdle := hBegun id hOut
  cases hMove with
  | submit call null hPc => exact setSubmit_idle (by cases null <;> simp) hIdle
  | submitLock call | submitPush call | submitReject call | submitNotify call
  | submitWake call => exact setSubmit_idle (by simp) hIdle
  | submitLoad call => exact setSubmit_idle (by cases p.stopping <;> simp) hIdle
  | _ => exact hIdle

/-- In a run only finitely many calls begin. -/
theorem PoolMove.exists_begun (hMove : PoolMove p label p') {calls : Finset σ}
    (hBegun : p.Begun calls) : ∃ calls', p'.Begun calls' := by
  have hSet : ∀ (q : ThreadPool n σ κ) id pc, q.submit = p.submit →
      (q.setSubmit id pc).Begun (insert id calls) := by
    intro q id pc hSame other hOut
    rw [Finset.mem_insert, not_or] at hOut
    exact (Function.update_of_ne hOut.1 _ _).trans (hSame ▸ hBegun other hOut.2)
  cases hMove with
  | submit call | submitLock call | submitLoad call | submitPush call | submitReject call
  | submitNotify call | submitWake call => exact ⟨_, hSet _ call _ rfl⟩
  | _ => exact ⟨calls, hBegun⟩

end Begun

/-! ## A wake for each task -/

section Credit

omit [DecidableEq σ] in
/-- A worker moves and does not park. -/
theorem Credit.setWorker (hCredit : p.Credit) {w : Fin n} (pc : PoolWorkerPc σ)
    (hPc : pc ≠ .parked) (hAwake : (p.worker w).awake ≤ pc.awake) : (p.setWorker w pc).Credit := by
  rintro calls hBegun ⟨v, hParked⟩
  -- The parked worker is another one, so the wakes were there before.
  have hOther : v ≠ w := by
    rintro rfl
    simp only [ThreadPool.setWorker, Function.update_self] at hParked
    exact hPc hParked
  have hStill : p.worker v = .parked := by simpa [ThreadPool.setWorker, hOther] using hParked
  have hOld := hCredit calls hBegun ⟨v, hStill⟩
  have hTally := tally_setWorker PoolWorkerPc.awake p w pc
  show p.tasks.length ≤ tally calls SubmitPc.owes p.submit +
    tally Finset.univ PoolWorkerPc.awake (p.setWorker w pc).worker
  omega

/-- A call of `Submit` moves and does not notify. -/
theorem Credit.setSubmit (hCredit : p.Credit) {id : σ} (pc : SubmitPc) (hPc : pc ≠ .idle)
    (hOwes : (p.submit id).owes ≤ pc.owes) : (p.setSubmit id pc).Credit := by
  intro calls hBegun hParked
  have hMem : id ∈ calls := hBegun.mem (by simpa [ThreadPool.setSubmit] using hPc)
  have hOld := hCredit calls (fun other hOut => setSubmit_idle hPc (hBegun other hOut)) hParked
  have hTally := tally_setSubmit hMem SubmitPc.owes p pc
  show p.tasks.length ≤ tally calls SubmitPc.owes (p.setSubmit id pc).submit +
    tally Finset.univ PoolWorkerPc.awake p.worker
  omega

omit [DecidableEq σ] in
theorem Credit.of_empty (hEmpty : p.tasks = []) : p.Credit := by
  intro calls _ _
  simp [hEmpty]

/-- `Submit` pushes its task and owes a wake. -/
theorem Credit.push (hCredit : p.Credit) {id : σ} (hPc : p.submit id = .pushing) :
    ((p.push id).setSubmit id .notifying).Credit := by
  intro calls hBegun hParked
  have hMem : id ∈ calls := hBegun.mem (by simp [ThreadPool.setSubmit])
  have hOld :=
    hCredit calls (fun other hOut => setSubmit_idle (by simp) (hBegun other hOut)) hParked
  have hTally := tally_setSubmit hMem SubmitPc.owes p .notifying
  rw [hPc] at hTally
  simp only [SubmitPc.owes] at hTally
  show (p.tasks ++ [id]).length ≤ tally calls SubmitPc.owes (p.setSubmit id .notifying).submit +
    tally Finset.univ PoolWorkerPc.awake p.worker
  rw [List.length_append, List.length_singleton]
  omega

/-- The wake that was owed reaches a worker. -/
theorem Credit.wake (hCredit : p.Credit) {id : σ} {w : Fin n} (hPc : p.submit id = .notifying)
    (hParked : p.worker w = .parked) :
    ((p.setSubmit id (.returned true)).setWorker w .wantsLock).Credit := by
  intro calls hBegun _
  have hMem : id ∈ calls := hBegun.mem (by simp [ThreadPool.setSubmit, ThreadPool.setWorker])
  have hOld := hCredit calls (fun other hOut => setSubmit_idle (by simp) (hBegun other hOut))
    ⟨w, hParked⟩
  have hSubmit := tally_setSubmit hMem SubmitPc.owes p (.returned true)
  have hWorker := tally_setWorker PoolWorkerPc.awake p w .wantsLock
  rw [hPc] at hSubmit
  rw [hParked] at hWorker
  simp only [SubmitPc.owes] at hSubmit
  simp only [PoolWorkerPc.awake] at hWorker
  show p.tasks.length ≤ tally calls SubmitPc.owes (p.setSubmit id (.returned true)).submit +
    tally Finset.univ PoolWorkerPc.awake (p.setWorker w .wantsLock).worker
  omega

omit [DecidableEq σ] in
/-- A worker takes a task. -/
theorem Credit.take (hCredit : p.Credit) {w : Fin n} {task : σ} {rest : List σ}
    (hPc : p.worker w = .deciding) (hTasks : p.tasks = task :: rest) :
    ((p.pop task).setWorker w (.running task)).Credit := by
  rintro calls hBegun ⟨v, hParked⟩
  have hOther : v ≠ w := by
    rintro rfl
    simp [ThreadPool.setWorker] at hParked
  have hStill : p.worker v = .parked := by
    simpa [ThreadPool.setWorker, hOther, pop] using hParked
  have hOld := hCredit calls hBegun ⟨v, hStill⟩
  have hTally := tally_setWorker PoolWorkerPc.awake p w (.running task)
  rw [hPc] at hTally
  rw [hTasks, List.length_cons] at hOld
  simp only [PoolWorkerPc.awake] at hTally
  show p.tasks.tail.length ≤ tally calls SubmitPc.owes p.submit +
    tally Finset.univ PoolWorkerPc.awake (p.setWorker w (.running task)).worker
  rw [hTasks, List.tail_cons]
  omega

variable [DecidableEq κ] {label : PoolLabel n σ κ}

theorem PoolMove.credit (hMove : PoolMove p label p') (hUnlaunched : p.Unlaunched)
    (hQuiet : ∀ id, label = .submitNotify id none → ∀ w, p.worker w ≠ .parked)
    (hCredit : p.Credit) : p'.Credit := by
  cases hMove with
  | start | wait | joinSkip | join | joinReturn | waitReturn | stop | stopLock | stopUnlock =>
      exact hCredit
  | launch hi =>
      have hFresh : p.worker ⟨p.launched, hi⟩ = .notStarted := hUnlaunched _ le_rfl
      exact hCredit.setWorker .wantsLock (by simp) (by simp [hFresh, PoolWorkerPc.awake])
  | submit id null hPc =>
      exact hCredit.setSubmit _ (by cases null <;> simp) (by simp [hPc, SubmitPc.owes])
  | submitLock id hPc hFree =>
      exact hCredit.setSubmit .loading (by simp) (by simp [hPc, SubmitPc.owes])
  | submitLoad id hPc =>
      exact hCredit.setSubmit _ (by cases p.stopping <;> simp) (by simp [hPc, SubmitPc.owes])
  | submitPush id hPc => exact hCredit.push hPc
  | submitReject id hPc =>
      exact hCredit.setSubmit (.returned false) (by simp) (by simp [hPc, SubmitPc.owes])
  | submitNotify id hPc =>
      rintro calls - ⟨w, hParked⟩
      exact absurd hParked (hQuiet id rfl w)
  | submitWake id w hPc hParked => exact hCredit.wake hPc hParked
  | stopNotify hPc =>
      rintro calls - ⟨w, hParked⟩
      simp only at hParked
      cases hOld : p.worker w <;> simp [hOld, PoolWorkerPc.notified] at hParked
  | workerLock w hPc hFree =>
      exact hCredit.setWorker .testing (by simp) (by simp [hPc, PoolWorkerPc.awake])
  | workerLoad w hPc =>
      exact hCredit.setWorker _ (by cases p.stopping <;> simp)
        (by cases p.stopping <;> simp [hPc, PoolWorkerPc.awake])
  | workerPark w hPc hEmpty | workerExit w hPc hEmpty => exact Credit.of_empty hEmpty
  | workerProceed w hPc hSome =>
      exact hCredit.setWorker _ (by simp) (by simp [hPc, PoolWorkerPc.awake])
  | workerTake w task rest hPc hTasks => exact hCredit.take hPc hTasks
  | workerFinish w _ task hPc =>
      exact Credit.setWorker (p := p.finish task) hCredit .wantsLock (by simp)
        (by simp [finish, hPc, PoolWorkerPc.awake])
  | workerWake w hPc => exact hCredit.setWorker _ (by simp) (by simp [hPc, PoolWorkerPc.awake])

end Credit

/-! ## The owner of the mutex, and the threads -/

section Owner

/-- The owner of the mutex is in its critical section. -/
def OwnerHolds (p : ThreadPool n σ κ) : Prop := ∀ agent, p.mutex = some agent → p.Holds agent

omit [DecidableEq σ] in
theorem OwnerHolds.setWorker (hOwner : p.OwnerHolds) {w : Fin n} (pc : PoolWorkerPc σ)
    (hPc : (p.worker w).holds = true → pc.holds = true) : (p.setWorker w pc).OwnerHolds := by
  intro agent hMutex
  have hOld := hOwner agent hMutex
  cases agent with
  | worker v =>
      by_cases hSame : v = w
      · subst hSame
        simpa [Holds, ThreadPool.setWorker] using hPc hOld
      · simpa [Holds, ThreadPool.setWorker, hSame] using hOld
  | submit id => exact hOld
  | stop => exact hOld

theorem OwnerHolds.setSubmit (hOwner : p.OwnerHolds) {id : σ} (pc : SubmitPc)
    (hPc : (p.submit id).holds = true → pc.holds = true) : (p.setSubmit id pc).OwnerHolds := by
  intro agent hMutex
  have hOld := hOwner agent hMutex
  cases agent with
  | submit other =>
      by_cases hSame : other = id
      · subst hSame
        simpa [Holds, ThreadPool.setSubmit] using hPc hOld
      · simpa [Holds, ThreadPool.setSubmit, hSame] using hOld
  | worker w => exact hOld
  | stop => exact hOld

omit [DecidableEq σ] in
theorem OwnerHolds.of_unlocked (hFree : p.mutex = none) : p.OwnerHolds := by
  intro agent hMutex
  simp [hFree] at hMutex

variable [DecidableEq κ] {label : PoolLabel n σ κ}

theorem PoolMove.owner (hMove : PoolMove p label p') (hUnlaunched : p.Unlaunched)
    (hOwner : p.OwnerHolds) : p'.OwnerHolds := by
  cases hMove with
  | start | wait | joinSkip | join | joinReturn | waitReturn => exact hOwner
  | launch hi =>
      have hFresh : p.worker ⟨p.launched, hi⟩ = .notStarted := hUnlaunched _ le_rfl
      exact hOwner.setWorker .wantsLock (by simp [hFresh, PoolWorkerPc.holds])
  | submit id null hPc => exact hOwner.setSubmit _ (by simp [hPc, SubmitPc.holds])
  | submitLock id hPc hFree =>
      rintro agent hMutex
      obtain rfl : PoolAgent.submit id = agent := by simpa [lock] using hMutex
      simp [Holds, lock, ThreadPool.setSubmit, SubmitPc.holds]
  | submitLoad id hPc =>
      exact hOwner.setSubmit _ (by cases p.stopping <;> simp [SubmitPc.holds])
  | submitPush id hPc | submitReject id hPc => exact OwnerHolds.of_unlocked rfl
  | submitNotify id hPc => exact hOwner.setSubmit _ (by simp [hPc, SubmitPc.holds])
  | submitWake id w hPc hParked =>
      exact (hOwner.setSubmit _ (by simp [hPc, SubmitPc.holds])).setWorker _
        (by simp [ThreadPool.setSubmit, hParked, PoolWorkerPc.holds])
  | stop hPc =>
      intro agent hMutex
      have hOld := hOwner agent hMutex
      cases agent with
      | worker w => exact hOld
      | submit id => exact hOld
      | stop => simp [Holds, hPc] at hOld
  | stopLock hPc hFree =>
      rintro agent hMutex
      obtain rfl : PoolAgent.stop = agent := by simpa [lock] using hMutex
      rfl
  | stopUnlock hPc => exact OwnerHolds.of_unlocked rfl
  | stopNotify hPc =>
      intro agent hMutex
      have hOld := hOwner agent hMutex
      cases agent with
      | worker w =>
          show ((p.worker w).notified).holds = true
          cases hWorker : p.worker w <;>
            simp_all [Holds, PoolWorkerPc.notified, PoolWorkerPc.holds]
      | submit id => exact hOld
      | stop => simp [Holds, hPc] at hOld
  | workerLock w hPc hFree =>
      rintro agent hMutex
      obtain rfl : PoolAgent.worker w = agent := by simpa [lock] using hMutex
      simp [Holds, lock, ThreadPool.setWorker, PoolWorkerPc.holds]
  | workerLoad w hPc =>
      exact hOwner.setWorker _ (by cases p.stopping <;> simp [PoolWorkerPc.holds])
  | workerPark w hPc hEmpty | workerExit w hPc hEmpty => exact OwnerHolds.of_unlocked rfl
  | workerProceed w hPc hSome => exact hOwner.setWorker _ (by simp [PoolWorkerPc.holds])
  | workerTake w task rest hPc hTasks => exact OwnerHolds.of_unlocked rfl
  | workerFinish w _ task hPc =>
      exact OwnerHolds.setWorker (p := p.finish task) hOwner .wantsLock
        (by simp [finish, hPc, PoolWorkerPc.holds])
  | workerWake w hPc => exact hOwner.setWorker _ (by simp [hPc, PoolWorkerPc.holds])

/-- The threads that `Start` has launched run. -/
def Launched (p : ThreadPool n σ κ) : Prop := ∀ w : Fin n, w < p.launched → p.worker w ≠ .notStarted

omit [DecidableEq σ] [DecidableEq κ] in
theorem Launched.setWorker (hLaunched : p.Launched) {w : Fin n} (pc : PoolWorkerPc σ)
    (hPc : pc ≠ .notStarted) : (p.setWorker w pc).Launched := by
  intro v hv
  by_cases hSame : v = w
  · subst hSame
    simpa [ThreadPool.setWorker] using hPc
  · simpa [ThreadPool.setWorker, hSame] using hLaunched v hv

theorem PoolMove.launched (hMove : PoolMove p label p') (hLaunched : p.Launched) : p'.Launched := by
  cases hMove with
  | launch hi =>
      intro v hv
      change v < p.launched + 1 at hv
      by_cases hSame : v = ⟨p.launched, hi⟩
      · subst hSame
        simp [ThreadPool.setWorker]
      · have hLt : (v : Nat) < p.launched := by
          have hNe : (v : Nat) ≠ p.launched := fun hEq => hSame (Fin.ext hEq)
          omega
        simpa [ThreadPool.setWorker, hSame] using hLaunched v hLt
  | stopNotify hPc =>
      intro v hv hNot
      have hOld := hLaunched v hv
      change (p.worker v).notified = .notStarted at hNot
      cases hWorker : p.worker v <;> simp_all [PoolWorkerPc.notified]
  | submitWake id w => exact Launched.setWorker (p := p.setSubmit id _) hLaunched _ (by simp)
  | workerLock w | workerPark w | workerProceed w | workerExit w | workerWake w =>
      exact hLaunched.setWorker _ (by simp)
  | workerLoad w => exact hLaunched.setWorker _ (by cases p.stopping <;> simp)
  | workerTake w task => exact Launched.setWorker (p := p.pop task) hLaunched _ (by simp)
  | workerFinish w _ task => exact Launched.setWorker (p := p.finish task) hLaunched _ (by simp)
  | _ => exact hLaunched

/-- `m_stopping` is set by `Stop` only. -/
def StopSets (p : ThreadPool n σ κ) : Prop := p.stop = .idle → p.stopping = false

theorem PoolMove.stopSets (hMove : PoolMove p label p') (hStop : p.StopSets) : p'.StopSets := by
  cases hMove with
  | stop hPc => simp [StopSets]
  | stopLock hPc hFree => simp [StopSets, lock]
  | stopUnlock hPc => simp [StopSets, unlock]
  | stopNotify hPc => simp [StopSets]
  | _ => exact hStop

end Owner

/-! ## The work that is left -/

section Work

omit [DecidableEq σ] in
theorem work_setWorker (p : ThreadPool n σ κ) (calls : Finset σ) (w : Fin n)
    (pc : PoolWorkerPc σ) :
    (p.setWorker w pc).work calls + (p.worker w).work = p.work calls + pc.work := by
  have hTally := tally_setWorker PoolWorkerPc.work p w pc
  show 5 * p.tasks.length + tally Finset.univ PoolWorkerPc.work (p.setWorker w pc).worker +
    tally calls SubmitPc.work p.submit + p.stop.work n + (p.worker w).work = _
  unfold work
  omega

theorem work_setSubmit {calls : Finset σ} {id : σ} (hMem : id ∈ calls) (p : ThreadPool n σ κ)
    (pc : SubmitPc) :
    (p.setSubmit id pc).work calls + (p.submit id).work = p.work calls + pc.work := by
  have hTally := tally_setSubmit hMem SubmitPc.work p pc
  show 5 * p.tasks.length + tally Finset.univ PoolWorkerPc.work p.worker +
    tally calls SubmitPc.work (p.setSubmit id pc).submit + p.stop.work n + (p.submit id).work = _
  unfold work
  omega

omit [DecidableEq σ] in
theorem work_push (p : ThreadPool n σ κ) (calls : Finset σ) (task : σ) :
    (p.push task).work calls = p.work calls + 5 := by
  simp only [work, push, List.length_append, List.length_singleton]
  omega

omit [DecidableEq σ] in
theorem work_pop {task : σ} {rest : List σ} (hTasks : p.tasks = task :: rest) (calls : Finset σ) :
    (p.pop task).work calls + 5 = p.work calls := by
  simp only [work, pop, hTasks, List.tail_cons, List.length_cons]
  omega

omit [DecidableEq σ] in
theorem work_setStop (p : ThreadPool n σ κ) (calls : Finset σ) (pc : StopPc) :
    { p with stop := pc }.work calls + p.stop.work n = p.work calls + pc.work n := by
  simp only [work]
  omega

omit [DecidableEq σ] in
/-- `notify_all` sends each parked worker back to the head of its loop. -/
theorem work_notifyAll (p : ThreadPool n σ κ) (calls : Finset σ) :
    { p with worker := fun w => (p.worker w).notified }.work calls ≤ p.work calls + 4 * n := by
  have hTally : tally Finset.univ PoolWorkerPc.work (fun w => (p.worker w).notified) ≤
      tally Finset.univ PoolWorkerPc.work p.worker + 4 * (Finset.univ : Finset (Fin n)).card := by
    refine tally_le_add fun w _ => ?_
    cases p.worker w <;> simp [PoolWorkerPc.notified, PoolWorkerPc.work]
  rw [Finset.card_univ, Fintype.card_fin] at hTally
  simp only [work]
  omega

omit [DecidableEq σ] in
theorem work_setWorker_lt {calls : Finset σ} {w : Fin n} {pc pc' : PoolWorkerPc σ}
    (hPc : p.worker w = pc) (hLess : pc'.work < pc.work) :
    (p.setWorker w pc').work calls < p.work calls := by
  have hWork := work_setWorker p calls w pc'
  rw [hPc] at hWork
  omega

theorem work_setSubmit_lt {calls : Finset σ} {id : σ} (hMem : id ∈ calls) {pc pc' : SubmitPc}
    (hPc : p.submit id = pc) (hLess : pc'.work < pc.work) :
    (p.setSubmit id pc').work calls < p.work calls := by
  have hWork := work_setSubmit hMem p pc'
  rw [hPc] at hWork
  omega

omit [DecidableEq σ] in
theorem work_setStop_lt {calls : Finset σ} {pc pc' : StopPc} (hPc : p.stop = pc)
    (hLess : pc'.work n < pc.work n) : { p with stop := pc' }.work calls < p.work calls := by
  have hWork := work_setStop p calls pc'
  rw [hPc] at hWork
  omega

variable [DecidableEq κ] {label : PoolLabel n σ κ}

theorem PoolMove.work_lt (hMove : PoolMove p label p') (hInternal : label.internal = true)
    {calls : Finset σ} (hBegun : p.Begun calls) : p'.work calls < p.work calls := by
  have hMem : ∀ id, p.submit id ≠ .idle → id ∈ calls := fun id hPc => hBegun.mem hPc
  cases hMove with
  | start | launch | submit | stop | workerWake | wait | joinSkip | join | joinReturn
  | waitReturn => cases hInternal
  | submitLock id hPc hFree =>
      show (p.setSubmit id .loading).work calls < p.work calls
      exact work_setSubmit_lt (hMem id (by simp [hPc])) hPc (by simp [SubmitPc.work])
  | submitLoad id hPc =>
      refine work_setSubmit_lt (hMem id (by simp [hPc])) hPc ?_
      cases p.stopping <;> simp [SubmitPc.work]
  | submitPush id hPc =>
      -- The task that is queued costs less than the call that brought it.
      have hWork := work_setSubmit (hMem id (by simp [hPc])) (p.push id) .notifying
      rw [work_push, show (p.push id).submit id = .pushing from hPc] at hWork
      simp only [SubmitPc.work] at hWork
      show ((p.push id).setSubmit id .notifying).work calls < p.work calls
      omega
  | submitReject id hPc =>
      show (p.setSubmit id (.returned false)).work calls < p.work calls
      exact work_setSubmit_lt (hMem id (by simp [hPc])) hPc (by simp [SubmitPc.work])
  | submitNotify id hPc =>
      exact work_setSubmit_lt (hMem id (by simp [hPc])) hPc (by simp [SubmitPc.work])
  | submitWake id w hPc hParked =>
      -- The worker that is woken has more to do, and the notification pays for it.
      have hSubmit := work_setSubmit (hMem id (by simp [hPc])) p (.returned true)
      have hWorker := work_setWorker (p.setSubmit id (.returned true)) calls w .wantsLock
      rw [hPc] at hSubmit
      rw [show (p.setSubmit id (.returned true)).worker w = .parked from hParked] at hWorker
      simp only [SubmitPc.work] at hSubmit
      simp only [PoolWorkerPc.work] at hWorker
      omega
  | stopLock hPc hFree =>
      show { p with stop := .holding }.work calls < p.work calls
      exact work_setStop_lt hPc (by simp [StopPc.work])
  | stopUnlock hPc =>
      show { p with stop := .notifying }.work calls < p.work calls
      exact work_setStop_lt hPc (by simp [StopPc.work])
  | stopNotify hPc =>
      have hStop := work_setStop p calls .returned
      have hAll :
          { p with stop := .returned, worker := fun w => (p.worker w).notified }.work calls ≤
            { p with stop := .returned }.work calls + 4 * n :=
        work_notifyAll { p with stop := .returned } calls
      rw [hPc] at hStop
      simp only [StopPc.work] at hStop
      omega
  | workerLock w hPc hFree =>
      show (p.setWorker w .testing).work calls < p.work calls
      exact work_setWorker_lt hPc (by simp [PoolWorkerPc.work])
  | workerLoad w hPc =>
      refine work_setWorker_lt hPc ?_
      cases p.stopping <;> simp [PoolWorkerPc.work]
  | workerPark w hPc hEmpty =>
      show (p.setWorker w .parked).work calls < p.work calls
      exact work_setWorker_lt hPc (by simp [PoolWorkerPc.work])
  | workerProceed w hPc hSome =>
      exact work_setWorker_lt hPc (by simp [PoolWorkerPc.work])
  | workerExit w hPc hEmpty =>
      show (p.setWorker w .exited).work calls < p.work calls
      exact work_setWorker_lt hPc (by simp [PoolWorkerPc.work])
  | workerTake w task rest hPc hTasks =>
      have hPop := work_pop hTasks calls
      have hWork := work_setWorker (p.pop task) calls w (.running task)
      rw [show (p.pop task).worker w = .deciding from hPc] at hWork
      simp only [PoolWorkerPc.work] at hWork
      show ((p.pop task).setWorker w (.running task)).work calls < p.work calls
      omega
  | workerFinish w _ task hPc =>
      have hLess : ((p.finish task).setWorker w .wantsLock).work calls <
          (p.finish task).work calls :=
        work_setWorker_lt hPc (by simp [PoolWorkerPc.work])
      have hSame : (p.finish task).work calls = p.work calls := rfl
      exact hLess.trans_eq hSame

end Work

/-! ## Runs -/

/-- What holds in every run. -/
structure Alert (p : ThreadPool n σ κ) : Prop where
  inv : p.PoolInv
  owner : p.OwnerHolds
  credit : p.Credit
  launched : p.Launched
  stopSets : p.StopSets

omit [DecidableEq σ] in
theorem new_alert : (new : ThreadPool n σ κ).Alert where
  inv := new_poolInv
  owner := OwnerHolds.of_unlocked rfl
  credit := Credit.of_empty rfl
  launched := fun w hw => absurd hw (Nat.not_lt_zero w)
  stopSets := fun _ => rfl

variable [DecidableEq κ]

theorem step_alert {label : PoolLabel n σ κ} (hAlert : p.Alert)
    (hStep : p.poolStep label = some p') : p'.Alert := by
  have hMove := poolStep_move hStep
  have hQuiet : ∀ id, label = .submitNotify id none → ∀ w, p.worker w ≠ .parked := by
    rintro id rfl
    simp only [poolStep, submitStep, notifyOne, Option.ite_none_right_eq_some] at hStep
    exact hStep.2.1
  exact ⟨hMove.inv hAlert.inv, hMove.owner hAlert.inv.unlaunched hAlert.owner,
    hMove.credit hAlert.inv.unlaunched hQuiet hAlert.credit, hMove.launched hAlert.launched,
    hMove.stopSets hAlert.stopSets⟩

theorem exec_alert {labels : List (PoolLabel n σ κ)} (hAlert : p.Alert)
    (hRun : exec poolStep p labels = some p') : p'.Alert :=
  exec_invariant Alert (fun _ _ _ hInv hStep => step_alert hInv hStep) hAlert hRun

theorem exec_exists_begun {labels : List (PoolLabel n σ κ)} {q : ThreadPool n σ κ}
    (hRun : exec poolStep new labels = some q) : ∃ calls, q.Begun calls :=
  exec_invariant (fun q : ThreadPool n σ κ => ∃ calls, q.Begun calls)
    (fun _ _ _ ⟨_, hBegun⟩ hStep => (poolStep_move hStep).exists_begun hBegun)
    ⟨∅, fun _ _ => rfl⟩ hRun

/-- An internal step begins no call and launches no thread. -/
theorem PoolMove.internal_frame {label : PoolLabel n σ κ} (hMove : PoolMove p label p')
    (hInternal : label.internal = true) {calls : Finset σ} (hBegun : p.Begun calls) :
    p'.Begun calls ∧ p'.launched = p.launched := by
  have hSet : ∀ (q : ThreadPool n σ κ) id pc, q.submit = p.submit → p.submit id ≠ .idle →
      (q.setSubmit id pc).Begun calls := by
    intro q id pc hSame hPc other hOut
    have hOther : other ≠ id := by
      rintro rfl
      exact hOut (hBegun.mem hPc)
    exact (Function.update_of_ne hOther _ _).trans (hSame ▸ hBegun other hOut)
  cases hMove with
  | start | launch | submit | stop | workerWake | wait | joinSkip | join | joinReturn
  | waitReturn => cases hInternal
  | submitLock id hPc | submitLoad id hPc | submitPush id hPc | submitReject id hPc
  | submitNotify id hPc | submitWake id _ hPc =>
      exact ⟨hSet _ id _ rfl (by simp [hPc]), rfl⟩
  | _ => exact ⟨hBegun, rfl⟩

/-- A run of internal steps is no longer than the work that is left. -/
theorem internal_run_length {later : List (PoolLabel n σ κ)} {final : ThreadPool n σ κ}
    (hInternal : ∀ label ∈ later, label.internal = true) {calls : Finset σ}
    (hBegun : p.Begun calls) (hRun : exec poolStep p later = some final) :
    later.length + final.work calls ≤ p.work calls ∧ final.launched = p.launched := by
  induction later generalizing p with
  | nil =>
      obtain rfl : p = final := by simpa using hRun
      simp
  | cons label later ih =>
      obtain ⟨next, hNext, hRest⟩ := exec_cons_eq_some.mp hRun
      have hMove := poolStep_move hNext
      have hHead : label.internal = true := hInternal label (by simp)
      have hLess := hMove.work_lt hHead hBegun
      obtain ⟨hStill, hSame⟩ := hMove.internal_frame hHead hBegun
      obtain ⟨hLength, hFinal⟩ :=
        ih (fun other hOther => hInternal other (List.mem_cons_of_mem label hOther)) hStill hRest
      rw [List.length_cons]
      exact ⟨by omega, hFinal.trans hSame⟩

/-! ## Rest -/

/-- No step of the pool itself is possible. -/
def Stuck (p : ThreadPool n σ κ) : Prop :=
  ∀ label : PoolLabel n σ κ, label.internal = true → p.poolStep label = none

theorem Stuck.worker (hStuck : p.Stuck) (w : Fin n) :
    p.worker w = .notStarted ∨ p.worker w = .parked ∨ p.worker w = .exited ∨
      p.worker w = .wantsLock ∧ p.mutex ≠ none := by
  cases hPc : p.worker w with
  | notStarted => exact Or.inl rfl
  | parked => exact Or.inr (Or.inl rfl)
  | exited => exact Or.inr (Or.inr (Or.inl rfl))
  | wantsLock =>
      refine Or.inr (Or.inr (Or.inr ⟨rfl, fun hFree => ?_⟩))
      have hNone := hStuck (.workerLock w) rfl
      simp [poolStep, workerStep, hPc, hFree] at hNone
  | testing =>
      have hNone := hStuck (.workerLoad w) rfl
      simp [poolStep, workerStep, hPc] at hNone
  | sawRunning =>
      by_cases hEmpty : p.tasks = []
      · have hNone := hStuck (.workerPark w) rfl
        simp [poolStep, workerStep, hPc, hEmpty] at hNone
      · have hNone := hStuck (.workerProceed w) rfl
        simp [poolStep, workerStep, hPc, hEmpty] at hNone
  | deciding =>
      cases hTasks : p.tasks with
      | nil =>
          have hNone := hStuck (.workerExit w) rfl
          simp [poolStep, workerStep, hPc, hTasks] at hNone
      | cons task rest =>
          have hNone := hStuck (.workerTake w) rfl
          simp [poolStep, workerStep, hPc, hTasks] at hNone
  | running task =>
      have hNone := hStuck (.workerFinish w false) rfl
      simp [poolStep, workerStep, hPc] at hNone

theorem Stuck.submit (hStuck : p.Stuck) (id : σ) :
    p.submit id = .idle ∨ (∃ accepted, p.submit id = .returned accepted) ∨
      p.submit id = .wantsLock ∧ p.mutex ≠ none := by
  cases hPc : p.submit id with
  | idle => exact Or.inl rfl
  | returned accepted => exact Or.inr (Or.inl ⟨accepted, rfl⟩)
  | wantsLock =>
      refine Or.inr (Or.inr ⟨rfl, fun hFree => ?_⟩)
      have hNone := hStuck (.submitLock id) rfl
      simp [poolStep, submitStep, hPc, hFree] at hNone
  | loading =>
      have hNone := hStuck (.submitLoad id) rfl
      simp [poolStep, submitStep, hPc] at hNone
  | pushing =>
      have hNone := hStuck (.submitPush id) rfl
      simp [poolStep, submitStep, hPc] at hNone
  | rejecting =>
      have hNone := hStuck (.submitReject id) rfl
      simp [poolStep, submitStep, hPc] at hNone
  | notifying =>
      by_cases hParked : ∃ w, p.worker w = .parked
      · obtain ⟨w, hW⟩ := hParked
        have hNone := hStuck (.submitNotify id (some w)) rfl
        simp [poolStep, submitStep, hPc, notifyOne, ThreadPool.setSubmit, hW] at hNone
      · have hNobody : ∀ w, p.worker w ≠ .parked := fun w hW => hParked ⟨w, hW⟩
        have hNone := hStuck (.submitNotify id none) rfl
        simp [poolStep, submitStep, hPc, notifyOne, ThreadPool.setSubmit, hNobody] at hNone

theorem Stuck.stop (hStuck : p.Stuck) :
    p.stop = .idle ∨ p.stop = .returned ∨ p.stop = .wantsLock ∧ p.mutex ≠ none := by
  cases hPc : p.stop with
  | idle => exact Or.inl rfl
  | returned => exact Or.inr (Or.inl rfl)
  | wantsLock =>
      refine Or.inr (Or.inr ⟨rfl, fun hFree => ?_⟩)
      have hNone := hStuck .stopLock rfl
      simp [poolStep, stopStep, hPc, hFree] at hNone
  | holding =>
      have hNone := hStuck .stopUnlock rfl
      simp [poolStep, stopStep, hPc] at hNone
  | notifying =>
      have hNone := hStuck .stopNotify rfl
      simp [poolStep, stopStep, hPc] at hNone

/-- The owner of the mutex can always go on. -/
theorem Stuck.mutex (hStuck : p.Stuck) (hOwner : p.OwnerHolds) : p.mutex = none := by
  cases hMutex : p.mutex with
  | none => rfl
  | some agent =>
      have hHolds := hOwner agent hMutex
      cases agent with
      | worker w =>
          rcases hStuck.worker w with hPc | hPc | hPc | ⟨hPc, -⟩ <;>
            simp [Holds, hPc, PoolWorkerPc.holds] at hHolds
      | submit id =>
          rcases hStuck.submit id with hPc | ⟨accepted, hPc⟩ | ⟨hPc, -⟩ <;>
            simp [Holds, hPc, SubmitPc.holds] at hHolds
      | stop =>
          rcases hStuck.stop with hPc | hPc | ⟨hPc, -⟩ <;> simp [Holds, hPc] at hHolds

/-- Nothing is left to do: the accepted tasks are finished, no call is in progress, and the
workers are parked, or have left when `Stop` was called. -/
structure AtRest (p : ThreadPool n σ κ) : Prop where
  tasks : p.tasks = []
  finished : p.finished.Perm p.pushed
  submits : ∀ id, p.submit id = .idle ∨ ∃ accepted, p.submit id = .returned accepted
  workers : p.stop = .idle ∧ (∀ w, p.worker w = .parked) ∨
    p.stop = .returned ∧ ∀ w, p.worker w = .exited

theorem atRest_of_stuck (hAlert : p.Alert) (hSome : 0 < n) (hAll : p.launched = n)
    (hStuck : p.Stuck) {calls : Finset σ} (hBegun : p.Begun calls) : p.AtRest := by
  have hFree : p.mutex = none := hStuck.mutex hAlert.owner
  have hWorker : ∀ w, p.worker w = .parked ∨ p.worker w = .exited := by
    intro w
    rcases hStuck.worker w with hPc | hPc | hPc | ⟨-, hTaken⟩
    · exact absurd hPc (hAlert.launched w (by rw [hAll]; exact w.isLt))
    · exact Or.inl hPc
    · exact Or.inr hPc
    · exact absurd hFree hTaken
  have hSubmit : ∀ id, p.submit id = .idle ∨ ∃ accepted, p.submit id = .returned accepted := by
    intro id
    rcases hStuck.submit id with hPc | hPc | ⟨-, hTaken⟩
    · exact Or.inl hPc
    · exact Or.inr hPc
    · exact absurd hFree hTaken
  have hTasks : p.tasks = [] := by
    rcases hWorker ⟨0, hSome⟩ with hParked | hExited
    · have hOwes : tally calls SubmitPc.owes p.submit = 0 := by
        refine tally_eq_zero fun id _ => ?_
        rcases hSubmit id with hPc | ⟨accepted, hPc⟩ <;> simp [hPc, SubmitPc.owes]
      have hAwake : tally Finset.univ PoolWorkerPc.awake p.worker = 0 := by
        refine tally_eq_zero fun w _ => ?_
        rcases hWorker w with hPc | hPc <;> simp [hPc, PoolWorkerPc.awake]
      have hCredit := hAlert.credit calls hBegun ⟨_, hParked⟩
      exact List.length_eq_zero_iff.mp (by omega)
    · exact (hAlert.inv.ending.exited _ hExited).2.1
  refine ⟨hTasks, ?_, hSubmit, ?_⟩
  · have hFifo : p.dequeued = p.pushed := by simpa [hTasks] using hAlert.inv.accounts.fifo
    refine (List.perm_ext_iff_of_nodup hAlert.inv.accounts.finished_nodup
      hAlert.inv.accounts.nodup).mpr fun id => ?_
    have hNobody : ∀ w, p.worker w ≠ .running id := by
      intro w hRun
      rcases hWorker w with hPc | hPc <;> simp [hPc] at hRun
    rw [← hFifo, hAlert.inv.accounts.dequeued_iff]
    simp [hNobody]
  · rcases hStuck.stop with hIdle | hReturned | ⟨-, hTaken⟩
    · refine Or.inl ⟨hIdle, fun w => (hWorker w).resolve_right fun hExited => ?_⟩
      have hStopping := (hAlert.inv.ending.exited w hExited).1
      simp [hAlert.stopSets hIdle] at hStopping
    · exact Or.inr ⟨hReturned, fun w =>
        (hWorker w).resolve_left (hAlert.inv.ending.awake hReturned w)⟩
    · exact absurd hFree hTaken

/-- In every state that a pool reaches, while a worker is parked there is a wake under way
for each queued task.  And once all threads are launched, the pool left to itself comes to
rest, whatever the order of its steps is: there is a bound on the number of these steps,
and where none of them is possible, every accepted task is finished, every `Submit` has
returned, and the workers are parked, or have left when `Stop` was called. -/
theorem pool_drains (requested : Nat) {labels : List (PoolLabel (threadCount requested) σ κ)}
    {p : ThreadPool (threadCount requested) σ κ} (hRun : exec poolStep new labels = some p) :
    ∃ calls : Finset σ, p.Begun calls ∧
      ((∃ w, p.worker w = .parked) → p.tasks.length ≤ tally calls SubmitPc.owes p.submit +
        tally Finset.univ PoolWorkerPc.awake p.worker) ∧
      ∀ later final, (∀ label ∈ later, label.internal = true) →
        exec poolStep p later = some final →
        later.length ≤ p.work calls ∧
          (p.launched = threadCount requested → final.Stuck → final.AtRest) := by
  have hAlert : p.Alert := exec_alert new_alert hRun
  obtain ⟨calls, hBegun⟩ := exec_exists_begun hRun
  refine ⟨calls, hBegun, hAlert.credit calls hBegun, ?_⟩
  intro later final hInternal hLater
  obtain ⟨hLength, hLaunched⟩ := internal_run_length hInternal hBegun hLater
  refine ⟨by omega, fun hAll hStuck => ?_⟩
  obtain ⟨calls', hBegun'⟩ := exec_exists_begun (exec_append_eq_some hRun hLater)
  exact atRest_of_stuck (exec_alert hAlert hLater) (threadCount_pos requested)
    (hLaunched.trans hAll) hStuck hBegun'

/-- No step is possible when every call is over and every worker is parked or has left. -/
theorem stuck_of_settled
    (hSubmits : ∀ id, p.submit id = .idle ∨ ∃ accepted, p.submit id = .returned accepted)
    (hStop : p.stop = .idle ∨ p.stop = .returned)
    (hWorkers : ∀ w, p.worker w = .parked ∨ p.worker w = .exited) : p.Stuck := by
  intro label hInternal
  cases label with
  | start | launch | submit | stop | workerWake | wait | join | joinReturn | waitReturn =>
      cases hInternal
  | submitLock id | submitLoad id | submitPush id | submitReject id | submitNotify id woken =>
      rcases hSubmits id with hPc | ⟨accepted, hPc⟩ <;> simp [poolStep, submitStep, hPc]
  | stopLock | stopUnlock | stopNotify =>
      rcases hStop with hPc | hPc <;> simp [poolStep, stopStep, hPc]
  | workerLock w | workerLoad w | workerPark w | workerProceed w | workerExit w
  | workerFinish w threw =>
      rcases hWorkers w with hPc | hPc <;> simp [poolStep, workerStep, hPc]
  | workerTake w =>
      rcases hWorkers w with hPc | hPc <;> cases hTasks : p.tasks <;>
        simp [poolStep, workerStep, hPc, hTasks]

/-- A pool of two threads, one parked, one running the first of two tasks.  The second
`Submit` has pushed and not yet notified. -/
def twoTasks : List (PoolLabel (threadCount 2) Bool Unit) :=
  [.start, .launch, .launch, .workerLock ⟨0, by decide⟩, .workerLoad ⟨0, by decide⟩,
    .workerPark ⟨0, by decide⟩, .submit false false, .submitLock false, .submitLoad false,
    .submitPush false, .workerLock ⟨1, by decide⟩, .workerLoad ⟨1, by decide⟩,
    .workerProceed ⟨1, by decide⟩, .workerTake ⟨1, by decide⟩,
    .submitNotify false (some ⟨0, by decide⟩), .workerLock ⟨0, by decide⟩,
    .workerLoad ⟨0, by decide⟩, .workerPark ⟨0, by decide⟩, .submit true false,
    .submitLock true, .submitLoad true, .submitPush true]

/-- The parked thread takes the second task, and both go back to wait. -/
def twoTasksDrained : List (PoolLabel (threadCount 2) Bool Unit) :=
  [.submitNotify true (some ⟨0, by decide⟩), .workerFinish ⟨1, by decide⟩ true,
    .workerLock ⟨0, by decide⟩, .workerLoad ⟨0, by decide⟩, .workerProceed ⟨0, by decide⟩,
    .workerTake ⟨0, by decide⟩, .workerLock ⟨1, by decide⟩, .workerLoad ⟨1, by decide⟩,
    .workerPark ⟨1, by decide⟩, .workerFinish ⟨0, by decide⟩ false,
    .workerLock ⟨0, by decide⟩, .workerLoad ⟨0, by decide⟩, .workerPark ⟨0, by decide⟩]

theorem pool_drains_twoTasks :
    ∃ p final, exec poolStep new twoTasks = some p ∧
      exec poolStep p twoTasksDrained = some final ∧ p.tasks = [true] ∧
      (∃ calls : Finset Bool, 1 ≤ tally calls SubmitPc.owes p.submit +
          tally Finset.univ PoolWorkerPc.awake p.worker ∧
        twoTasksDrained.length ≤ p.work calls) ∧
      final.Stuck ∧ final.AtRest := by
  obtain ⟨p, hRun, hTasks, hParked, hLaunched⟩ : ∃ p, exec poolStep new twoTasks = some p ∧
      p.tasks = [true] ∧ p.worker ⟨0, by decide⟩ = .parked ∧ p.launched = threadCount 2 :=
    ⟨_, rfl, rfl, rfl, rfl⟩
  obtain ⟨final, hLater, hSettled⟩ : ∃ final, exec poolStep p twoTasksDrained = some final ∧
      (∀ id, final.submit id = .returned true) ∧ final.stop = .idle ∧
        ∀ w, final.worker w = .parked := by
    obtain rfl := Option.some.inj hRun
    exact ⟨_, rfl, by decide, rfl, by decide⟩
  obtain ⟨calls, -, hCredit, hRests⟩ := pool_drains 2 hRun
  obtain ⟨hLength, hRest⟩ := hRests twoTasksDrained final (by decide) hLater
  have hWakes := hCredit ⟨_, hParked⟩
  rw [hTasks] at hWakes
  have hStuck : final.Stuck := stuck_of_settled (fun id => Or.inr ⟨true, hSettled.1 id⟩)
    (Or.inl hSettled.2.1) fun w => Or.inl (hSettled.2.2 w)
  exact ⟨p, final, hRun, hLater, hTasks, ⟨calls, hWakes, hLength⟩, hStuck, hRest hLaunched hStuck⟩

end ThreadPool
end SolarNet
