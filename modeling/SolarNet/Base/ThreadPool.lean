import SolarNet.Lib.Mutex
import Mathlib.Logic.Function.Basic

/-!
# `ThreadPool`

The thread pool of `solar_net/base/thread_pool.cpp` with `Thread::Join` of
`solar_net/base/thread.cpp`, as an interleaving of the workers, one `Start`, one `Stop`
and any number of calls of `Submit` and `Wait`.  A step is one operation on shared data:
an operation on the mutex or the condition variable, an atomic load, store or exchange,
or an access of the queue under the mutex.  A further `Stop` loses its exchange and
returns, so it is not a step of its own.

A task is named by the call of `Submit` that brings it.  `std::condition_variable` may
wake a waiting thread at any time, and a thread that wakes takes the mutex again before
it tests its condition.
-/

namespace SolarNet

/-- Where a worker is in `RunWorker`. -/
inductive PoolWorkerPc (σ : Type*) where
  | notStarted
  /-- Before the lock, at the head of the loop or after a wake. -/
  | wantsLock
  /-- With the lock, before the load of `m_stopping`. -/
  | testing
  /-- With the lock; the load gave `false`. -/
  | sawRunning
  /-- With the lock; the condition of the wait was true. -/
  | deciding
  | parked
  | running (task : σ)
  | exited
  deriving DecidableEq, Repr

inductive SubmitPc where
  | idle
  | wantsLock
  /-- With the lock, before the load of `m_stopping`. -/
  | loading
  /-- With the lock; the load gave `false`. -/
  | pushing
  /-- With the lock; the load gave `true`. -/
  | rejecting
  /-- After the lock, before `notify_one`. -/
  | notifying
  | returned (accepted : Bool)
  deriving DecidableEq, Repr

inductive StopPc where
  | idle
  | wantsLock
  | holding
  | notifying
  | returned
  deriving DecidableEq, Repr

/-- Where a call of `Wait` is in its loop over `m_threads`. -/
inductive WaitPc where
  | idle
  /-- Before `Join` of the thread at `i`, or after the loop. -/
  | joining (i : Nat)
  /-- In `m_thread.join()` of the thread at `i`. -/
  | blocked (i : Nat)
  | returned
  deriving DecidableEq, Repr

/-- Who can hold `m_mutex`. -/
inductive PoolAgent (n : Nat) (σ : Type*) where
  | worker (w : Fin n)
  | submit (id : σ)
  | stop
  deriving DecidableEq, Repr

/-- The pool, where each thread is, and the history: the tasks in the order in which they
were pushed, taken from the queue, and finished. -/
structure ThreadPool (n : Nat) (σ κ : Type*) where
  started : Bool
  stopping : Bool
  stopped : Bool
  /-- How many threads `Start` has launched. -/
  launched : Nat
  mutex : Option (PoolAgent n σ)
  tasks : List σ
  worker : Fin n → PoolWorkerPc σ
  submit : σ → SubmitPc
  stop : StopPc
  /-- `m_joined` of each thread. -/
  joined : Fin n → Bool
  wait : κ → WaitPc
  pushed : List σ
  dequeued : List σ
  finished : List σ

inductive PoolLabel (n : Nat) (σ κ : Type*) where
  /-- The exchange of `Start`. -/
  | start
  /-- The loop of `Start` launches the next thread. -/
  | launch
  | submit (id : σ) (null : Bool)
  | submitLock (id : σ)
  | submitLoad (id : σ)
  | submitPush (id : σ)
  | submitReject (id : σ)
  /-- `notify_one` wakes the given worker. -/
  | submitNotify (id : σ) (woken : Option (Fin n))
  /-- The exchange of `Stop`. -/
  | stop
  | stopLock
  | stopUnlock
  | stopNotify
  | workerLock (w : Fin n)
  | workerLoad (w : Fin n)
  /-- The condition is false. -/
  | workerPark (w : Fin n)
  /-- The condition is true because of a task. -/
  | workerProceed (w : Fin n)
  | workerExit (w : Fin n)
  | workerTake (w : Fin n)
  /-- The task ends, or throws and is caught. -/
  | workerFinish (w : Fin n) (threw : Bool)
  /-- A wake without notification. -/
  | workerWake (w : Fin n)
  | wait (call : κ)
  | join (call : κ)
  /-- `m_thread.join()` returns. -/
  | joinReturn (call : κ)
  /-- The end of `Wait`. -/
  | waitReturn (call : κ)
  deriving DecidableEq, Repr

namespace PoolWorkerPc

/-- The worker holds the mutex. -/
def holds {σ : Type*} : PoolWorkerPc σ → Bool
  | .testing | .sawRunning | .deciding => true
  | _ => false

/-- `notify_all` reaches a worker. -/
def notified {σ : Type*} : PoolWorkerPc σ → PoolWorkerPc σ
  | .parked => .wantsLock
  | pc => pc

end PoolWorkerPc

namespace SubmitPc

def holds : SubmitPc → Bool
  | .loading | .pushing | .rejecting => true
  | _ => false

/-- The task is, or was, in the queue. -/
def accepts : SubmitPc → Bool
  | .notifying | .returned true => true
  | _ => false

end SubmitPc

namespace ThreadPool

/-- `m_thread_count` of a pool that was asked for `requested` threads. -/
def threadCount (requested : Nat) : Nat := if requested = 0 then 1 else requested

theorem threadCount_pos (requested : Nat) : 0 < threadCount requested := by
  unfold threadCount
  split <;> omega

variable {n : Nat} {σ κ : Type*}

/-- A pool that was not started. -/
def new : ThreadPool n σ κ where
  started := false
  stopping := false
  stopped := false
  launched := 0
  mutex := none
  tasks := []
  worker _ := .notStarted
  submit _ := .idle
  stop := .idle
  joined _ := false
  wait _ := .idle
  pushed := []
  dequeued := []
  finished := []

/-- The agent is in a critical section. -/
def Holds (p : ThreadPool n σ κ) : PoolAgent n σ → Prop
  | .worker w => (p.worker w).holds = true
  | .submit id => (p.submit id).holds = true
  | .stop => p.stop = .holding

/-- `m_mutex.lock()`. -/
def lock (p : ThreadPool n σ κ) (agent : PoolAgent n σ) : ThreadPool n σ κ :=
  { p with mutex := some agent }

/-- `m_mutex.unlock()`. -/
def unlock (p : ThreadPool n σ κ) : ThreadPool n σ κ := { p with mutex := none }

/-- `m_tasks.push`. -/
def push (p : ThreadPool n σ κ) (task : σ) : ThreadPool n σ κ :=
  { p with tasks := p.tasks ++ [task], pushed := p.pushed ++ [task] }

/-- `m_tasks.pop`, of a queue that starts with `task`. -/
def pop (p : ThreadPool n σ κ) (task : σ) : ThreadPool n σ κ :=
  { p with tasks := p.tasks.tail, dequeued := p.dequeued ++ [task] }

/-- A task has returned or thrown. -/
def finish (p : ThreadPool n σ κ) (task : σ) : ThreadPool n σ κ :=
  { p with finished := p.finished ++ [task] }

def setWorker (p : ThreadPool n σ κ) (w : Fin n) (pc : PoolWorkerPc σ) : ThreadPool n σ κ :=
  { p with worker := Function.update p.worker w pc }

def setSubmit [DecidableEq σ] (p : ThreadPool n σ κ) (id : σ) (pc : SubmitPc) :
    ThreadPool n σ κ :=
  { p with submit := Function.update p.submit id pc }

def setWait [DecidableEq κ] (p : ThreadPool n σ κ) (call : κ) (pc : WaitPc) :
    ThreadPool n σ κ :=
  { p with wait := Function.update p.wait call pc }

variable [DecidableEq σ] [DecidableEq κ]

/-- `notify_one`.  It has no effect when no worker is parked. -/
def notifyOne (p : ThreadPool n σ κ) : Option (Fin n) → Option (ThreadPool n σ κ)
  | some w => if p.worker w = .parked then some (p.setWorker w .wantsLock) else none
  | none => if ∀ w, p.worker w ≠ .parked then some p else none

/-- `m_joined.compare_exchange_strong` of the thread at `i`, which `call` has reached:
the call that wins it joins the thread, a call that loses it goes on. -/
def exchangeJoined (p : ThreadPool n σ κ) (call : κ) (i : Fin n) : ThreadPool n σ κ :=
  if p.joined i then p.setWait call (.joining (i + 1))
  else { p.setWait call (.blocked i) with joined := Function.update p.joined i true }

def submitStep (p : ThreadPool n σ κ) : PoolLabel n σ κ → Option (ThreadPool n σ κ)
  | .submit id null =>
      if p.submit id = .idle then
        some (p.setSubmit id (if null then .returned false else .wantsLock))
      else none
  | .submitLock id =>
      if p.submit id = .wantsLock ∧ p.mutex = none then
        some ((p.setSubmit id .loading).lock (.submit id))
      else none
  | .submitLoad id =>
      if p.submit id = .loading then
        some (p.setSubmit id (if p.stopping then .rejecting else .pushing))
      else none
  | .submitPush id =>
      if p.submit id = .pushing then some ((p.push id).setSubmit id .notifying).unlock
      else none
  | .submitReject id =>
      if p.submit id = .rejecting then some (p.setSubmit id (.returned false)).unlock
      else none
  | .submitNotify id woken =>
      if p.submit id = .notifying then (p.setSubmit id (.returned true)).notifyOne woken
      else none
  | _ => none

def stopStep (p : ThreadPool n σ κ) : PoolLabel n σ κ → Option (ThreadPool n σ κ)
  | .stop =>
      if p.stop = .idle then some { p with stop := .wantsLock, stopping := true } else none
  | .stopLock =>
      if p.stop = .wantsLock ∧ p.mutex = none then
        some ({ p with stop := .holding }.lock .stop)
      else none
  | .stopUnlock =>
      if p.stop = .holding then some { p with stop := .notifying }.unlock else none
  | .stopNotify =>
      if p.stop = .notifying then
        some { p with stop := .returned, worker := fun w => (p.worker w).notified }
      else none
  | _ => none

def workerStep (p : ThreadPool n σ κ) : PoolLabel n σ κ → Option (ThreadPool n σ κ)
  | .workerLock w =>
      if p.worker w = .wantsLock ∧ p.mutex = none then
        some ((p.setWorker w .testing).lock (.worker w))
      else none
  | .workerLoad w =>
      if p.worker w = .testing then
        some (p.setWorker w (if p.stopping then .deciding else .sawRunning))
      else none
  -- The wait releases the mutex and parks in one step.
  | .workerPark w =>
      if p.worker w = .sawRunning ∧ p.tasks = [] then
        some (p.setWorker w .parked).unlock
      else none
  | .workerProceed w =>
      if p.worker w = .sawRunning ∧ p.tasks ≠ [] then some (p.setWorker w .deciding) else none
  | .workerExit w =>
      if p.worker w = .deciding ∧ p.tasks = [] then
        some (p.setWorker w .exited).unlock
      else none
  | .workerTake w =>
      match p.tasks with
      | [] => none
      | task :: _ =>
          if p.worker w = .deciding then some ((p.pop task).setWorker w (.running task)).unlock
          else none
  | .workerFinish w _ =>
      match p.worker w with
      | .running task => some ((p.finish task).setWorker w .wantsLock)
      | _ => none
  | .workerWake w =>
      if p.worker w = .parked then some (p.setWorker w .wantsLock) else none
  | _ => none

def waitStep (p : ThreadPool n σ κ) : PoolLabel n σ κ → Option (ThreadPool n σ κ)
  -- `Start` has returned: `m_threads` is complete.
  | .wait call =>
      if p.wait call = .idle ∧ p.launched = n then some (p.setWait call (.joining 0)) else none
  | .join call =>
      match p.wait call with
      | .joining i => if hi : i < n then some (p.exchangeJoined call ⟨i, hi⟩) else none
      | _ => none
  | .joinReturn call =>
      match p.wait call with
      | .blocked i =>
          if hi : i < n then
            if p.worker ⟨i, hi⟩ = .exited then some (p.setWait call (.joining (i + 1)))
            else none
          else none
      | _ => none
  | .waitReturn call =>
      if p.wait call = .joining n then
        some { p.setWait call .returned with stopped := true }
      else none
  | _ => none

def poolStep (p : ThreadPool n σ κ) (label : PoolLabel n σ κ) : Option (ThreadPool n σ κ) :=
  match label with
  | .start => if p.started then none else some { p with started := true }
  | .launch =>
      if hi : p.launched < n then
        if p.started then
          some { p.setWorker ⟨p.launched, hi⟩ .wantsLock with launched := p.launched + 1 }
        else none
      else none
  | .submit _ _ | .submitLock _ | .submitLoad _ | .submitPush _ | .submitReject _
  | .submitNotify _ _ => p.submitStep label
  | .stop | .stopLock | .stopUnlock | .stopNotify => p.stopStep label
  | .workerLock _ | .workerLoad _ | .workerPark _ | .workerProceed _ | .workerExit _
  | .workerTake _ | .workerFinish _ _ | .workerWake _ => p.workerStep label
  | .wait _ | .join _ | .joinReturn _ | .waitReturn _ => p.waitStep label

/-! ## What a step does

Said once for the proofs: each step with what it finds and what it leaves. -/

inductive PoolMove (p : ThreadPool n σ κ) : PoolLabel n σ κ → ThreadPool n σ κ → Prop where
  | start : PoolMove p .start { p with started := true }
  | launch (hi : p.launched < n) :
      PoolMove p .launch
        { p.setWorker ⟨p.launched, hi⟩ .wantsLock with launched := p.launched + 1 }
  | submit (id : σ) (null : Bool) (hPc : p.submit id = .idle) :
      PoolMove p (.submit id null)
        (p.setSubmit id (if null then .returned false else .wantsLock))
  | submitLock (id : σ) (hPc : p.submit id = .wantsLock) (hFree : p.mutex = none) :
      PoolMove p (.submitLock id) ((p.setSubmit id .loading).lock (.submit id))
  | submitLoad (id : σ) (hPc : p.submit id = .loading) :
      PoolMove p (.submitLoad id)
        (p.setSubmit id (if p.stopping then .rejecting else .pushing))
  | submitPush (id : σ) (hPc : p.submit id = .pushing) :
      PoolMove p (.submitPush id) ((p.push id).setSubmit id .notifying).unlock
  | submitReject (id : σ) (hPc : p.submit id = .rejecting) :
      PoolMove p (.submitReject id) (p.setSubmit id (.returned false)).unlock
  | submitNotify (id : σ) (hPc : p.submit id = .notifying) :
      PoolMove p (.submitNotify id none) (p.setSubmit id (.returned true))
  | submitWake (id : σ) (w : Fin n) (hPc : p.submit id = .notifying)
      (hParked : p.worker w = .parked) :
      PoolMove p (.submitNotify id (some w))
        ((p.setSubmit id (.returned true)).setWorker w .wantsLock)
  | stop (hPc : p.stop = .idle) :
      PoolMove p .stop { p with stop := .wantsLock, stopping := true }
  | stopLock (hPc : p.stop = .wantsLock) (hFree : p.mutex = none) :
      PoolMove p .stopLock ({ p with stop := .holding }.lock .stop)
  | stopUnlock (hPc : p.stop = .holding) :
      PoolMove p .stopUnlock { p with stop := .notifying }.unlock
  | stopNotify (hPc : p.stop = .notifying) :
      PoolMove p .stopNotify
        { p with stop := .returned, worker := fun w => (p.worker w).notified }
  | workerLock (w : Fin n) (hPc : p.worker w = .wantsLock) (hFree : p.mutex = none) :
      PoolMove p (.workerLock w) ((p.setWorker w .testing).lock (.worker w))
  | workerLoad (w : Fin n) (hPc : p.worker w = .testing) :
      PoolMove p (.workerLoad w)
        (p.setWorker w (if p.stopping then .deciding else .sawRunning))
  | workerPark (w : Fin n) (hPc : p.worker w = .sawRunning) (hEmpty : p.tasks = []) :
      PoolMove p (.workerPark w) (p.setWorker w .parked).unlock
  | workerProceed (w : Fin n) (hPc : p.worker w = .sawRunning) (hSome : p.tasks ≠ []) :
      PoolMove p (.workerProceed w) (p.setWorker w .deciding)
  | workerExit (w : Fin n) (hPc : p.worker w = .deciding) (hEmpty : p.tasks = []) :
      PoolMove p (.workerExit w) (p.setWorker w .exited).unlock
  | workerTake (w : Fin n) (task : σ) (rest : List σ) (hPc : p.worker w = .deciding)
      (hTasks : p.tasks = task :: rest) :
      PoolMove p (.workerTake w) ((p.pop task).setWorker w (.running task)).unlock
  | workerFinish (w : Fin n) (threw : Bool) (task : σ) (hPc : p.worker w = .running task) :
      PoolMove p (.workerFinish w threw) ((p.finish task).setWorker w .wantsLock)
  | workerWake (w : Fin n) (hPc : p.worker w = .parked) :
      PoolMove p (.workerWake w) (p.setWorker w .wantsLock)
  | wait (call : κ) (hPc : p.wait call = .idle) (hAll : p.launched = n) :
      PoolMove p (.wait call) (p.setWait call (.joining 0))
  /-- The call loses the exchange. -/
  | joinSkip (call : κ) (i : Fin n) (hPc : p.wait call = .joining i)
      (hJoined : p.joined i = true) :
      PoolMove p (.join call) (p.setWait call (.joining (i + 1)))
  | join (call : κ) (i : Fin n) (hPc : p.wait call = .joining i) :
      PoolMove p (.join call)
        { p.setWait call (.blocked i) with joined := Function.update p.joined i true }
  | joinReturn (call : κ) (i : Fin n) (hPc : p.wait call = .blocked i)
      (hExited : p.worker i = .exited) :
      PoolMove p (.joinReturn call) (p.setWait call (.joining (i + 1)))
  | waitReturn (call : κ) (hPc : p.wait call = .joining n) :
      PoolMove p (.waitReturn call) { p.setWait call .returned with stopped := true }

variable {p p' : ThreadPool n σ κ} {label : PoolLabel n σ κ}

theorem submitStep_move (hStep : p.submitStep label = some p') : PoolMove p label p' := by
  cases label with
  | submit id null =>
      simp only [submitStep, Option.ite_none_right_eq_some, Option.some.injEq] at hStep
      obtain ⟨hPc, rfl⟩ := hStep
      exact .submit id null hPc
  | submitLock id =>
      simp only [submitStep, Option.ite_none_right_eq_some, Option.some.injEq] at hStep
      obtain ⟨⟨hPc, hFree⟩, rfl⟩ := hStep
      exact .submitLock id hPc hFree
  | submitLoad id =>
      simp only [submitStep, Option.ite_none_right_eq_some, Option.some.injEq] at hStep
      obtain ⟨hPc, rfl⟩ := hStep
      exact .submitLoad id hPc
  | submitPush id =>
      simp only [submitStep, Option.ite_none_right_eq_some, Option.some.injEq] at hStep
      obtain ⟨hPc, rfl⟩ := hStep
      exact .submitPush id hPc
  | submitReject id =>
      simp only [submitStep, Option.ite_none_right_eq_some, Option.some.injEq] at hStep
      obtain ⟨hPc, rfl⟩ := hStep
      exact .submitReject id hPc
  | submitNotify id woken =>
      simp only [submitStep, Option.ite_none_right_eq_some] at hStep
      obtain ⟨hPc, hNotify⟩ := hStep
      cases woken <;>
        simp only [notifyOne, Option.ite_none_right_eq_some, Option.some.injEq] at hNotify
      · obtain ⟨-, rfl⟩ := hNotify
        exact .submitNotify id hPc
      · obtain ⟨hParked, rfl⟩ := hNotify
        exact .submitWake id _ hPc hParked
  | _ => cases hStep

theorem stopStep_move (hStep : p.stopStep label = some p') :
    PoolMove p label p' := by
  cases label with
  | stop =>
      simp only [stopStep, Option.ite_none_right_eq_some, Option.some.injEq] at hStep
      obtain ⟨hPc, rfl⟩ := hStep
      exact .stop hPc
  | stopLock =>
      simp only [stopStep, Option.ite_none_right_eq_some, Option.some.injEq] at hStep
      obtain ⟨⟨hPc, hFree⟩, rfl⟩ := hStep
      exact .stopLock hPc hFree
  | stopUnlock =>
      simp only [stopStep, Option.ite_none_right_eq_some, Option.some.injEq] at hStep
      obtain ⟨hPc, rfl⟩ := hStep
      exact .stopUnlock hPc
  | stopNotify =>
      simp only [stopStep, Option.ite_none_right_eq_some, Option.some.injEq] at hStep
      obtain ⟨hPc, rfl⟩ := hStep
      exact .stopNotify hPc
  | _ => cases hStep

theorem workerStep_move (hStep : p.workerStep label = some p') : PoolMove p label p' := by
  cases label with
  | workerLock w =>
      simp only [workerStep, Option.ite_none_right_eq_some, Option.some.injEq] at hStep
      obtain ⟨⟨hPc, hFree⟩, rfl⟩ := hStep
      exact .workerLock w hPc hFree
  | workerLoad w =>
      simp only [workerStep, Option.ite_none_right_eq_some, Option.some.injEq] at hStep
      obtain ⟨hPc, rfl⟩ := hStep
      exact .workerLoad w hPc
  | workerPark w =>
      simp only [workerStep, Option.ite_none_right_eq_some, Option.some.injEq] at hStep
      obtain ⟨⟨hPc, hEmpty⟩, rfl⟩ := hStep
      exact .workerPark w hPc hEmpty
  | workerProceed w =>
      simp only [workerStep, Option.ite_none_right_eq_some, Option.some.injEq] at hStep
      obtain ⟨⟨hPc, hSome⟩, rfl⟩ := hStep
      exact .workerProceed w hPc hSome
  | workerExit w =>
      simp only [workerStep, Option.ite_none_right_eq_some, Option.some.injEq] at hStep
      obtain ⟨⟨hPc, hEmpty⟩, rfl⟩ := hStep
      exact .workerExit w hPc hEmpty
  | workerTake w =>
      simp only [workerStep] at hStep
      split at hStep
      · cases hStep
      · next task rest hTasks =>
        simp only [Option.ite_none_right_eq_some, Option.some.injEq] at hStep
        obtain ⟨hPc, rfl⟩ := hStep
        exact .workerTake w task rest hPc hTasks
  | workerFinish w threw =>
      simp only [workerStep] at hStep
      split at hStep
      · next task hPc =>
        obtain rfl : (p.finish task).setWorker w .wantsLock = p' := by simpa using hStep
        exact .workerFinish w threw task hPc
      · cases hStep
  | workerWake w =>
      simp only [workerStep, Option.ite_none_right_eq_some, Option.some.injEq] at hStep
      obtain ⟨hPc, rfl⟩ := hStep
      exact .workerWake w hPc
  | _ => cases hStep

theorem waitStep_move (hStep : p.waitStep label = some p') : PoolMove p label p' := by
  cases label with
  | wait call =>
      simp only [waitStep, Option.ite_none_right_eq_some, Option.some.injEq] at hStep
      obtain ⟨⟨hPc, hAll⟩, rfl⟩ := hStep
      exact .wait call hPc hAll
  | join call =>
      simp only [waitStep] at hStep
      split at hStep
      · next i hPc =>
        simp only [Option.dite_none_right_eq_some, Option.some.injEq] at hStep
        obtain ⟨hi, rfl⟩ := hStep
        unfold exchangeJoined
        split
        · next hJoined => exact .joinSkip call ⟨i, hi⟩ hPc hJoined
        · exact .join call ⟨i, hi⟩ hPc
      · cases hStep
  | joinReturn call =>
      simp only [waitStep] at hStep
      split at hStep
      · next i hPc =>
        simp only [Option.dite_none_right_eq_some, Option.ite_none_right_eq_some,
          Option.some.injEq] at hStep
        obtain ⟨hi, hExited, rfl⟩ := hStep
        exact .joinReturn call ⟨i, hi⟩ hPc hExited
      · cases hStep
  | waitReturn call =>
      simp only [waitStep, Option.ite_none_right_eq_some, Option.some.injEq] at hStep
      obtain ⟨hPc, rfl⟩ := hStep
      exact .waitReturn call hPc
  | _ => cases hStep

theorem poolStep_move (hStep : p.poolStep label = some p') : PoolMove p label p' := by
  cases label with
  | start =>
      simp only [poolStep, Option.ite_none_left_eq_some, Option.some.injEq] at hStep
      obtain ⟨-, rfl⟩ := hStep
      exact .start
  | launch =>
      simp only [poolStep, Option.dite_none_right_eq_some, Option.ite_none_right_eq_some,
        Option.some.injEq] at hStep
      obtain ⟨hi, -, rfl⟩ := hStep
      exact .launch hi
  | submit _ _ | submitLock _ | submitLoad _ | submitPush _ | submitReject _
  | submitNotify _ _ => exact submitStep_move hStep
  | stop | stopLock | stopUnlock | stopNotify => exact stopStep_move hStep
  | workerLock _ | workerLoad _ | workerPark _ | workerProceed _ | workerExit _
  | workerTake _ | workerFinish _ _ | workerWake _ => exact workerStep_move hStep
  | wait _ | join _ | joinReturn _ | waitReturn _ => exact waitStep_move hStep

end ThreadPool
end SolarNet
