import SolarNet.Lib.Run
import SolarNet.Base.ThreadPoolInvariant

/-!
# Every accepted task runs once

The invariant of the pool holds in every run.  From it: tasks run in the order in which
they were accepted, each one once; when a worker has left, no task is accepted any more;
and when all have left, the accepted tasks have been run.
-/

namespace SolarNet

open Lib

namespace ThreadPool

variable {n : Nat} {σ κ : Type*} {p p' : ThreadPool n σ κ} [DecidableEq σ]

structure PoolInv (p : ThreadPool n σ κ) : Prop where
  exclusive : Exclusive p.mutex p.Holds
  accounts : p.Accounts
  unlaunched : p.Unlaunched
  ending : p.Ending

omit [DecidableEq σ] in
theorem new_poolInv : (new : ThreadPool n σ κ).PoolInv where
  exclusive agent hHolds := by cases agent <;> cases hHolds
  accounts :=
    { fifo := rfl
      nodup := List.nodup_nil
      pushed_iff := fun id => by simp [new, SubmitPc.accepts]
      dequeued_iff := fun id => by simp [new]
      finished_nodup := List.nodup_nil
      unfinished := nofun
      alone := nofun }
  unlaunched _ _ := rfl
  ending :=
    { deciding := nofun
      exited := nofun
      stopping := fun hStop => absurd rfl hStop
      tested := nofun
      awake := nofun }

variable [DecidableEq κ] {label : PoolLabel n σ κ}

theorem PoolMove.inv (hMove : PoolMove p label p') (hInv : p.PoolInv) : p'.PoolInv where
  exclusive := hMove.exclusive hInv.exclusive
  accounts := hMove.accounts hInv.accounts hInv.unlaunched
  unlaunched := hMove.unlaunched hInv.unlaunched
  ending := hMove.ending hInv.ending hInv.exclusive

theorem poolRun_inv {labels : List (PoolLabel n σ κ)}
    (hRun : exec poolStep new labels = some p) : p.PoolInv :=
  exec_invariant PoolInv (fun _ _ _ hInv hStep => (poolStep_move hStep).inv hInv)
    new_poolInv hRun

omit [DecidableEq σ] [DecidableEq κ] in
theorem setWorker_exited {w v : Fin n} (pc : PoolWorkerPc σ) (hPc : p.worker v ≠ .exited)
    (hExited : p.worker w = .exited) : (p.setWorker v pc).worker w = .exited := by
  have hOther : w ≠ v := by
    rintro rfl
    exact hPc hExited
  exact (Function.update_of_ne hOther _ _).trans hExited

/-- A worker that has left does not come back. -/
theorem PoolMove.exited (hMove : PoolMove p label p') (hUnlaunched : p.Unlaunched) {w : Fin n}
    (hExited : p.worker w = .exited) : p'.worker w = .exited := by
  cases hMove with
  | launch hi =>
      have hFresh : p.worker ⟨p.launched, hi⟩ = .notStarted := hUnlaunched _ le_rfl
      exact setWorker_exited .wantsLock (by simp [hFresh]) hExited
  | submitWake id v hPc hParked =>
      exact setWorker_exited (p := p.setSubmit id (.returned true)) .wantsLock
        (by simp [ThreadPool.setSubmit, hParked]) hExited
  | stopNotify hPc =>
      show (p.worker w).notified = .exited
      rw [hExited]
      rfl
  | workerLock v hPc _ => exact setWorker_exited .testing (by simp [hPc]) hExited
  | workerLoad v hPc => exact setWorker_exited _ (by simp [hPc]) hExited
  | workerPark v hPc _ => exact setWorker_exited .parked (by simp [hPc]) hExited
  | workerProceed v hPc _ => exact setWorker_exited _ (by simp [hPc]) hExited
  | workerExit v hPc _ => exact setWorker_exited .exited (by simp [hPc]) hExited
  | workerTake v task rest hPc _ =>
      exact setWorker_exited (p := p.pop task) _ (by simp [ThreadPool.pop, hPc]) hExited
  | workerFinish v _ task hPc =>
      exact setWorker_exited (p := p.finish task) _ (by simp [ThreadPool.finish, hPc]) hExited
  | workerWake v hPc => exact setWorker_exited _ (by simp [hPc]) hExited
  | _ => exact hExited

end ThreadPool

/-- The task was not pushed, and the load of `m_stopping` has not given `false`. -/
def SubmitPc.refused : SubmitPc → Bool
  | .idle | .wantsLock | .loading | .rejecting | .returned false => true
  | _ => false

namespace ThreadPool

variable {n : Nat} {σ κ : Type*} {p p' : ThreadPool n σ κ} [DecidableEq σ]

theorem setSubmit_refused {id other : σ} (pc : SubmitPc) (hPc : pc.refused = true)
    (hOld : (p.submit other).refused = true) :
    ((p.setSubmit id pc).submit other).refused = true := by
  by_cases hOther : other = id
  · subst hOther
    simpa [ThreadPool.setSubmit] using hPc
  · simpa [ThreadPool.setSubmit, hOther] using hOld

theorem setSubmit_other {id other : σ} (pc : SubmitPc)
    (hOther : p.submit other ≠ p.submit id) :
    (p.setSubmit id pc).submit other = p.submit other := by
  have hNe : other ≠ id := by
    rintro rfl
    exact hOther rfl
  exact Function.update_of_ne hNe _ _

variable [DecidableEq κ] {label : PoolLabel n σ κ}

/-- After a worker has left, a call of `Submit` that was not accepted is not accepted any
more: its load of `m_stopping` gives `true`. -/
theorem PoolMove.refused (hMove : PoolMove p label p') (hEnding : p.Ending) {w : Fin n}
    (hExited : p.worker w = .exited) {id : σ} (hRefused : (p.submit id).refused = true) :
    (p'.submit id).refused = true := by
  obtain ⟨hStopping, -, hNone⟩ := hEnding.exited w hExited
  cases hMove with
  | submit call null hPc => exact setSubmit_refused _ (by cases null <;> rfl) hRefused
  | submitLock call hPc _ => exact setSubmit_refused .loading rfl hRefused
  | submitLoad call hPc => exact setSubmit_refused _ (by rw [hStopping]; rfl) hRefused
  | submitPush call hPc => exact absurd hPc (hNone call)
  | submitReject call hPc => exact setSubmit_refused (.returned false) rfl hRefused
  | submitNotify call hPc =>
      have hOther : p.submit id ≠ p.submit call := by
        intro hEq
        rw [hEq, hPc] at hRefused
        cases hRefused
      rw [setSubmit_other _ hOther]
      exact hRefused
  | submitWake call v hPc _ =>
      have hOther : p.submit id ≠ p.submit call := by
        intro hEq
        rw [hEq, hPc] at hRefused
        cases hRefused
      show ((p.setSubmit call (.returned true)).submit id).refused = true
      rw [setSubmit_other _ hOther]
      exact hRefused
  | _ => exact hRefused

/-- A call that has returned is done. -/
theorem PoolMove.returned (hMove : PoolMove p label p') {id : σ} {accepted : Bool}
    (hReturned : p.submit id = .returned accepted) : p'.submit id = .returned accepted := by
  have hOther : ∀ (q : ThreadPool n σ κ) call pc, q.submit = p.submit →
      (∀ b, p.submit call ≠ .returned b) →
        (q.setSubmit call pc).submit id = .returned accepted := by
    intro q call pc hSame hPc
    rw [setSubmit_other, hSame, hReturned]
    rw [hSame, hReturned]
    exact (hPc accepted).symm
  cases hMove with
  | submit call null hPc => exact hOther p call _ rfl (by simp [hPc])
  | submitLock call hPc _ => exact hOther p call .loading rfl (by simp [hPc])
  | submitLoad call hPc => exact hOther p call _ rfl (by simp [hPc])
  | submitPush call hPc => exact hOther (p.push call) call .notifying rfl (by simp [hPc])
  | submitReject call hPc => exact hOther p call (.returned false) rfl (by simp [hPc])
  | submitNotify call hPc => exact hOther p call _ rfl (by simp [hPc])
  | submitWake call v hPc _ => exact hOther p call (.returned true) rfl (by simp [hPc])
  | _ => exact hReturned

/-- The state after a worker has left, up to the end of a run. -/
theorem refused_of_exited {labels : List (PoolLabel n σ κ)} {q : ThreadPool n σ κ}
    (hInv : p.PoolInv) (hMore : exec poolStep p labels = some q) {w : Fin n}
    (hExited : p.worker w = .exited) :
    q.worker w = .exited ∧ ∀ id, (p.submit id).refused = true → (q.submit id).refused = true := by
  have hFinal : q.PoolInv ∧ q.worker w = .exited ∧
      ∀ id, (p.submit id).refused = true → (q.submit id).refused = true := by
    refine exec_invariant (fun q => q.PoolInv ∧ q.worker w = .exited ∧
      ∀ id, (p.submit id).refused = true → (q.submit id).refused = true) ?_
      ⟨hInv, hExited, fun _ hRefused => hRefused⟩ hMore
    rintro q label next ⟨hInv, hExited, hKept⟩ hStep
    have hMove := poolStep_move hStep
    exact ⟨hMove.inv hInv, hMove.exited hInv.unlaunched hExited,
      fun id hRefused => hMove.refused hInv.ending hExited (hKept id hRefused)⟩
  exact hFinal.2

theorem returned_of_run {labels : List (PoolLabel n σ κ)} {q : ThreadPool n σ κ}
    (hMore : exec poolStep p labels = some q) {id : σ} {accepted : Bool}
    (hReturned : p.submit id = .returned accepted) : q.submit id = .returned accepted :=
  exec_invariant (fun q => q.submit id = .returned accepted)
    (fun _ _ _ hKept hStep => (poolStep_move hStep).returned hKept) hReturned hMore

omit [DecidableEq σ] [DecidableEq κ] in
/-- When all workers have left, the queue is empty and nobody runs a task. -/
theorem PoolInv.finished_perm (hInv : p.PoolInv) (hSome : 0 < n)
    (hAll : ∀ w, p.worker w = .exited) : p.finished.Perm p.pushed := by
  have hEmpty : p.tasks = [] := (hInv.ending.exited ⟨0, hSome⟩ (hAll _)).2.1
  have hFifo : p.dequeued = p.pushed := by simpa [hEmpty] using hInv.accounts.fifo
  refine (List.perm_ext_iff_of_nodup hInv.accounts.finished_nodup hInv.accounts.nodup).mpr ?_
  intro id
  rw [← hFifo, hInv.accounts.dequeued_iff]
  simp [hAll]

/-- In every run of a pool, with any number of threads, calls of `Submit` and spurious
wakes, and in every continuation of it: tasks leave the queue in the order in which they
entered it, each one once; a task whose `Submit` returned `false` is never taken; once a
worker has left, the queue is empty and `Submit` is refused to every call that has not
entered its critical section; when all workers have left, the tasks whose `Submit`
returned `true`, or is about to, are the ones that were run; and after `Stop` no worker
is parked. -/
theorem threadPool_runsOnce (requested : Nat)
    (labels more : List (PoolLabel (threadCount requested) σ κ))
    (p q : ThreadPool (threadCount requested) σ κ)
    (hRun : exec poolStep new labels = some p) (hMore : exec poolStep p more = some q) :
    (p.dequeued ++ p.tasks = p.pushed ∧ p.pushed.Nodup) ∧
      (∀ id, p.submit id = .returned false → id ∉ q.dequeued) ∧
      (∀ w, p.worker w = .exited → q.tasks = [] ∧
        ∀ id, p.submit id = .idle ∨ p.submit id = .wantsLock →
          (q.submit id).refused = true) ∧
      ((∀ w, p.worker w = .exited) → p.finished.Perm p.pushed ∧
        ∀ id, id ∈ p.finished ↔ p.submit id = .notifying ∨ p.submit id = .returned true) ∧
      (p.stop = .returned → ∀ w, p.worker w ≠ .parked) := by
  have hInv : p.PoolInv := poolRun_inv hRun
  have hInvQ : q.PoolInv :=
    exec_invariant PoolInv (fun _ _ _ hInv hStep => (poolStep_move hStep).inv hInv) hInv hMore
  refine ⟨⟨hInv.accounts.fifo, hInv.accounts.nodup⟩, ?_, ?_, ?_, hInv.ending.awake⟩
  · intro id hReturned hTaken
    have hLater : q.submit id = .returned false := returned_of_run hMore hReturned
    have hPushed : id ∈ q.pushed := by
      rw [← hInvQ.accounts.fifo]
      exact List.mem_append_left _ hTaken
    rw [hInvQ.accounts.pushed_iff, hLater] at hPushed
    cases hPushed
  · intro w hExited
    obtain ⟨hStill, hKept⟩ := refused_of_exited hInv hMore hExited
    refine ⟨(hInvQ.ending.exited w hStill).2.1, fun id hOutside => hKept id ?_⟩
    rcases hOutside with hPc | hPc <;> rw [hPc] <;> rfl
  · intro hAll
    have hPerm : p.finished.Perm p.pushed := hInv.finished_perm (threadCount_pos requested) hAll
    refine ⟨hPerm, fun id => ?_⟩
    rw [hPerm.mem_iff, hInv.accounts.pushed_iff]
    cases p.submit id with
    | returned accepted => cases accepted <;> simp [SubmitPc.accepts]
    | _ => simp [SubmitPc.accepts]

/-- The only worker of a pool that was asked for no thread. -/
def onlyWorker : Fin (threadCount 0) := ⟨0, threadCount_pos 0⟩

/-- A task is submitted, run while `Stop` goes on, and the worker leaves. -/
def oneTask : List (PoolLabel (threadCount 0) Nat Unit) :=
  [.start, .launch, .workerLock onlyWorker, .workerLoad onlyWorker, .workerPark onlyWorker,
    .submit 7 false, .submitLock 7, .submitLoad 7, .submitPush 7,
    .submitNotify 7 (some onlyWorker), .stop, .workerLock onlyWorker, .workerLoad onlyWorker,
    .workerTake onlyWorker, .stopLock, .stopUnlock, .stopNotify, .workerFinish onlyWorker true,
    .workerLock onlyWorker, .workerLoad onlyWorker, .workerExit onlyWorker]

theorem threadPool_runsOnce_oneTask :
    ∃ p q, exec poolStep new oneTask = some p ∧
      exec poolStep p [.submit 8 false, .submitLock 8, .submitLoad 8, .submitReject 8] = some q ∧
      (∀ w, p.worker w = .exited) ∧ p.finished = [7] ∧ p.stop = .returned ∧
      (∀ w, p.worker w ≠ .parked) ∧ p.submit 8 = .idle ∧ (q.submit 8).refused = true := by
  refine ⟨_, _, rfl, rfl, by decide, by decide, by decide, ?_, by decide, ?_⟩
  · exact (threadPool_runsOnce 0 oneTask [] _ _ rfl rfl).2.2.2.2 (by decide)
  · exact ((threadPool_runsOnce 0 oneTask
      [.submit 8 false, .submitLock 8, .submitLoad 8, .submitReject 8] _ _ rfl rfl).2.2.1
      onlyWorker (by decide)).2 8 (Or.inl (by decide))

end ThreadPool
end SolarNet
