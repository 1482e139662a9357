import SolarNet.Transport.ServerPoolInvariant

/-!
# `Quit` in the queues of the worker loops

`StopThreadPoolInLoop` begins when the server is stopped and its table is empty.  A
connection leaves the table when its `ConnectDestroyed` is posted, so at this moment the
last `ConnectDestroyed` of every worker is in its queue, in front of the `Quit` that is
posted now.  The file states this as an invariant of the queues of the workers and of the
stop of the pool, with the changes that keep it.
-/

namespace SolarNet
namespace ServerPool

variable {κ ω : Type*} {home : κ → ω} {threads : List ω}

/-- No connection is in the table, and none comes any more. -/
def Stopped (server : TcpServer κ) : Prop :=
  server.started = false ∧ server.connections = []

/-- The invariant of a worker. -/
structure WorkerInv (home : κ → ω) (server : TcpServer κ) (worker : ω) (next : PoolWorker κ) :
    Prop where
  job_home : ∀ functor ∈ next.jobs, ∀ conn, functor.conn? = some conn → home conn = worker
  closing_home : ∀ conn, next.closing = some conn → home conn = worker
  /-- No `ConnectDestroyed` comes behind a `Quit`. -/
  quit_last : next.jobs.Pairwise fun first later =>
    first = .quit → ∀ conn, later ≠ .connectDestroyed conn
  quit_clean : next.quit = true → ∀ conn, .connectDestroyed conn ∉ next.jobs
  quit_stopped : .quit ∈ next.jobs ∨ next.quit = true → Stopped server
  exited_quit : next.phase = .exited → next.quit = true

namespace WorkerInv

variable {server server' : TcpServer κ} {worker : ω} {old next : PoolWorker κ}

theorem setServer (hInv : WorkerInv home server worker old)
    (hServer : Stopped server → Stopped server') : WorkerInv home server' worker old :=
  { hInv with quit_stopped := fun hQuit => hServer (hInv.quit_stopped hQuit) }

/-- The worker drops functors, and does not quit. -/
theorem of_sublist (hInv : WorkerInv home server worker old)
    (hJobs : next.jobs.Sublist old.jobs) (hQuit : next.quit = old.quit)
    (hClosing : ∀ conn, next.closing = some conn → home conn = worker)
    (hExited : next.phase = .exited → old.quit = true) :
    WorkerInv home server worker next where
  job_home := fun functor hMem => hInv.job_home functor (hJobs.subset hMem)
  closing_home := hClosing
  quit_last := hInv.quit_last.sublist hJobs
  quit_clean := by
    intro hSet conn hMem
    rw [hQuit] at hSet
    exact hInv.quit_clean hSet conn (hJobs.subset hMem)
  quit_stopped := by
    rw [hQuit]
    rintro (hMem | hSet)
    · exact hInv.quit_stopped (Or.inl (hJobs.subset hMem))
    · exact hInv.quit_stopped (Or.inr hSet)
  exited_quit := by
    rw [hQuit]
    exact hExited

/-- The worker runs `Quit`. -/
theorem setQuit (hInv : WorkerInv home server worker old)
    (hJobs : old.jobs = .quit :: next.jobs) (hClosing : next.closing = old.closing)
    (hSet : next.quit = true) : WorkerInv home server worker next := by
  have hLast := hInv.quit_last
  rw [hJobs, List.pairwise_cons] at hLast
  exact {
    job_home := by
      intro functor hMem
      refine hInv.job_home functor ?_
      rw [hJobs]
      exact List.mem_cons_of_mem _ hMem
    closing_home := by
      rw [hClosing]
      exact hInv.closing_home
    quit_last := hLast.2
    quit_clean := fun _ conn hMem => hLast.1 _ hMem rfl conn rfl
    quit_stopped := by
      intro _
      refine hInv.quit_stopped (Or.inl ?_)
      rw [hJobs]
      exact List.mem_cons_self
    exited_quit := fun _ => hSet }

/-- A functor is posted.  A `ConnectDestroyed` is not posted after a `Quit`. -/
theorem post (hInv : WorkerInv home server worker old) {functor : PoolFunctor κ}
    (hHome : ∀ conn, functor.conn? = some conn → home conn = worker)
    (hDes : ∀ conn, functor = .connectDestroyed conn → ¬ Stopped server)
    (hQuit : functor = .quit → Stopped server) :
    WorkerInv home server worker { old with pending := old.pending ++ [functor] } := by
  have hJobs : { old with pending := old.pending ++ [functor] }.jobs = old.jobs ++ [functor] := by
    simp [PoolWorker.jobs]
  constructor
  · intro other hMem conn hConn
    rw [hJobs, List.mem_append, List.mem_singleton] at hMem
    rcases hMem with hOld | rfl
    · exact hInv.job_home other hOld conn hConn
    · exact hHome conn hConn
  · exact hInv.closing_home
  · rw [hJobs, List.pairwise_append]
    refine ⟨hInv.quit_last, List.pairwise_singleton _ _, ?_⟩
    intro first hFirst later hLater hIsQuit conn hDestroy
    rw [List.mem_singleton.mp hLater] at hDestroy
    rw [hIsQuit] at hFirst
    exact hDes conn hDestroy (hInv.quit_stopped (Or.inl hFirst))
  · intro hSet conn hMem
    rw [hJobs, List.mem_append, List.mem_singleton] at hMem
    rcases hMem with hOld | hNew
    · exact hInv.quit_clean hSet conn hOld
    · exact hDes conn hNew.symm (hInv.quit_stopped (Or.inr hSet))
  · rintro (hMem | hSet)
    · rw [hJobs, List.mem_append, List.mem_singleton] at hMem
      rcases hMem with hOld | hNew
      · exact hInv.quit_stopped (Or.inl hOld)
      · exact hQuit hNew.symm
    · exact hInv.quit_stopped (Or.inr hSet)
  · exact hInv.exited_quit

end WorkerInv

/-! ## The stop of the pool -/

/-- The pool is being stopped, or has been stopped. -/
def stopping (s : ServerPool κ ω) : Bool :=
  match s.mainPc with
  | .quitting _ | .joining _ _ => true
  | _ => !s.server.threadPool

/-- The threads of the pool that have not been joined. -/
def unjoined (threads : List ω) (s : ServerPool κ ω) : List ω :=
  if s.server.threadPool then
    match s.mainPc with
    | .quitting rest => rest
    | .joining worker rest => worker :: rest
    | _ => threads
  else []

structure QuitInv (home : κ → ω) (threads : List ω) (s : ServerPool κ ω) : Prop where
  worker : ∀ worker, WorkerInv home s.server worker (s.workers worker)
  acceptor_eq : s.server.started = false → s.server.acceptor = false
  stopped : s.stopping = true → Stopped s.server
  joined : ∀ worker, worker ∉ s.unjoined threads → (s.workers worker).phase = .exited

theorem running_quitInv (n : Nat) (callbacks : κ → ConnCallbacks) (highWaterMark : κ → Nat)
    (hThreads : ∀ worker, worker ∈ threads) :
    QuitInv home threads (running (n + 1) callbacks highWaterMark : ServerPool κ ω) where
  worker := by
    intro worker
    constructor <;> simp [running, PoolWorker.jobs, WorkerPhase.batch]
  acceptor_eq := by simp [running]
  stopped := by simp [running, stopping]
  joined := by
    intro worker hMem
    exact absurd (hThreads worker) (by simpa [running, unjoined] using hMem)

namespace QuitInv

variable [DecidableEq ω] {s s' : ServerPool κ ω}

theorem setWorker (hInv : QuitInv home threads s) {worker : ω} {next : PoolWorker κ}
    (hWorker : WorkerInv home s.server worker next)
    (hPhase : (s.workers worker).phase = .exited → next.phase = .exited) :
    QuitInv home threads (s.setWorker worker next) := by
  have hUpdate : ∀ other, (s.setWorker worker next).workers other =
      if other = worker then next else s.workers other := by
    intro other
    exact Function.update_apply _ _ _ _
  refine { hInv with worker := ?_, joined := ?_ }
  · intro other
    rw [hUpdate]
    split
    · next hSame =>
      rw [hSame]
      exact hWorker
    · exact hInv.worker other
  · intro other hMem
    rw [hUpdate]
    split
    · next hSame =>
      rw [hSame] at hMem
      exact hPhase (hInv.joined worker hMem)
    · exact hInv.joined other hMem

theorem post (hInv : QuitInv home threads s) {worker : ω} {functor : PoolFunctor κ}
    (hHome : ∀ conn, functor.conn? = some conn → home conn = worker)
    (hDes : ∀ conn, functor = .connectDestroyed conn → ¬ Stopped s.server)
    (hQuit : functor = .quit → Stopped s.server) :
    QuitInv home threads (s.post worker functor) :=
  hInv.setWorker ((hInv.worker worker).post hHome hDes hQuit) id

omit [DecidableEq ω] in
/-- The main loop changes the members of the server, or goes on in its stop. -/
theorem setMain (hInv : QuitInv home threads s) (hWorkers : s'.workers = s.workers)
    (hServer : Stopped s.server → Stopped s'.server)
    (hAcceptor : s'.server.started = false → s'.server.acceptor = false)
    (hStopped : s'.stopping = true → Stopped s'.server)
    (hJoined : ∀ worker, worker ∉ s'.unjoined threads → worker ∉ s.unjoined threads ∨
      (s.workers worker).phase = .exited) : QuitInv home threads s' where
  worker := by
    intro worker
    rw [hWorkers]
    exact (hInv.worker worker).setServer hServer
  acceptor_eq := hAcceptor
  stopped := hStopped
  joined := by
    intro worker hMem
    rw [hWorkers]
    rcases hJoined worker hMem with hOld | hExited
    · exact hInv.joined worker hOld
    · exact hExited

omit [DecidableEq ω] in
/-- `StopThreadPoolInLoop` begins. -/
theorem stopThreadPool (hInv : QuitInv home threads s) (hIdle : s.mainPc = .idle)
    (hStopped : Stopped s.server) : QuitInv home threads (s.stopThreadPool threads) := by
  refine hInv.setMain rfl id hInv.acceptor_eq (fun _ => hStopped) ?_
  intro worker hMem
  left
  by_cases hPool : s.server.threadPool = true
  · simpa [unjoined, ServerPool.stopThreadPool, hIdle, hPool] using hMem
  · simp [unjoined, hPool]

end QuitInv

end ServerPool
end SolarNet
