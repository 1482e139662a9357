import SolarNet.Transport.QuitOrder

/-!
# The worker loops quit after their connections

The result of this file is about every run of a server with a thread pool in which no
connection is closed twice: a `ConnectDestroyed` runs on the loop of its connection, once
at most and after `HandleClose`; no connection is left when its loop executes `Quit`; and
no channel is registered when the pool is stopped.
-/

namespace SolarNet
namespace ServerPool

open Lib

variable {κ ω : Type*} {home : κ → ω} {threads : List ω}

/-- The connections are where they should be, and so is every `Quit`. -/
structure PoolInv [DecidableEq κ] (home : κ → ω) (threads : List ω) (s : ServerPool κ ω) :
    Prop where
  placed : Placed home s
  quit : QuitInv home threads s

variable [DecidableEq κ] [DecidableEq ω]

namespace PoolInv

variable {s s' : ServerPool κ ω}

/-! ## The main loop -/

theorem newConnection (hInv : PoolInv home threads s) {conn : κ}
    (hAcceptor : s.server.acceptor = true) (hCreated : s.created conn = false) :
    PoolInv home threads (s.newConnection home conn) := by
  have hStarted : ¬ Stopped s.server := by
    intro hStopped
    have hClosed := hInv.quit.acceptor_eq hStopped.1
    rw [hAcceptor] at hClosed
    cases hClosed
  have hEnroll : QuitInv home threads (s.enroll conn) := by
    refine hInv.quit.setMain rfl (fun hStopped => absurd hStopped hStarted)
      hInv.quit.acceptor_eq ?_ fun _ hMem => Or.inl hMem
    intro hStopping
    exact absurd (hInv.quit.stopped hStopping) hStarted
  refine ⟨hInv.placed.newConnection hCreated, hEnroll.post ?_ ?_ ?_⟩
  · intro other hOther
    obtain rfl := Option.some.inj hOther
    rfl
  · intro other hOther
    cases hOther
  · intro hOther
    cases hOther

omit [DecidableEq ω] in
theorem beginStop (hInv : PoolInv home threads s) (hIdle : s.mainPc = .idle)
    (order : List κ) : PoolInv home threads (s.beginStop threads order) := by
  unfold ServerPool.beginStop
  split
  · exact hInv
  · split
    · next hEmpty =>
      have hTable : s.server.connections = [] := List.isEmpty_iff.mp hEmpty
      refine ⟨hInv.placed.same (fun _ => rfl) rfl, ?_⟩
      refine QuitInv.stopThreadPool ?_ hIdle ⟨rfl, hTable⟩
      exact hInv.quit.setMain rfl (fun _ => ⟨rfl, hTable⟩) (fun _ => rfl)
        (fun _ => ⟨rfl, hTable⟩) fun _ hMem => Or.inl hMem
    · refine ⟨hInv.placed.same (fun _ => rfl) rfl, ?_⟩
      refine hInv.quit.setMain rfl (fun hStopped => ⟨rfl, hStopped.2⟩) (fun _ => rfl) ?_ ?_
      · intro hStopping
        refine ⟨rfl, (hInv.quit.stopped ?_).2⟩
        simpa [stopping, hIdle] using hStopping
      · intro worker hMem
        simpa [unjoined, hIdle] using Or.inl hMem

/-- `RemoveConnectionInLoop`.  The connection is in the table, so no worker has been told to
quit. -/
theorem removeConnection (hInv : PoolInv home threads s) (hIdle : s.mainPc = .idle) {conn : κ}
    {rest : List (MainFunctor κ)} (hQueue : s.mainQueue = .removeConnection conn :: rest) :
    PoolInv home threads ({ s with mainQueue := rest }.removeConnection home threads conn) := by
  refine ⟨hInv.placed.removeConnection hQueue, ?_⟩
  have hListed : conn ∈ s.server.connections := by
    obtain ⟨phase, hAt⟩ := hInv.placed conn
    obtain rfl := hAt.reported_of_mem (by rw [hQueue]; exact List.mem_cons_self)
    have hCount : s.server.connections.count conn = 1 := congrArg ConnView.listed hAt.view_eq
    exact List.count_pos_iff.mp (by omega)
  have hOpen : ¬ Stopped s.server := by
    intro hStopped
    rw [hStopped.2] at hListed
    cases hListed
  have hBefore : QuitInv home threads ({ s with mainQueue := rest }.post (home conn)
      (.connectDestroyed conn)) := by
    have hPop : QuitInv home threads { s with mainQueue := rest } := { hInv.quit with }
    refine hPop.post ?_ (fun _ _ => hOpen) ?_
    · intro other hOther
      obtain rfl := Option.some.inj hOther
      rfl
    · intro hOther
      cases hOther
  have hErase : QuitInv home threads (({ s with mainQueue := rest }.erase conn).post (home conn)
      (.connectDestroyed conn)) := by
    refine hBefore.setMain rfl (fun hStopped => absurd hStopped hOpen) hInv.quit.acceptor_eq ?_
      fun _ hMem => Or.inl hMem
    intro hStopping
    exact absurd (hInv.quit.stopped hStopping) hOpen
  unfold ServerPool.removeConnection
  split
  · next hLast =>
    rw [Bool.and_eq_true] at hLast
    have hStarted : s.server.started = false := by simpa using hLast.2
    exact hErase.stopThreadPool hIdle ⟨hStarted, List.isEmpty_iff.mp hLast.1⟩
  · exact hErase

theorem runMain (hInv : PoolInv home threads s) {order : List κ}
    (hStep : s.runMain home threads order = some s') : PoolInv home threads s' := by
  unfold ServerPool.runMain at hStep
  split at hStep
  · next rest hIdle hQueue =>
    split at hStep
    · obtain rfl := Option.some.inj hStep
      have hPop : PoolInv home threads { s with mainQueue := rest } := by
        refine ⟨hInv.placed.same (fun conn => ?_) rfl, { hInv.quit with }⟩
        simp [view, hQueue]
      exact hPop.beginStop hIdle order
    · cases hStep
  · next conn rest hIdle hQueue =>
    obtain rfl := Option.some.inj hStep
    exact hInv.removeConnection hIdle hQueue
  · cases hStep

/-- A functor that no phase counts is posted. -/
theorem post (hInv : PoolInv home threads s) {worker : ω} {functor : PoolFunctor κ}
    (hHome : ∀ conn, functor.conn? = some conn → home conn = worker)
    (hEst : ∀ conn, functor ≠ .connectEstablished conn)
    (hDes : ∀ conn, functor ≠ .connectDestroyed conn)
    (hQuit : functor = .quit → Stopped s.server) :
    PoolInv home threads (s.post worker functor) :=
  ⟨hInv.placed.post worker hEst hDes,
    hInv.quit.post hHome (fun conn hFunctor => absurd hFunctor (hDes conn)) hQuit⟩

theorem postForceClose (hInv : PoolInv home threads s) (conn : κ) :
    PoolInv home threads (s.post (home conn) (.forceCloseInLoop conn)) := by
  refine hInv.post ?_ (by simp) (by simp) (by simp)
  intro other hOther
  obtain rfl := Option.some.inj hOther
  rfl

omit [DecidableEq ω] in
/-- The main loop goes on in its stop; the same threads wait to be joined. -/
theorem setPc (hInv : PoolInv home threads s) {pc : PoolPc κ ω}
    (hStopping : { s with mainPc := pc }.stopping = s.stopping)
    (hJoined : { s with mainPc := pc }.unjoined threads = s.unjoined threads) :
    PoolInv home threads { s with mainPc := pc } := by
  refine ⟨hInv.placed.same (fun _ => rfl) rfl, ?_⟩
  refine hInv.quit.setMain rfl id hInv.quit.acceptor_eq ?_ ?_
  · rw [hStopping]
    exact hInv.quit.stopped
  · intro worker hMem
    rw [hJoined] at hMem
    exact Or.inl hMem

theorem proceed (hInv : PoolInv home threads s) (hStep : s.proceed home = some s') :
    PoolInv home threads s' := by
  unfold ServerPool.proceed at hStep
  split at hStep
  case h_1 => cases hStep
  case h_2 hPc =>
      obtain rfl := Option.some.inj hStep
      exact hInv.setPc (by simp [stopping, hPc]) (by simp [unjoined, hPc])
  case h_3 conn rest hPc =>
      obtain rfl := Option.some.inj hStep
      split
      · exact hInv.setPc (by simp [stopping, hPc]) (by simp [unjoined, hPc])
      · exact hInv.setPc (by simp [stopping, hPc]) (by simp [unjoined, hPc])
  case h_4 conn rest hPc =>
      obtain rfl := Option.some.inj hStep
      split
      · exact hInv.setPc (by simp [stopping, hPc]) (by simp [unjoined, hPc])
      · exact hInv.setPc (by simp [stopping, hPc]) (by simp [unjoined, hPc])
  case h_5 conn rest hPc =>
      obtain rfl := Option.some.inj hStep
      refine PoolInv.postForceClose ?_ conn
      exact hInv.setPc (by simp [stopping, hPc]) (by simp [unjoined, hPc])
  case h_6 hPc =>
      obtain rfl := Option.some.inj hStep
      have hStopped := hInv.quit.stopped (by simp [stopping, hPc])
      refine ⟨hInv.placed.same (fun _ => rfl) rfl, ?_⟩
      refine hInv.quit.setMain rfl id hInv.quit.acceptor_eq (fun _ => hStopped) ?_
      intro worker _
      exact Or.inl (by simp [unjoined, hPc])
  case h_7 worker rest hPc =>
      obtain rfl := Option.some.inj hStep
      have hStopped := hInv.quit.stopped (by simp [stopping, hPc])
      refine PoolInv.post ?_ (by simp [PoolFunctor.conn?]) (by simp) (by simp) fun _ => hStopped
      exact hInv.setPc (by simp [stopping, hPc]) (by simp [unjoined, hPc])
  case h_8 worker rest hPc =>
      split at hStep
      · next hExited =>
        obtain rfl := Option.some.inj hStep
        have hStopped := hInv.quit.stopped (by simp [stopping, hPc])
        refine ⟨hInv.placed.same (fun _ => rfl) rfl, ?_⟩
        refine hInv.quit.setMain rfl id hInv.quit.acceptor_eq (fun _ => hStopped) ?_
        intro other hMem
        by_cases hOther : other = worker
        · rw [hOther]
          exact Or.inr hExited
        · left
          by_cases hPool : s.server.threadPool = true
          · simpa [unjoined, hPc, hPool, hOther] using hMem
          · simp [unjoined, hPool]
      · cases hStep

/-! ## The workers -/

/-- A worker changes, and keeps its functors and the connection that it is closing. -/
theorem keepJobs (hInv : PoolInv home threads s) {worker : ω} {next : PoolWorker κ}
    (hJobs : next.jobs = (s.workers worker).jobs)
    (hClosing : next.closing = (s.workers worker).closing)
    (hQuit : next.quit = (s.workers worker).quit)
    (hExited : next.phase = .exited → (s.workers worker).quit = true)
    (hPhase : (s.workers worker).phase ≠ .exited) :
    PoolInv home threads (s.setWorker worker next) := by
  constructor
  · refine hInv.placed.same (fun conn => view_setWorker s ?_ ?_ ?_) rfl
    · rw [hJobs]
    · rw [hJobs]
    · rw [hClosing]
  · refine hInv.quit.setWorker ((hInv.quit.worker worker).of_sublist ?_ hQuit ?_ hExited)
      fun hOld => absurd hOld hPhase
    · rw [hJobs]
    · rw [hClosing]
      exact (hInv.quit.worker worker).closing_home

omit [DecidableEq κ] in
/-- The worker takes its next functor. -/
theorem quitInv_pop (hInv : QuitInv home threads s) {worker : ω} {functor : PoolFunctor κ}
    {rest : List (PoolFunctor κ)}
    (hBatch : (s.workers worker).phase = .functors (functor :: rest)) :
    QuitInv home threads (s.pop worker rest) := by
  refine hInv.setWorker ((hInv.worker worker).of_sublist ?_ rfl
    (hInv.worker worker).closing_home (by simp)) (by simp [hBatch])
  rw [pop_jobs hBatch]
  simp [pop, ServerPool.setWorker]

/-- `HandleClose` of an open connection begins on its loop. -/
theorem beginClose (hInv : PoolInv home threads s) {conn : κ} (hAt : At home s conn .opened)
    (hFree : (s.workers (home conn)).closing = none) :
    PoolInv home threads (s.beginClose (home conn) conn) := by
  refine ⟨hInv.placed.beginClose hAt hFree, ?_⟩
  have hWorker := hInv.quit.worker (home conn)
  have hSet : QuitInv home threads (s.setWorker (home conn)
      { s.workers (home conn) with closing := some conn }) := by
    refine hInv.quit.setWorker (hWorker.of_sublist (List.Sublist.refl _) rfl ?_
      hWorker.exited_quit) id
    intro other hOther
    obtain rfl := Option.some.inj hOther
    rfl
  exact { hSet with }

theorem endClose (hInv : PoolInv home threads s) {worker : ω} {conn : κ}
    (hClosing : (s.workers worker).closing = some conn) :
    PoolInv home threads (s.endClose worker conn) := by
  have hWorker := hInv.quit.worker worker
  obtain rfl := hWorker.closing_home conn hClosing
  refine ⟨hInv.placed.endClose hClosing, ?_⟩
  have hSet : QuitInv home threads (s.setWorker (home conn)
      { s.workers (home conn) with closing := none }) := by
    refine hInv.quit.setWorker (hWorker.of_sublist (List.Sublist.refl _) rfl ?_
      hWorker.exited_quit) id
    intro other hOther
    cases hOther
  exact { hSet with }

/-- The worker runs a functor. -/
theorem runFunctor (hInv : PoolInv home threads s) {worker : ω} {functor : PoolFunctor κ}
    {rest : List (PoolFunctor κ)} (hBatch : (s.workers worker).phase = .functors (functor :: rest))
    (hFree : (s.workers worker).closing = none) :
    PoolInv home threads ((s.pop worker rest).runFunctor worker functor) := by
  have hJobs := pop_jobs hBatch
  have hHome : ∀ conn, functor.conn? = some conn → home conn = worker := by
    refine (hInv.quit.worker worker).job_home functor ?_
    rw [hJobs]
    exact List.mem_cons_self
  have hQuit := quitInv_pop hInv.quit hBatch
  cases functor with
  | connectEstablished conn =>
      obtain rfl := hHome conn rfl
      exact ⟨hInv.placed.runEstablished hBatch, { hQuit with }⟩
  | connectDestroyed conn =>
      obtain rfl := hHome conn rfl
      exact ⟨hInv.placed.runDestroyed hBatch, { hQuit with }⟩
  | forceCloseInLoop conn =>
      obtain rfl := hHome conn rfl
      have hPop : PoolInv home threads (s.pop (home conn) rest) :=
        ⟨hInv.placed.pop hBatch (by simp) (by simp), hQuit⟩
      show PoolInv home threads (if _ then _ else _)
      split
      · next hLive =>
        obtain ⟨phase, hAt⟩ := hPop.placed conn
        obtain rfl := hAt.opened_of_live hLive
        refine hPop.beginClose hAt ?_
        simpa [pop, ServerPool.setWorker] using hFree
      · exact hPop
  | quit =>
      refine ⟨?_, ?_⟩
      · refine (hInv.placed.pop hBatch (by simp) (by simp)).same (fun conn => ?_) rfl
        exact view_setWorker _ rfl rfl rfl
      · have hSet : QuitInv home threads (s.setWorker worker
            { s.workers worker with phase := .functors rest, quit := true }) := by
          refine hInv.quit.setWorker ((hInv.quit.worker worker).setQuit ?_ rfl rfl)
            (by simp [hBatch])
          rw [PoolWorker.jobs, hBatch]
          rfl
        have hTwice : (s.pop worker rest).runFunctor worker .quit =
            s.setWorker worker { s.workers worker with phase := .functors rest, quit := true } := by
          simp [ServerPool.runFunctor, pop, ServerPool.setWorker]
        rw [hTwice]
        exact hSet
  | user => exact ⟨hInv.placed.pop hBatch (by simp) (by simp), hQuit⟩

end PoolInv

/-! ## Runs -/

theorem closes_le_beginClose (s : ServerPool κ ω) (worker : ω) (closing conn : κ) :
    s.closes conn ≤ (s.beginClose worker closing).closes conn := by
  by_cases hConn : conn = closing
  · simp [beginClose, hConn]
  · simp [beginClose, hConn]

omit [DecidableEq κ] [DecidableEq ω] in
/-- The main loop does not call `HandleClose` of a connection of a worker. -/
theorem beginStop_closes (s : ServerPool κ ω) (order : List κ) :
    (s.beginStop threads order).closes = s.closes := by
  unfold beginStop
  split_ifs <;> rfl

theorem removeConnection_closes (s : ServerPool κ ω) (conn : κ) :
    (s.removeConnection home threads conn).closes = s.closes := by
  unfold removeConnection
  split <;> rfl

/-- The number of calls of `HandleClose` does not decrease. -/
theorem step_closes {s s' : ServerPool κ ω} {label : LoopsLabel κ ω}
    (hStep : s.step home threads label = some s') (conn : κ) :
    s.closes conn ≤ s'.closes conn := by
  have hSame : s'.closes = s.closes → s.closes conn ≤ s'.closes conn := fun hEq => by rw [hEq]
  cases label with
  | stop | queueInLoop worker =>
      obtain rfl := Option.some.inj hStep
      exact le_rfl
  | newConnection _ | forceClose _ | swap _ | testQuit _ | act _ _ _ =>
      simp only [step] at hStep
      split at hStep
      · obtain rfl := Option.some.inj hStep
        exact hSame rfl
      · cases hStep
  | stopHere order =>
      simp only [step] at hStep
      split at hStep
      · obtain rfl := Option.some.inj hStep
        exact hSame (beginStop_closes s order)
      · cases hStep
  | runMain order =>
      simp only [step, runMain] at hStep
      refine hSame ?_
      split at hStep
      · split at hStep
        · obtain rfl := Option.some.inj hStep
          exact beginStop_closes _ order
        · cases hStep
      · obtain rfl := Option.some.inj hStep
        exact removeConnection_closes _ _
      · cases hStep
  | proceed =>
      simp only [step, proceed] at hStep
      refine hSame ?_
      split at hStep
      case h_1 => cases hStep
      case h_8 =>
          split at hStep
          · obtain rfl := Option.some.inj hStep
            rfl
          · cases hStep
      all_goals
        obtain rfl := Option.some.inj hStep
        rfl
  | run worker =>
      simp only [step, run] at hStep
      split at hStep
      · next functor rest _ _ =>
        obtain rfl := Option.some.inj hStep
        cases functor with
        | forceCloseInLoop closing =>
            show s.closes conn ≤ ServerPool.closes (if _ then _ else _) conn
            split
            · exact closes_le_beginClose (s.pop worker rest) worker closing conn
            · exact le_rfl
        | _ => exact le_rfl
      · cases hStep
  | handleClose worker closing =>
      simp only [step] at hStep
      split at hStep
      · obtain rfl := Option.some.inj hStep
        exact closes_le_beginClose s worker closing conn
      · cases hStep
  | postRemove worker =>
      simp only [step] at hStep
      split at hStep
      · obtain rfl := Option.some.inj hStep
        exact hSame rfl
      · cases hStep

/-- Every step keeps the invariant, as long as no connection is closed twice. -/
theorem step_poolInv {s s' : ServerPool κ ω} {label : LoopsLabel κ ω}
    (hInv : PoolInv home threads s) (hOnce : ∀ conn, s'.closes conn ≤ 1)
    (hStep : s.step home threads label = some s') : PoolInv home threads s' := by
  cases label with
  | newConnection conn =>
      simp only [step] at hStep
      split at hStep
      · next hGuard =>
        obtain rfl := Option.some.inj hStep
        exact hInv.newConnection hGuard.2.1 hGuard.2.2
      · cases hStep
  | stop =>
      obtain rfl := Option.some.inj hStep
      refine ⟨hInv.placed.same (fun conn => ?_) rfl, { hInv.quit with }⟩
      simp [view]
  | stopHere order =>
      simp only [step] at hStep
      split at hStep
      · next hGuard =>
        obtain rfl := Option.some.inj hStep
        exact hInv.beginStop hGuard.1 order
      · cases hStep
  | runMain order => exact hInv.runMain hStep
  | proceed => exact hInv.proceed hStep
  | forceClose conn =>
      simp only [step] at hStep
      split at hStep
      · obtain rfl := Option.some.inj hStep
        exact hInv.postForceClose conn
      · cases hStep
  | queueInLoop worker =>
      obtain rfl := Option.some.inj hStep
      exact hInv.post (by simp [PoolFunctor.conn?]) (by simp) (by simp) (by simp)
  | swap worker =>
      simp only [step] at hStep
      split at hStep
      · next hGuard =>
        obtain rfl := Option.some.inj hStep
        refine hInv.keepJobs ?_ rfl rfl (by simp) (by simp [hGuard.1])
        simp [PoolWorker.jobs, WorkerPhase.batch, hGuard.1]
      · cases hStep
  | run worker =>
      simp only [step, run] at hStep
      split at hStep
      · next functor rest hBatch hFree =>
        obtain rfl := Option.some.inj hStep
        exact hInv.runFunctor hBatch hFree
      · cases hStep
  | testQuit worker =>
      simp only [step] at hStep
      split at hStep
      · next hGuard =>
        obtain rfl := Option.some.inj hStep
        refine hInv.keepJobs ?_ rfl rfl ?_ (by simp [hGuard.1])
        · split <;> simp [PoolWorker.jobs, WorkerPhase.batch, hGuard.1]
        · intro hExited
          by_contra hQuit
          simp [hQuit] at hExited
      · cases hStep
  | handleClose worker conn =>
      simp only [step] at hStep
      split at hStep
      · next hGuard =>
        obtain ⟨hFree, rfl, hState⟩ := hGuard
        obtain rfl := Option.some.inj hStep
        have hFirst : s.closes conn = 0 := by
          have hNext := hOnce conn
          simp only [beginClose, Function.update_self] at hNext
          omega
        obtain ⟨phase, hAt⟩ := hInv.placed conn
        obtain rfl := hAt.opened_of_closes hFirst hState
        exact hInv.beginClose hAt (PoolWorker.closing_of_free hFree)
      · cases hStep
  | postRemove worker =>
      simp only [step] at hStep
      split at hStep
      · next conn hClosing =>
        obtain rfl := Option.some.inj hStep
        exact hInv.endClose hClosing
      · cases hStep
  | act worker conn act =>
      simp only [step] at hStep
      split at hStep
      · obtain rfl := Option.some.inj hStep
        exact ⟨hInv.placed.perform conn act, { hInv.quit with }⟩
      · cases hStep

theorem run_poolInv {s s' : ServerPool κ ω} {labels : List (LoopsLabel κ ω)}
    (hInv : PoolInv home threads s) (hRun : exec (step home threads) s labels = some s')
    (hOnce : ∀ conn, s'.closes conn ≤ 1) : PoolInv home threads s' := by
  refine exec_invariant (fun s => (∀ conn, s.closes conn ≤ 1) → PoolInv home threads s) ?_
    (fun _ => hInv) hRun hOnce
  intro s label next hKeep hStep hNext
  refine step_poolInv (hKeep fun conn => ?_) hNext hStep
  exact (step_closes hStep conn).trans (hNext conn)

/-! ## The connections of a loop that quits -/

/-- `ConnectDestroyed` was executed on the loop of the connection only, at most once, and
after `HandleClose` began. -/
def DestroyedAtHome (home : κ → ω) (s : ServerPool κ ω) : Prop :=
  ∀ conn, s.destroyedOn conn = [] ∨ s.destroyedOn conn = [home conn] ∧ 0 < s.closes conn

/-- When `Quit` is the next functor of a worker, the connections that were ever assigned to
it are destroyed. -/
def QuitsEmpty (home : κ → ω) (s : ServerPool κ ω) : Prop :=
  ∀ worker rest, (s.workers worker).phase = .functors (.quit :: rest) →
    ∀ conn, s.created conn = true → home conn = worker → s.destroyedOn conn = [worker]

/-- When `EventLoopThreadPool::Stop` returns, and from then on, no channel of a connection
is registered. -/
def NoneRegistered (s : ServerPool κ ω) : Prop :=
  s.mainPc = .quitting [] ∨ s.server.threadPool = false →
    ∀ conn, (s.conns conn).channel.index = .kNew ∧ (s.conns conn).channel.mapped = false ∧
      (s.conns conn).channel.interest = none

namespace PoolInv

variable {s : ServerPool κ ω}

omit [DecidableEq ω] in
theorem destroyedAtHome (hInv : PoolInv home threads s) : DestroyedAtHome home s := by
  intro conn
  obtain ⟨phase, hAt⟩ := hInv.placed conn
  have hDestroyed : s.destroyedOn conn = (phase.view (home conn)).destroyedOn :=
    congrArg ConnView.destroyedOn hAt.view_eq
  have hCloses : s.closes conn = (phase.view (home conn)).closes :=
    congrArg ConnView.closes hAt.view_eq
  cases phase with
  | destroyed => exact Or.inr ⟨hDestroyed, by rw [hCloses]; exact Nat.one_pos⟩
  | _ => exact Or.inl hDestroyed

omit [DecidableEq ω] in
theorem quitsEmpty (hInv : PoolInv home threads s) : QuitsEmpty home s := by
  intro worker rest hPhase conn hCreated hHome
  subst hHome
  have hWorker := hInv.quit.worker (home conn)
  have hJobs : (s.workers (home conn)).jobs =
      .quit :: (rest ++ (s.workers (home conn)).pending) := by
    rw [PoolWorker.jobs, hPhase]
    rfl
  have hStopped := hWorker.quit_stopped (Or.inl (by rw [hJobs]; exact List.mem_cons_self))
  have hNone : .connectDestroyed conn ∉ (s.workers (home conn)).jobs := by
    have hLast := hWorker.quit_last
    rw [hJobs, List.pairwise_cons] at hLast
    rw [hJobs, List.mem_cons, not_or]
    exact ⟨by simp, fun hMem => hLast.1 _ hMem rfl conn rfl⟩
  obtain ⟨phase, hAt⟩ := hInv.placed conn
  obtain rfl := hAt.destroyed_of_empty hCreated hStopped.2 hNone
  exact congrArg ConnView.destroyedOn hAt.view_eq

omit [DecidableEq ω] in
theorem noneRegistered (hInv : PoolInv home threads s) : NoneRegistered s := by
  intro hPool conn
  have hDetached : (s.conns conn).Detached := by
    have hExited : (s.workers (home conn)).phase = .exited := by
      refine hInv.quit.joined _ ?_
      rcases hPool with hPc | hPool
      · simp [unjoined, hPc]
      · simp [unjoined, hPool]
    have hStopped : Stopped s.server := by
      refine hInv.quit.stopped ?_
      rcases hPool with hPc | hPool
      · simp [stopping, hPc]
      · unfold stopping
        split <;> simp [hPool]
    have hNone := (hInv.quit.worker (home conn)).quit_clean
      ((hInv.quit.worker (home conn)).exited_quit hExited) conn
    obtain ⟨phase, hAt⟩ := hInv.placed conn
    by_cases hCreated : s.created conn = true
    · obtain rfl := hAt.destroyed_of_empty hCreated hStopped.2 hNone
      exact hAt.fits.1
    · obtain rfl := hAt.fresh_of_created (Bool.eq_false_of_not_eq_true hCreated)
      exact hAt.fits.1
  refine ⟨hDetached.index_eq, hDetached.mapped_eq, ?_⟩
  rw [hDetached.registered.interest_eq, hDetached.index_eq]
  rfl

end PoolInv

/-- On a server with `n + 1` worker loops, in every interleaving in which `HandleClose` runs
at most once for each connection, a connection is destroyed on its own loop, once at most
and after its close; a loop that executes `Quit` has no connection left; and no channel is
registered when the pool is stopped. -/
theorem destroyed_before_quit (n : Nat) (home : κ → Fin (n + 1))
    (callbacks : κ → ConnCallbacks) (highWaterMark : κ → Nat)
    (labels : List (LoopsLabel κ (Fin (n + 1)))) (s : ServerPool κ (Fin (n + 1)))
    (hRun : exec (step home (List.finRange (n + 1)))
      (running (n + 1) callbacks highWaterMark) labels = some s)
    (hOnce : ∀ conn, s.closes conn ≤ 1) :
    DestroyedAtHome home s ∧ QuitsEmpty home s ∧ NoneRegistered s := by
  have hStart : PoolInv home (List.finRange (n + 1)) (running (n + 1) callbacks highWaterMark) :=
    ⟨running_placed _ _ _, running_quitInv n _ _ List.mem_finRange⟩
  have hInv := run_poolInv hStart hRun hOnce
  exact ⟨hInv.destroyedAtHome, hInv.quitsEmpty, hInv.noneRegistered⟩

/-- The connections of two loops. -/
def onTwoLoops : Bool → Fin 2
  | false => 0
  | true => 1

/-- One connection shuts down and is closed by its peer, the other is closed by the stop.
Then the loops quit. -/
def stopTwoLoops : List (LoopsLabel Bool (Fin 2)) :=
  [.newConnection false, .newConnection true, .swap 0, .run 0, .testQuit 0, .swap 1, .run 1,
    .testQuit 1, .act 0 false .shutdownInLoop, .handleClose 0 false, .postRemove 0, .stop,
    .runMain [], .runMain [true], .proceed, .proceed, .proceed, .swap 0, .run 0, .testQuit 0,
    .swap 1, .run 1, .postRemove 1, .testQuit 1, .runMain [], .proceed, .swap 0, .run 0,
    .testQuit 0, .proceed, .proceed, .swap 1, .run 1, .run 1, .testQuit 1, .proceed]

def serverCallbacks : Bool → ConnCallbacks := fun _ => ⟨true, true, false, false, .server⟩

theorem destroyed_before_quit_twoLoops :
    ∃ s, exec (step onTwoLoops (List.finRange 2))
        (running 2 serverCallbacks fun _ => 65536) stopTwoLoops = some s ∧
      s.mainPc = .quitting [] ∧ (∀ conn, s.created conn = true) ∧
      (∀ conn, s.destroyedOn conn = [onTwoLoops conn]) ∧
      DestroyedAtHome onTwoLoops s ∧ QuitsEmpty onTwoLoops s ∧ NoneRegistered s :=
  ⟨_, rfl, rfl, by decide, by decide,
    destroyed_before_quit 1 onTwoLoops serverCallbacks (fun _ => 65536) stopTwoLoops _ rfl
      (by decide)⟩

end ServerPool
end SolarNet
