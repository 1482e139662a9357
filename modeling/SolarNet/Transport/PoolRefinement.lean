import SolarNet.Transport.ServerPoolInvariant
import SolarNet.Transport.ServerStop

/-!
# The thread pool refines the worker loops

`ServerPool` cuts a server with a thread pool finer than `ServerLoops`: it has the
connections with their channels where `ServerLoops` has their states, the batches of a
worker loop where `ServerLoops` has one queue, and `StopThreadPoolInLoop` goes through the
threads where `ServerLoops` is done at once.  `ServerPool.loops` forgets the difference.
The result is that every run of the pool becomes a run of the loops in this way, so that what
`StopInLoop` leaves behind is known of the pool as well.
-/

namespace SolarNet

open Lib

variable {κ ω : Type*}

/-! ## The view -/

/-- The functor as a worker loop of `ServerLoops` has it. -/
def PoolFunctor.workerFunctor? : PoolFunctor κ → Option (WorkerFunctor κ)
  | .connectEstablished conn => some (.connectEstablished conn)
  | .forceCloseInLoop conn => some (.forceCloseInLoop conn)
  | .connectDestroyed conn => some (.connectDestroyed conn)
  | .quit | .user => none

/-- `StopThreadPoolInLoop` waits for its threads. -/
def PoolPc.stopsPool : PoolPc κ ω → Bool
  | .quitting _ | .joining _ _ => true
  | .idle | .closing _ | .secondTest _ _ | .posting _ _ => false

def PoolPc.mainPc : PoolPc κ ω → MainPc κ
  | .idle | .quitting _ | .joining _ _ => .idle
  | .closing rest => .closing rest
  | .secondTest conn rest => .secondTest conn rest
  | .posting conn rest => .posting conn rest

def PoolWorker.workerPc (worker : PoolWorker κ) : WorkerPc κ :=
  worker.closing.elim .idle .closing

/-- What is left to be run. -/
def PoolWorker.workerQueue (worker : PoolWorker κ) : List (WorkerFunctor κ) :=
  worker.jobs.filterMap PoolFunctor.workerFunctor?

theorem PoolWorker.workerPc_eq_idle {worker : PoolWorker κ} (hClosing : worker.closing = none) :
    worker.workerPc = .idle := by
  rw [PoolWorker.workerPc, hClosing, Option.elim_none]

theorem PoolWorker.closing_of_workerPc {worker : PoolWorker κ} {conn : κ}
    (hPc : worker.workerPc = .closing conn) : worker.closing = some conn := by
  unfold PoolWorker.workerPc at hPc
  cases hClosing : worker.closing with
  | none => simp [hClosing] at hPc
  | some other => simpa [hClosing] using hPc

theorem PoolWorker.mem_jobs_of_forceClose {worker : PoolWorker κ} {conn : κ}
    (hMem : .forceCloseInLoop conn ∈ worker.workerQueue) :
    .forceCloseInLoop conn ∈ worker.jobs := by
  obtain ⟨functor, hJob, hFunctor⟩ := List.mem_filterMap.mp hMem
  cases functor with
  | forceCloseInLoop other =>
      obtain rfl : other = conn := by simpa [PoolFunctor.workerFunctor?] using hFunctor
      exact hJob
  | connectEstablished other | connectDestroyed other | quit | user =>
      simp [PoolFunctor.workerFunctor?] at hFunctor

namespace ServerPool

/-- The stop of the pool counts as done when it begins. -/
def loops (s : ServerPool κ ω) : ServerLoops κ ω where
  server := if s.mainPc.stopsPool then s.server.stopThreadPoolInLoop else s.server
  states := fun conn => (s.conns conn).state
  created := s.created
  mainQueue := s.mainQueue
  mainPc := s.mainPc.mainPc
  workerQueues := fun worker => (s.workers worker).workerQueue
  workerPcs := fun worker => (s.workers worker).workerPc

variable [DecidableEq κ] [DecidableEq ω]

omit [DecidableEq κ] [DecidableEq ω] in
theorem loops_running (threadNum : Nat) (callbacks : κ → ConnCallbacks)
    (highWaterMark : κ → Nat) :
    (running threadNum callbacks highWaterMark : ServerPool κ ω).loops =
      ServerLoops.running threadNum := rfl

omit [DecidableEq κ] in
theorem loops_setWorker (s : ServerPool κ ω) (worker : ω) (next : PoolWorker κ) :
    (s.setWorker worker next).loops =
      { s.loops with
        workerQueues := Function.update s.loops.workerQueues worker next.workerQueue
        workerPcs := Function.update s.loops.workerPcs worker next.workerPc } := by
  unfold loops setWorker
  congr 1
  · funext other
    by_cases hOther : other = worker
    · simp [hOther]
    · simp [hOther]
  · funext other
    by_cases hOther : other = worker
    · simp [hOther]
    · simp [hOther]

omit [DecidableEq κ] in
/-- The worker moves without a trace in `ServerLoops`. -/
theorem loops_setWorker_same {s : ServerPool κ ω} {worker : ω} {next : PoolWorker κ}
    (hQueue : next.workerQueue = (s.workers worker).workerQueue)
    (hPc : next.workerPc = (s.workers worker).workerPc) :
    (s.setWorker worker next).loops = s.loops := by
  rw [loops_setWorker, hQueue, hPc]
  show { s.loops with
    workerQueues := Function.update s.loops.workerQueues worker (s.loops.workerQueues worker)
    workerPcs := Function.update s.loops.workerPcs worker (s.loops.workerPcs worker) } = s.loops
  rw [Function.update_eq_self, Function.update_eq_self]

omit [DecidableEq ω] in
theorem loops_setConn (s : ServerPool κ ω) (conn : κ) (c : TcpConnection) :
    (s.setConn conn c).loops = s.loops.setState conn c.state := by
  unfold loops setConn ServerLoops.setState
  congr 1
  funext other
  by_cases hOther : other = conn
  · simp [hOther]
  · simp [hOther]

omit [DecidableEq ω] in
/-- The state of the connection is kept. -/
theorem loops_setConn_same {s : ServerPool κ ω} {conn : κ} {c : TcpConnection}
    (hState : c.state = (s.conns conn).state) : (s.setConn conn c).loops = s.loops := by
  rw [loops_setConn, hState]
  show { s.loops with states := Function.update s.loops.states conn (s.loops.states conn) } =
    s.loops
  rw [Function.update_eq_self]

omit [DecidableEq κ] in
theorem loops_post (s : ServerPool κ ω) (worker : ω) {functor : PoolFunctor κ}
    {workerFunctor : WorkerFunctor κ} (hFunctor : functor.workerFunctor? = some workerFunctor) :
    (s.post worker functor).loops = s.loops.postWorker worker workerFunctor := by
  unfold post
  rw [loops_setWorker]
  have hPc : Function.update s.loops.workerPcs worker
      (PoolWorker.workerPc { s.workers worker with
        pending := (s.workers worker).pending ++ [functor] }) = s.loops.workerPcs :=
    Function.update_eq_self worker _
  rw [hPc]
  simp [ServerLoops.postWorker, loops, PoolWorker.workerQueue, PoolWorker.jobs, hFunctor]

omit [DecidableEq κ] in
/-- `Quit` and the functors of the user are not in `ServerLoops`. -/
theorem loops_post_none (s : ServerPool κ ω) (worker : ω) {functor : PoolFunctor κ}
    (hFunctor : functor.workerFunctor? = none) : (s.post worker functor).loops = s.loops := by
  refine loops_setWorker_same ?_ rfl
  simp [PoolWorker.workerQueue, PoolWorker.jobs, hFunctor]

/-! ## The functions -/

theorem loops_beginClose (s : ServerPool κ ω) (worker : ω) (conn : κ) :
    (s.beginClose worker conn).loops = s.loops.beginClose worker conn := by
  have hView : (s.beginClose worker conn).loops =
      ((s.setConn conn (s.conns conn).beginClose).setWorker worker
        { s.workers worker with closing := some conn }).loops := rfl
  rw [hView, loops_setWorker, loops_setConn]
  show { s.loops.setState conn .kDisconnected with
    workerQueues := Function.update s.loops.workerQueues worker (s.loops.workerQueues worker)
    workerPcs := Function.update s.loops.workerPcs worker (.closing conn) } = _
  rw [Function.update_eq_self]
  rfl

theorem loops_endClose (s : ServerPool κ ω) (worker : ω) (conn : κ) :
    (s.endClose worker conn).loops =
      { s.loops with
        mainQueue := s.loops.mainQueue ++ [.removeConnection conn]
        workerPcs := Function.update s.loops.workerPcs worker .idle } := by
  let closed := s.setWorker worker { s.workers worker with closing := none }
  have hView : (s.endClose worker conn).loops =
      { (closed.setConn conn (s.conns conn).report).loops with
        mainQueue := s.loops.mainQueue ++ [.removeConnection conn] } := rfl
  have hState : (s.conns conn).report.state = (closed.conns conn).state :=
    TcpConnection.report_state _
  rw [hView, loops_setConn_same hState, loops_setWorker]
  show { s.loops with
    mainQueue := s.loops.mainQueue ++ [MainFunctor.removeConnection conn]
    workerQueues := Function.update s.loops.workerQueues worker (s.loops.workerQueues worker)
    workerPcs := Function.update s.loops.workerPcs worker .idle } = _
  rw [Function.update_eq_self]

section Run

variable {s : ServerPool κ ω} {worker : ω} {functor : PoolFunctor κ}
  {rest : List (PoolFunctor κ)}

omit [DecidableEq κ] in
theorem loops_pop (hBatch : (s.workers worker).phase = .functors (functor :: rest)) :
    ∃ queue, s.loops.workerQueues worker = functor.workerFunctor?.toList ++ queue ∧
      (s.pop worker rest).loops =
        { s.loops with workerQueues := Function.update s.loops.workerQueues worker queue } := by
  refine ⟨((s.pop worker rest).workers worker).workerQueue, ?_, ?_⟩
  · show (s.workers worker).workerQueue = _
    unfold PoolWorker.workerQueue
    rw [pop_jobs hBatch, List.filterMap_cons]
    cases functor.workerFunctor? <;> rfl
  · have hQueue : ((s.pop worker rest).workers worker).workerQueue =
        PoolWorker.workerQueue { s.workers worker with phase := .functors rest } := by
      simp [pop, setWorker]
    have hPc : Function.update s.loops.workerPcs worker
        (PoolWorker.workerPc { s.workers worker with phase := .functors rest }) =
          s.loops.workerPcs := Function.update_eq_self worker _
    rw [hQueue, pop, loops_setWorker, hPc]

/-- The worker runs a functor. -/
theorem loops_run {s' : ServerPool κ ω} (hStep : s.run worker = some s') :
    s'.loops = s.loops ∨ s.loops.runWorker worker = some s'.loops := by
  unfold run at hStep
  split at hStep
  · next functor rest hBatch hClosing =>
    obtain rfl := Option.some.inj hStep
    obtain ⟨queue, hQueue, hPop⟩ := loops_pop hBatch
    have hPc : s.loops.workerPcs worker = .idle := PoolWorker.workerPc_eq_idle hClosing
    cases functor with
    | connectEstablished conn =>
        right
        have hRun : ((s.pop worker rest).runFunctor worker (.connectEstablished conn)).loops =
            (s.pop worker rest).loops.setState conn .kConnected := by
          rw [runFunctor, loops_setConn, TcpConnection.connectEstablished,
            TcpConnection.report_state]
        rw [hRun, hPop]
        simp [ServerLoops.runWorker, hPc, hQueue, PoolFunctor.workerFunctor?]
    | forceCloseInLoop conn =>
        right
        have hRun : ((s.pop worker rest).runFunctor worker (.forceCloseInLoop conn)).loops =
            if (s.loops.states conn).live then (s.pop worker rest).loops.beginClose worker conn
            else (s.pop worker rest).loops := by
          show (if (s.conns conn).state.live then _ else _ : ServerPool κ ω).loops = _
          rw [apply_ite loops, loops_beginClose]
          rfl
        rw [hRun, hPop]
        simp [ServerLoops.runWorker, hPc, hQueue, PoolFunctor.workerFunctor?]
    | connectDestroyed conn =>
        right
        have hRun : ((s.pop worker rest).runFunctor worker (.connectDestroyed conn)).loops =
            if s.loops.states conn = .kConnected then
              (s.pop worker rest).loops.setState conn .kDisconnected
            else (s.pop worker rest).loops := by
          have hState : (s.conns conn).connectDestroyed.leavePoller.state =
              if (s.conns conn).state = .kConnected then .kDisconnected
              else (s.conns conn).state := by
            rw [TcpConnection.leavePoller_state, TcpConnection.connectDestroyed_state]
          show ((s.pop worker rest).setConn conn _).loops =
            if (s.conns conn).state = _ then _ else _
          split
          · next hConnected =>
            rw [if_pos hConnected] at hState
            rw [loops_setConn, pop_conns, hState]
          · next hNot =>
            rw [if_neg hNot] at hState
            exact loops_setConn_same hState
        rw [hRun, hPop]
        simp [ServerLoops.runWorker, hPc, hQueue, PoolFunctor.workerFunctor?]
    -- The view has no functor here, and `m_quit` does not show in it.
    | quit =>
        left
        have hQuit : ((s.pop worker rest).runFunctor worker .quit).loops =
            (s.pop worker rest).loops := loops_setWorker_same rfl rfl
        obtain rfl : s.loops.workerQueues worker = queue := hQueue
        rw [hQuit, hPop, Function.update_eq_self]
    | user =>
        left
        obtain rfl : s.loops.workerQueues worker = queue := hQueue
        rw [runFunctor, hPop, Function.update_eq_self]
  · cases hStep

end Run

section Main

variable {s s' : ServerPool κ ω} {home : κ → ω} {threads : List ω}

theorem loops_newConnection (hIdle : s.mainPc = .idle) {conn : κ}
    (hState : (s.conns conn).state = .kConnecting) :
    (s.newConnection home conn).loops = s.loops.newConnection (some ∘ home) conn := by
  have hEnrolled : (s.enroll conn).loops =
      ({ s.loops with
        server := { s.loops.server with connections := s.loops.server.connections ++ [conn] }
        created := Function.update s.loops.created conn true } :
          ServerLoops κ ω).setState conn .kConnecting := by
    have hStates : Function.update s.loops.states conn .kConnecting = s.loops.states :=
      Function.update_eq_self_iff.mpr hState.symm
    unfold ServerLoops.setState
    rw [hStates]
    simp [loops, enroll, hIdle, PoolPc.stopsPool]
  rw [newConnection, loops_post _ _ rfl, hEnrolled]
  rfl

/-- `StopInLoop` of a server without connections ends where it begins. -/
theorem loops_beginStop (hIdle : s.mainPc = .idle) {order : List κ}
    (hOrder : order.Perm s.server.connections) :
    (s.beginStop threads order).loops = s.loops.beginStop order ∨
      (s.loops.beginStop order).mainPc = .closing [] ∧
        (s.loops.beginStop order).stopStep (some ∘ home) =
          some (s.beginStop threads order).loops := by
  by_cases hStarted : s.server.started = true
  · by_cases hEmpty : s.server.connections = []
    · obtain rfl : order = [] := by
        rw [hEmpty] at hOrder
        exact hOrder.eq_nil
      -- Nothing to visit: the loops make the step that ends `StopInLoop` as well.
      right
      simp [beginStop, stopThreadPool, loops, ServerLoops.beginStop, ServerLoops.stopStep,
        TcpServer.stopInLoop, hIdle, hStarted, hEmpty, PoolPc.stopsPool, PoolPc.mainPc]
    · left
      simp [beginStop, loops, ServerLoops.beginStop, TcpServer.stopInLoop, hIdle, hStarted, hEmpty,
        PoolPc.stopsPool, PoolPc.mainPc]
  · left
    simp [beginStop, loops, ServerLoops.beginStop, TcpServer.stopInLoop, hIdle, hStarted,
      PoolPc.stopsPool, PoolPc.mainPc]

omit [DecidableEq κ] [DecidableEq ω] in
theorem loops_stopThreadPool (hIdle : s.mainPc = .idle) :
    (s.stopThreadPool threads).loops =
      { s.loops with server := s.server.stopThreadPoolInLoop } := by
  simp [loops, stopThreadPool, hIdle, PoolPc.stopsPool, PoolPc.mainPc]

theorem loops_removeConnection (hIdle : s.mainPc = .idle) (conn : κ) :
    (s.removeConnection home threads conn).loops =
      s.loops.removeConnection (some ∘ home) conn := by
  have hErased : ((s.erase conn).post (home conn) (.connectDestroyed conn)).loops =
      ({ s.loops with
        server := { s.server with connections := s.server.connections.erase conn } } :
          ServerLoops κ ω).postWorker (home conn) (.connectDestroyed conn) := by
    rw [loops_post _ _ rfl]
    simp [loops, erase, hIdle, PoolPc.stopsPool]
  have hServer : s.loops.server = s.server := by simp [loops, hIdle, PoolPc.stopsPool]
  unfold removeConnection ServerLoops.removeConnection TcpServer.removeConnectionInLoop
  rw [hServer]
  by_cases hLast : ((s.server.connections.erase conn).isEmpty && !s.server.started) = true
  · rw [if_pos hLast, if_pos hLast]
    have hRemoved : ((s.erase conn).post (home conn) (.connectDestroyed conn)).mainPc = .idle :=
      hIdle
    rw [loops_stopThreadPool hRemoved, hErased]
    rfl
  · rw [if_neg hLast, if_neg hLast]
    exact hErased

theorem loops_runMain {order : List κ} (hStep : s.runMain home threads order = some s') :
    ∃ next, s.loops.runMain (some ∘ home) order = some next ∧
      (s'.loops = next ∨
        next.mainPc = .closing [] ∧ next.stopStep (some ∘ home) = some s'.loops) := by
  unfold runMain at hStep
  split at hStep
  · next rest hIdle hQueue =>
    obtain ⟨hOrder, hNext⟩ := Option.ite_none_right_eq_some.mp hStep
    obtain rfl := Option.some.inj hNext
    have hPc : s.loops.mainPc = .idle := by simp [loops, hIdle, PoolPc.mainPc]
    have hTable : order.Perm s.loops.server.connections := by
      simpa [loops, hIdle, PoolPc.stopsPool] using hOrder
    let popped : ServerPool κ ω := { s with mainQueue := rest }
    have hPopped : popped.mainPc = .idle := hIdle
    refine ⟨popped.loops.beginStop order, ?_, loops_beginStop hPopped hOrder⟩
    unfold ServerLoops.runMain
    rw [hPc, show s.loops.mainQueue = .stopInLoop :: rest from hQueue]
    exact if_pos hTable
  · next conn rest hIdle hQueue =>
    obtain rfl := Option.some.inj hStep
    have hPc : s.loops.mainPc = .idle := by simp [loops, hIdle, PoolPc.mainPc]
    let popped : ServerPool κ ω := { s with mainQueue := rest }
    have hPopped : popped.mainPc = .idle := hIdle
    refine ⟨_, ?_, Or.inl (loops_removeConnection hPopped conn)⟩
    have hView : popped.loops = { s.loops with mainPc := .idle, mainQueue := rest } := by
      rw [← hPc]
      rfl
    unfold ServerLoops.runMain
    rw [hView, hPc, show s.loops.mainQueue = .removeConnection conn :: rest from hQueue]
  · cases hStep

/-- `ServerLoops` has the loop of `StopInLoop`, and not the one over the threads. -/
theorem loops_proceed (hStep : s.proceed home = some s') :
    s'.loops = s.loops ∨ s.loops.stopStep (some ∘ home) = some s'.loops := by
  unfold proceed at hStep
  split at hStep
  · cases hStep
  · next hPc =>
    obtain rfl := Option.some.inj hStep
    right
    simp [ServerLoops.stopStep, loops, hPc, PoolPc.mainPc, PoolPc.stopsPool]
  · next conn rest hPc =>
    obtain rfl := Option.some.inj hStep
    right
    by_cases hConnected : (s.conns conn).state = .kConnected <;>
      simp [ServerLoops.stopStep, loops, hPc, PoolPc.mainPc, PoolPc.stopsPool, hConnected]
  · next conn rest hPc =>
    obtain rfl := Option.some.inj hStep
    right
    by_cases hDisconnecting : (s.conns conn).state = .kDisconnecting <;>
      simp [ServerLoops.stopStep, loops, hPc, PoolPc.mainPc, PoolPc.stopsPool, hDisconnecting]
  · next conn rest hPc =>
    obtain rfl := Option.some.inj hStep
    right
    rw [loops_post _ _ rfl]
    simp [ServerLoops.stopStep, ServerLoops.postWorker, loops, hPc, PoolPc.mainPc,
      PoolPc.stopsPool]
  -- In the view the pool is stopped before the loop over the threads.
  · next hPc =>
    obtain rfl := Option.some.inj hStep
    left
    simp [loops, hPc, PoolPc.mainPc, PoolPc.stopsPool]
  · next worker rest hPc =>
    obtain rfl := Option.some.inj hStep
    left
    rw [loops_post_none _ _ rfl]
    simp [loops, hPc, PoolPc.mainPc, PoolPc.stopsPool]
  · next worker rest hPc =>
    obtain ⟨-, hNext⟩ := Option.ite_none_right_eq_some.mp hStep
    obtain rfl := Option.some.inj hNext
    left
    simp [loops, hPc, PoolPc.mainPc, PoolPc.stopsPool]

/-- What a loop does with a connection is at most a `Shutdown`. -/
theorem loops_perform (conn : κ) (act : ConnAct) :
    (s.setConn conn ((s.conns conn).perform act)).loops = s.loops ∨
      ServerLoops.step (some ∘ home) s.loops (.shutdownInLoop conn) =
        some (s.setConn conn ((s.conns conn).perform act)).loops := by
  rcases (TcpConnection.perform_onlyOutput (s.conns conn) act).state_eq with
    hKept | ⟨hConnected, hShutdown⟩
  · exact Or.inl (loops_setConn_same hKept)
  · right
    rw [loops_setConn, hShutdown]
    exact if_pos hConnected

end Main

end ServerPool

/-! ## Connections that have not been created -/

namespace ServerLoops

variable [DecidableEq κ] [DecidableEq ω] {home : κ → Option ω}

/-- No function has touched a connection that has not been created. -/
def Fresh (s : ServerLoops κ ω) : Prop :=
  ∀ conn, s.created conn = false →
    s.states conn = .kConnecting ∧ ∀ worker, .connectEstablished conn ∉ s.workerQueues worker

omit [DecidableEq κ] [DecidableEq ω] in
theorem running_fresh (threadNum : Nat) : Fresh (running threadNum : ServerLoops κ ω) :=
  fun _ _ => ⟨rfl, fun _ => List.not_mem_nil⟩

variable {s s' : ServerLoops κ ω}

omit [DecidableEq κ] [DecidableEq ω] in
/-- A step that creates no connection leaves the others alone. -/
theorem Fresh.of_le (hFresh : Fresh s) (hCreated : s'.created = s.created)
    (hStates : ∀ conn, s.states conn = .kConnecting → s.created conn = false →
      s'.states conn = .kConnecting)
    (hQueues : ∀ worker conn, .connectEstablished conn ∈ s'.workerQueues worker →
      .connectEstablished conn ∈ s.workerQueues worker) : Fresh s' := by
  intro conn hNot
  rw [hCreated] at hNot
  obtain ⟨hState, hAbsent⟩ := hFresh conn hNot
  exact ⟨hStates conn hState hNot, fun worker hMem => hAbsent worker (hQueues worker conn hMem)⟩

omit [DecidableEq ω] in
theorem Fresh.setState (hFresh : Fresh s) {conn : κ} {state : ConnState}
    (hCreated : s.created conn = true) : Fresh (s.setState conn state) := by
  refine hFresh.of_le rfl (fun other hState hNot => ?_) fun _ _ hMem => hMem
  have hOther : other ≠ conn := by
    rintro rfl
    rw [hCreated] at hNot
    cases hNot
  simpa [ServerLoops.setState, hOther] using hState

omit [DecidableEq κ] in
theorem Fresh.postWorker (hFresh : Fresh s) (worker : ω) {functor : WorkerFunctor κ}
    (hFunctor : ∀ conn, functor = .connectEstablished conn → s.created conn = true) :
    Fresh (s.postWorker worker functor) := by
  intro conn hNot
  obtain ⟨hState, hAbsent⟩ := hFresh conn hNot
  refine ⟨hState, fun other hMem => ?_⟩
  by_cases hSame : other = worker
  · have hMem : .connectEstablished conn ∈ s.workerQueues worker ∨
        .connectEstablished conn = functor := by
      simpa [ServerLoops.postWorker, hSame] using hMem
    rcases hMem with hOld | hPosted
    · exact hAbsent worker hOld
    · have hCreated : s.created conn = false := hNot
      rw [hFunctor conn hPosted.symm] at hCreated
      cases hCreated
  · exact hAbsent other (by simpa [ServerLoops.postWorker, hSame] using hMem)

omit [DecidableEq κ] [DecidableEq ω] in
/-- A connection in another state than `kConnecting` has been created. -/
theorem Fresh.created_of_state (hFresh : Fresh s) {conn : κ}
    (hState : s.states conn ≠ .kConnecting) : s.created conn = true := by
  by_contra hNot
  exact hState (hFresh conn (by simpa using hNot)).1

omit [DecidableEq ω] in
theorem Fresh.closeHere (hFresh : Fresh s) (conn : κ) : Fresh (s.closeHere conn) := by
  unfold ServerLoops.closeHere
  split
  · next hLive =>
    have hClosed : Fresh (s.setState conn .kDisconnected) :=
      hFresh.setState (hFresh.created_of_state (ConnState.ne_connecting_of_live hLive))
    exact hClosed
  · exact hFresh

theorem Fresh.beginClose (hFresh : Fresh s) (worker : ω) {conn : κ}
    (hState : s.states conn ≠ .kConnecting) : Fresh (s.beginClose worker conn) := by
  have hClosed : Fresh (s.setState conn .kDisconnected) :=
    hFresh.setState (hFresh.created_of_state hState)
  exact hClosed

theorem Fresh.newConnection (hFresh : Fresh s) (conn : κ) :
    Fresh (s.newConnection home conn) := by
  let added : ServerLoops κ ω := { s with
    server := { s.server with connections := s.server.connections ++ [conn] }
    created := Function.update s.created conn true }
  have hCreated : added.created conn = true := Function.update_self ..
  have hAdded : Fresh added := by
    intro other hNot
    have hOther : other ≠ conn := by
      rintro rfl
      rw [hCreated] at hNot
      cases hNot
    exact hFresh other (by simpa [added, hOther] using hNot)
  unfold ServerLoops.newConnection
  split
  · refine (hAdded.setState hCreated).postWorker _ ?_
    rintro other ⟨⟩
    exact hCreated
  · exact hAdded.setState hCreated

theorem Fresh.runWorker (hFresh : Fresh s) {worker : ω} (hStep : s.runWorker worker = some s') :
    Fresh s' := by
  unfold ServerLoops.runWorker at hStep
  split at hStep
  · next functor rest hPc hQueue =>
    let popped : ServerLoops κ ω :=
      { s with workerQueues := Function.update s.workerQueues worker rest }
    have hPopped : Fresh popped := by
      refine hFresh.of_le rfl (fun _ hState _ => hState) fun other conn hMem => ?_
      by_cases hOther : other = worker
      · rw [hOther, hQueue]
        exact List.mem_cons_of_mem _ (by simpa [popped, hOther] using hMem)
      · simpa [popped, hOther] using hMem
    cases functor with
    | connectEstablished conn =>
        obtain rfl := Option.some.inj hStep
        -- Its `ConnectEstablished` was queued by `NewConnection`.
        have hCreated : s.created conn = true := by
          by_contra hNot
          exact (hFresh conn (by simpa using hNot)).2 worker (by simp [hQueue])
        exact hPopped.setState hCreated
    | forceCloseInLoop conn =>
        obtain rfl := Option.some.inj hStep
        split
        · next hLive => exact hPopped.beginClose worker (ConnState.ne_connecting_of_live hLive)
        · exact hPopped
    | connectDestroyed conn =>
        obtain rfl := Option.some.inj hStep
        split
        · next hConnected =>
          refine hPopped.setState (hPopped.created_of_state ?_)
          rw [hConnected]
          decide
        · exact hPopped
  · cases hStep

theorem Fresh.stopStep (hFresh : Fresh s) (hStep : s.stopStep home = some s') : Fresh s' := by
  unfold ServerLoops.stopStep at hStep
  split at hStep
  · cases hStep
  · obtain rfl := Option.some.inj hStep
    exact hFresh
  · obtain rfl := Option.some.inj hStep
    exact hFresh
  · obtain rfl := Option.some.inj hStep
    exact hFresh
  · next conn rest hPc =>
    have hNext : Fresh { s with mainPc := .closing rest } := hFresh
    dsimp only at hStep
    split at hStep
    · obtain rfl := Option.some.inj hStep
      exact hNext.postWorker _ (by simp)
    · obtain rfl := Option.some.inj hStep
      exact hNext.closeHere conn

theorem Fresh.runMain (hFresh : Fresh s) {order : List κ}
    (hStep : s.runMain home order = some s') : Fresh s' := by
  unfold ServerLoops.runMain at hStep
  split at hStep
  · obtain ⟨-, hNext⟩ := Option.ite_none_right_eq_some.mp hStep
    obtain rfl := Option.some.inj hNext
    exact hFresh
  · next conn rest hPc hQueue =>
    obtain rfl := Option.some.inj hStep
    have hRemoved : Fresh
        { s with mainQueue := rest, server := s.server.removeConnectionInLoop conn } := hFresh
    unfold ServerLoops.removeConnection
    dsimp only
    split
    · exact hRemoved.postWorker _ (by simp)
    · exact hRemoved
  · cases hStep

theorem step_fresh (s : ServerLoops κ ω) (label : ServerLabel κ ω) (s' : ServerLoops κ ω)
    (hFresh : Fresh s) (hStep : step home s label = some s') : Fresh s' := by
  cases label with
  | newConnection conn =>
      obtain ⟨-, hNext⟩ := Option.ite_none_right_eq_some.mp hStep
      obtain rfl := Option.some.inj hNext
      exact hFresh.newConnection conn
  | stop =>
      obtain rfl := Option.some.inj hStep
      exact hFresh
  | stopHere order =>
      obtain ⟨-, hNext⟩ := Option.ite_none_right_eq_some.mp hStep
      obtain rfl := Option.some.inj hNext
      exact hFresh
  | runMain order => exact hFresh.runMain hStep
  | stopStep => exact hFresh.stopStep hStep
  | closeHere conn =>
      simp only [step] at hStep
      split at hStep
      · obtain rfl := Option.some.inj hStep
        exact hFresh.closeHere conn
      · obtain rfl := Option.some.inj hStep
        exact hFresh.closeHere conn
      · cases hStep
  | shutdownInLoop conn =>
      obtain ⟨hConnected, hNext⟩ := Option.ite_none_right_eq_some.mp hStep
      obtain rfl := Option.some.inj hNext
      exact hFresh.setState (hFresh.created_of_state (by simp [hConnected]))
  | forceClose conn =>
      simp only [step] at hStep
      split at hStep
      · obtain ⟨-, hNext⟩ := Option.ite_none_right_eq_some.mp hStep
        obtain rfl := Option.some.inj hNext
        exact hFresh.postWorker _ (by simp)
      · cases hStep
  | runWorker worker => exact hFresh.runWorker hStep
  | handleClose worker conn =>
      obtain ⟨⟨-, -, hState⟩, hNext⟩ := Option.ite_none_right_eq_some.mp hStep
      obtain rfl := Option.some.inj hNext
      exact hFresh.beginClose worker hState
  | postRemove worker =>
      simp only [step] at hStep
      split at hStep
      · obtain rfl := Option.some.inj hStep
        exact hFresh
      · cases hStep

end ServerLoops

/-! ## The simulation -/

namespace ServerPool

variable {home : κ → ω} {threads : List ω} {s s' : ServerPool κ ω}

/-- `ForceClose`, called by `StopInLoop`, does not find the connection `kConnecting`. -/
def MeetsEstablished (s : ServerPool κ ω) : LoopsLabel κ ω → Prop
  | .proceed => s.loops.MeetsEstablished .stopStep
  | _ => True

/-- The run of the loops that a step of the pool is. -/
def Matched [DecidableEq κ] [DecidableEq ω] (home : κ → ω) (s : ServerPool κ ω)
    (label : LoopsLabel κ ω) (s' : ServerPool κ ω) : Prop :=
  ∃ acts, exec (ServerLoops.step (some ∘ home)) s.loops acts = some s'.loops ∧
    (s.MeetsEstablished label →
      Meets (ServerLoops.step (some ∘ home)) ServerLoops.MeetsEstablished s.loops acts)

variable [DecidableEq κ] [DecidableEq ω]

theorem Matched.none {label : LoopsLabel κ ω} (hKept : s'.loops = s.loops) :
    Matched home s label s' :=
  ⟨[], by rw [hKept]; rfl, fun _ => trivial⟩

theorem Matched.one {label : LoopsLabel κ ω} (act : ServerLabel κ ω)
    (hAct : ServerLoops.step (some ∘ home) s.loops act = some s'.loops)
    (hMeets : s.MeetsEstablished label → s.loops.MeetsEstablished act) :
    Matched home s label s' :=
  ⟨[act], exec_cons_eq_some.mpr ⟨s'.loops, hAct, rfl⟩, fun hLabel =>
    ⟨hMeets hLabel, fun _ _ => trivial⟩⟩

/-- `StopInLoop` may have nothing to visit. -/
theorem Matched.stop {label : LoopsLabel κ ω} {next : ServerLoops κ ω} (act : ServerLabel κ ω)
    (hAct : ServerLoops.step (some ∘ home) s.loops act = some next)
    (hMeets : s.loops.MeetsEstablished act)
    (hLast : s'.loops = next ∨
      next.mainPc = .closing [] ∧ next.stopStep (some ∘ home) = some s'.loops) :
    Matched home s label s' := by
  rcases hLast with rfl | ⟨hPc, hLast⟩
  · exact .one act hAct fun _ => hMeets
  · refine ⟨[act, .stopStep], exec_cons_eq_some.mpr ⟨next, hAct,
      exec_cons_eq_some.mpr ⟨s'.loops, hLast, rfl⟩⟩, fun _ => ⟨hMeets, fun other hOther => ?_⟩⟩
    obtain rfl := Option.some.inj (hAct.symm.trans hOther)
    exact ⟨by simp [ServerLoops.MeetsEstablished, hPc], fun _ _ => trivial⟩

/-- A step of the pool is no step of the loops, or one, or two where `StopInLoop` finds no
connection. -/
theorem step_matched (hFresh : s.loops.Fresh) {label : LoopsLabel κ ω}
    (hStep : step home threads s label = some s') : Matched home s label s' := by
  cases label with
  | newConnection conn =>
      obtain ⟨⟨hIdle, hAcceptor, hNew⟩, hNext⟩ := Option.ite_none_right_eq_some.mp hStep
      obtain rfl := Option.some.inj hNext
      refine .one (.newConnection conn) ?_ fun _ => trivial
      rw [loops_newConnection hIdle (hFresh conn hNew).1]
      refine if_pos ⟨?_, ?_, hNew⟩
      · simp [loops, hIdle, PoolPc.mainPc]
      · simpa [loops, hIdle, PoolPc.stopsPool] using hAcceptor
  | stop =>
      obtain rfl := Option.some.inj hStep
      exact .one .stop rfl fun _ => trivial
  | stopHere order =>
      obtain ⟨⟨hIdle, hOrder⟩, hNext⟩ := Option.ite_none_right_eq_some.mp hStep
      obtain rfl := Option.some.inj hNext
      refine .stop (.stopHere order) (if_pos ⟨?_, ?_⟩) trivial (loops_beginStop hIdle hOrder)
      · simp [loops, hIdle, PoolPc.mainPc]
      · simpa [loops, hIdle, PoolPc.stopsPool] using hOrder
  | runMain order =>
      obtain ⟨next, hRun, hEnd⟩ := loops_runMain hStep
      exact .stop (.runMain order) hRun trivial hEnd
  | proceed =>
      rcases loops_proceed hStep with hKept | hNext
      · exact .none hKept
      · exact .one .stopStep hNext fun hMeets => hMeets
  | forceClose conn =>
      obtain ⟨hState, hNext⟩ := Option.ite_none_right_eq_some.mp hStep
      obtain rfl := Option.some.inj hNext
      refine .one (.forceClose conn) ?_ fun _ => trivial
      rw [loops_post _ _ rfl]
      exact if_pos hState
  | queueInLoop worker =>
      obtain rfl := Option.some.inj hStep
      exact .none (loops_post_none _ _ rfl)
  | swap worker =>
      obtain ⟨⟨hPhase, -⟩, hNext⟩ := Option.ite_none_right_eq_some.mp hStep
      obtain rfl := Option.some.inj hNext
      refine .none (loops_setWorker_same ?_ rfl)
      simp [PoolWorker.workerQueue, PoolWorker.jobs, WorkerPhase.batch, hPhase]
  | run worker =>
      rcases loops_run hStep with hKept | hNext
      · exact .none hKept
      · exact .one (.runWorker worker) hNext fun _ => trivial
  | testQuit worker =>
      obtain ⟨⟨hPhase, -⟩, hNext⟩ := Option.ite_none_right_eq_some.mp hStep
      obtain rfl := Option.some.inj hNext
      refine .none (loops_setWorker_same ?_ rfl)
      cases (s.workers worker).quit <;>
        simp [PoolWorker.workerQueue, PoolWorker.jobs, WorkerPhase.batch, hPhase]
  | handleClose worker conn =>
      obtain ⟨⟨hFree, hHome, hState⟩, hNext⟩ := Option.ite_none_right_eq_some.mp hStep
      obtain rfl := Option.some.inj hNext
      refine .one (.handleClose worker conn) ?_ fun _ => trivial
      rw [loops_beginClose]
      refine if_pos ⟨?_, congrArg some hHome, hState⟩
      exact PoolWorker.workerPc_eq_idle (PoolWorker.closing_of_free hFree)
  | postRemove worker =>
      simp only [step] at hStep
      split at hStep
      · next conn hClosing =>
        obtain rfl := Option.some.inj hStep
        refine .one (.postRemove worker) ?_ fun _ => trivial
        have hPc : s.loops.workerPcs worker = .closing conn := by
          show PoolWorker.workerPc (s.workers worker) = _
          rw [PoolWorker.workerPc, hClosing]
          rfl
        rw [loops_endClose]
        simp [ServerLoops.step, hPc]
      · cases hStep
  | act worker conn act =>
      obtain ⟨-, hNext⟩ := Option.ite_none_right_eq_some.mp hStep
      obtain rfl := Option.some.inj hNext
      exact (loops_perform conn act).elim .none fun hNext =>
        .one (.shutdownInLoop conn) hNext fun _ => trivial

/-- **The thread pool refines the worker loops.**  What a run of the pool does becomes a run
of `ServerLoops` when the batches, the channels and the threads are forgotten. -/
theorem exec_loops {threadNum : Nat} {callbacks : κ → ConnCallbacks} {highWaterMark : κ → Nat}
    {labels : List (LoopsLabel κ ω)}
    (hRun : exec (step home threads) (running threadNum callbacks highWaterMark) labels = some s) :
    ∃ acts, exec (ServerLoops.step (some ∘ home)) (ServerLoops.running threadNum) acts =
        some s.loops ∧
      (Meets (step home threads) MeetsEstablished (running threadNum callbacks highWaterMark)
          labels →
        Meets (ServerLoops.step (some ∘ home)) ServerLoops.MeetsEstablished
          (ServerLoops.running threadNum) acts) := by
  -- The relation is the view, with what `NewConnection` has to know of a fresh connection.
  obtain ⟨acts, _, hActs, ⟨rfl, -⟩, hMeets⟩ := exec_simulation
    (fun (s : ServerPool κ ω) t => s.loops = t ∧ t.Fresh)
    (fun s _ label next hRel hStep => by
      obtain ⟨rfl, hFresh⟩ := hRel
      obtain ⟨acts, hActs, hMeets⟩ := step_matched hFresh hStep
      have hNext := exec_invariant ServerLoops.Fresh ServerLoops.step_fresh hFresh hActs
      exact ⟨acts, next.loops, hActs, ⟨rfl, hNext⟩, hMeets⟩)
    ⟨loops_running threadNum callbacks highWaterMark, ServerLoops.running_fresh threadNum⟩ hRun
  exact ⟨acts, hActs, hMeets⟩

/-- So what `StopInLoop` leaves behind is the same with a thread pool.  When it comes across
no connection that is `kConnecting`, then every connection that is still in the table is being
closed, or its close waits on its worker. -/
theorem exec_stopCloses {threadNum : Nat} {callbacks : κ → ConnCallbacks}
    {highWaterMark : κ → Nat} {labels : List (LoopsLabel κ ω)}
    (hMeets : Meets (step home threads) MeetsEstablished
      (running threadNum callbacks highWaterMark) labels)
    (hRun : exec (step home threads) (running threadNum callbacks highWaterMark) labels = some s)
    (hIdle : s.mainPc = .idle) (hStopped : s.server.started = false) {conn : κ}
    (hMem : conn ∈ s.server.connections) :
    ((s.conns conn).state = .kDisconnected ∧
        (.removeConnection conn ∈ s.mainQueue ∨ (s.workers (home conn)).closing = some conn)) ∨
      .forceCloseInLoop conn ∈ (s.workers (home conn)).jobs := by
  obtain ⟨acts, hActs, hActsMeets⟩ := exec_loops hRun
  -- The invariant of the loops holds along the run that the view has made.
  have hInv : ServerLoops.ServerInv (some ∘ home) s.loops :=
    exec_invariant_of_meets (ServerLoops.ServerInv (some ∘ home))
      (fun _ _ _ hInv hMeets hStep => ServerLoops.step_inv hInv hMeets hStep)
      (ServerLoops.running_inv threadNum) (hActsMeets hMeets) hActs
  have hServer : s.loops.server = s.server := by simp [loops, hIdle, PoolPc.stopsPool]
  have hPc : s.loops.mainPc = .idle := by simp [loops, hIdle, PoolPc.mainPc]
  rw [← hServer] at hStopped hMem
  rcases hInv.stopCloses hPc hStopped conn hMem with ⟨hClosed, hBegun⟩ | ⟨worker, hHome, hForced⟩
  · refine Or.inl ⟨hClosed, hBegun.imp id ?_⟩
    rintro ⟨worker, hHome, hClosing⟩
    obtain rfl : home conn = worker := Option.some.inj hHome
    exact PoolWorker.closing_of_workerPc hClosing
  · obtain rfl : home conn = worker := Option.some.inj hHome
    exact Or.inr (PoolWorker.mem_jobs_of_forceClose hForced)

end ServerPool
end SolarNet
