import SolarNet.Transport.ServerLoops
import SolarNet.Transport.WriteInterest

/-!
# `TcpServer` with a thread pool

The main loop of a server, its worker loops, and the connections with their channels.
Every connection lives on a worker loop.  Its close goes from the worker to the main loop
and back: `HandleClose` posts `RemoveConnectionInLoop`, which posts `ConnectDestroyed`.
`StopThreadPoolInLoop` runs at the end of the last removal, or of a stop that finds no
connection; it posts `Quit` to one worker after the other and joins each of them.

The main loop is cut at the tests of `ForceClose`, at the posts, and at `Join`.  A worker
is cut between its functors and at the post in `HandleClose`.  User code of a worker runs
between these points: what it does with the connections of its loop are steps of their
own, so `ConnectEstablished` and `HandleClose` are done when their callback is called.

The state also records how often `HandleClose` began for each connection, and on which
loops its `ConnectDestroyed` was executed.
-/

namespace SolarNet

/-- A functor of a worker loop. -/
inductive PoolFunctor (κ : Type*) where
  | connectEstablished (conn : κ)
  | forceCloseInLoop (conn : κ)
  | connectDestroyed (conn : κ)
  /-- `Quit`, which `EventLoopThread::Stop` posts. -/
  | quit
  /-- Any other functor. -/
  | user
  deriving DecidableEq, Repr

/-- The connection that a functor of the server is about. -/
def PoolFunctor.conn? {κ : Type*} : PoolFunctor κ → Option κ
  | .connectEstablished conn | .forceCloseInLoop conn | .connectDestroyed conn => some conn
  | .quit | .user => none

/-- How far a worker is in `Loop()`. -/
inductive WorkerPhase (κ : Type*) where
  /-- `Poll`, and the handlers of the active channels. -/
  | events
  /-- `DoPendingFunctors`, after the swap; these functors are left. -/
  | functors (batch : List (PoolFunctor κ))
  /-- `Loop()` has returned. -/
  | exited
  deriving DecidableEq, Repr

/-- The functors that were swapped out and have not run. -/
def WorkerPhase.batch {κ : Type*} : WorkerPhase κ → List (PoolFunctor κ)
  | .functors batch => batch
  | .events | .exited => []

structure PoolWorker (κ : Type*) where
  phase : WorkerPhase κ
  pending : List (PoolFunctor κ)
  quit : Bool
  /-- The worker is in `HandleClose` of this connection, before the close callback. -/
  closing : Option κ
  deriving DecidableEq, Repr

/-- How far the main loop is in `StopInLoop` or `StopThreadPoolInLoop`. -/
inductive PoolPc (κ ω : Type*) where
  | idle
  /-- Before the call of `ForceClose` on the first of these connections. -/
  | closing (rest : List κ)
  /-- In `ForceClose`, after the test for `kConnected` has failed. -/
  | secondTest (conn : κ) (rest : List κ)
  /-- In `ForceClose`, after one of the tests has succeeded. -/
  | posting (conn : κ) (rest : List κ)
  /-- In `EventLoopThreadPool::Stop`, before the `Stop` of the first of these threads. -/
  | quitting (rest : List ω)
  /-- In `EventLoopThread::Stop`, before `Join` returns. -/
  | joining (worker : ω) (rest : List ω)
  deriving DecidableEq, Repr

structure ServerPool (κ ω : Type*) where
  server : TcpServer κ
  conns : κ → TcpConnection
  /-- The connection object has been created. -/
  created : κ → Bool
  mainQueue : List (MainFunctor κ)
  mainPc : PoolPc κ ω
  workers : ω → PoolWorker κ
  /-- How often `HandleClose` began. -/
  closes : κ → Nat
  /-- The loops that executed `ConnectDestroyed`. -/
  destroyedOn : κ → List ω

/-- What a loop does with a connection between its creation and its close. -/
inductive ConnAct where
  | sendInLoop (message : List Byte) (call : SysWrite)
  | shutdownInLoop
  | handleWrite (call : SysWrite)
  /-- `HandleRead` up to the test of `n`. -/
  | receive (call : SysRead)
  deriving DecidableEq, Repr

inductive LoopsLabel (κ ω : Type*) where
  /-- `NewConnection` creates this connection. -/
  | newConnection (conn : κ)
  /-- Another thread calls `Stop`. -/
  | stop
  /-- Code on the main loop calls `Stop`; the connections are visited in this order. -/
  | stopHere (order : List κ)
  /-- The main loop runs its next functor. -/
  | runMain (order : List κ)
  /-- `StopInLoop` or `StopThreadPoolInLoop` goes on. -/
  | proceed
  /-- A thread other than the loop thread calls `ForceClose`. -/
  | forceClose (conn : κ)
  /-- A thread queues a functor of its own. -/
  | queueInLoop (worker : ω)
  /-- The worker has handled its events, and swaps out its functors. -/
  | swap (worker : ω)
  /-- The worker runs its next functor. -/
  | run (worker : ω)
  /-- The worker has run its functors, and tests `m_quit`. -/
  | testQuit (worker : ω)
  /-- An event, or `ForceClose` on the loop thread, makes the worker enter `HandleClose`. -/
  | handleClose (worker : ω) (conn : κ)
  /-- `HandleClose` posts `RemoveConnectionInLoop` and calls the connection callback. -/
  | postRemove (worker : ω)
  | act (worker : ω) (conn : κ) (act : ConnAct)
  deriving DecidableEq, Repr

/-- The functors that the worker has not run. -/
def PoolWorker.jobs {κ : Type*} (worker : PoolWorker κ) : List (PoolFunctor κ) :=
  worker.phase.batch ++ worker.pending

/-- The thread of the worker executes user code, or is between two pieces of library
code. -/
def PoolWorker.free {κ : Type*} (worker : PoolWorker κ) : Bool :=
  match worker.phase with
  | .exited => false
  | .events | .functors _ => worker.closing.isNone

def TcpConnection.perform (c : TcpConnection) : ConnAct → TcpConnection
  | .sendInLoop message call => c.sendInLoop message call
  | .shutdownInLoop => c.shutdownInLoop
  | .handleWrite call => c.handleWrite call
  | .receive call => (c.receive call).1

namespace ServerPool

variable {κ ω : Type*} [DecidableEq κ] [DecidableEq ω]

/-- A running server without connections. -/
def running (threadNum : Nat) (callbacks : κ → ConnCallbacks) (highWaterMark : κ → Nat) :
    ServerPool κ ω where
  server := { TcpServer.new threadNum with
    started := true, stopComplete := false, threadPool := decide (0 < threadNum) }
  conns := fun conn => TcpConnection.new (callbacks conn) (highWaterMark conn)
  created := fun _ => false
  mainQueue := []
  mainPc := .idle
  workers := fun _ => ⟨.events, [], false, none⟩
  closes := fun _ => 0
  destroyedOn := fun _ => []

def setConn (s : ServerPool κ ω) (conn : κ) (c : TcpConnection) : ServerPool κ ω :=
  { s with conns := Function.update s.conns conn c }

def setWorker (s : ServerPool κ ω) (worker : ω) (next : PoolWorker κ) : ServerPool κ ω :=
  { s with workers := Function.update s.workers worker next }

/-- `QueueInLoop` on a worker loop. -/
def post (s : ServerPool κ ω) (worker : ω) (functor : PoolFunctor κ) : ServerPool κ ω :=
  s.setWorker worker
    { s.workers worker with pending := (s.workers worker).pending ++ [functor] }

/-- The worker takes its next functor. -/
def pop (s : ServerPool κ ω) (worker : ω) (rest : List (PoolFunctor κ)) : ServerPool κ ω :=
  s.setWorker worker { s.workers worker with phase := .functors rest }

/-- `HandleClose` up to the close callback. -/
def beginClose (s : ServerPool κ ω) (worker : ω) (conn : κ) : ServerPool κ ω :=
  { (s.setConn conn (s.conns conn).beginClose).setWorker worker
      { s.workers worker with closing := some conn } with
    closes := Function.update s.closes conn (s.closes conn + 1) }

/-- The rest of `HandleClose`: the close callback, which posts `RemoveConnectionInLoop`,
and the connection callback. -/
def endClose (s : ServerPool κ ω) (worker : ω) (conn : κ) : ServerPool κ ω :=
  { (s.setWorker worker { s.workers worker with closing := none }).setConn conn
      (s.conns conn).report with
    mainQueue := s.mainQueue ++ [.removeConnection conn] }

/-- The functor runs on this worker. -/
def runFunctor (s : ServerPool κ ω) (worker : ω) : PoolFunctor κ → ServerPool κ ω
  | .connectEstablished conn => s.setConn conn (s.conns conn).connectEstablished
  | .forceCloseInLoop conn =>
      if (s.conns conn).state.live then s.beginClose worker conn else s
  | .connectDestroyed conn =>
      { s.setConn conn (s.conns conn).connectDestroyed.leavePoller with
        destroyedOn := Function.update s.destroyedOn conn (s.destroyedOn conn ++ [worker]) }
  | .quit => s.setWorker worker { s.workers worker with quit := true }
  | .user => s

def run (s : ServerPool κ ω) (worker : ω) : Option (ServerPool κ ω) :=
  match (s.workers worker).phase, (s.workers worker).closing with
  | .functors (functor :: rest), none => some ((s.pop worker rest).runFunctor worker functor)
  | _, _ => none

/-- The object is created and entered in the table. -/
def enroll (s : ServerPool κ ω) (conn : κ) : ServerPool κ ω :=
  { s with
    server := { s.server with connections := s.server.connections ++ [conn] }
    created := Function.update s.created conn true }

/-- The connection leaves the table. -/
def erase (s : ServerPool κ ω) (conn : κ) : ServerPool κ ω :=
  { s with server := { s.server with connections := s.server.connections.erase conn } }

section Home

-- The worker loop of a connection, and the threads of the pool.
variable (home : κ → ω) (threads : List ω)

/-- `StopThreadPoolInLoop` begins. -/
def stopThreadPool (s : ServerPool κ ω) : ServerPool κ ω :=
  { s with mainPc := .quitting (if s.server.threadPool then threads else []) }

/-- `StopInLoop` begins; the connections are visited in the given order. -/
def beginStop (s : ServerPool κ ω) (order : List κ) : ServerPool κ ω :=
  let stopped := { s.server with started := false, acceptor := false }
  if !s.server.started then s
  else if s.server.connections.isEmpty then { s with server := stopped }.stopThreadPool threads
  else { s with server := { stopped with stopComplete := false }, mainPc := .closing order }

/-- `NewConnection`: the table entry, and `ConnectEstablished` on the loop of the
connection. -/
def newConnection (s : ServerPool κ ω) (conn : κ) : ServerPool κ ω :=
  (s.enroll conn).post (home conn) (.connectEstablished conn)

/-- `RemoveConnectionInLoop`. -/
def removeConnection (s : ServerPool κ ω) (conn : κ) : ServerPool κ ω :=
  let removed := (s.erase conn).post (home conn) (.connectDestroyed conn)
  if (s.server.connections.erase conn).isEmpty && !s.server.started then
    removed.stopThreadPool threads
  else removed

def runMain (s : ServerPool κ ω) (order : List κ) : Option (ServerPool κ ω) :=
  match s.mainPc, s.mainQueue with
  | .idle, .stopInLoop :: rest =>
      if order.Perm s.server.connections then
        some ({ s with mainQueue := rest }.beginStop threads order)
      else none
  | .idle, .removeConnection conn :: rest =>
      some ({ s with mainQueue := rest }.removeConnection home threads conn)
  | _, _ => none

/-- The next piece of `StopInLoop` or `StopThreadPoolInLoop`. -/
def proceed (s : ServerPool κ ω) : Option (ServerPool κ ω) :=
  match s.mainPc with
  | .idle => none
  | .closing [] => some { s with mainPc := .idle }
  | .closing (conn :: rest) =>
      some { s with
        mainPc := if (s.conns conn).state = .kConnected then .posting conn rest
          else .secondTest conn rest }
  | .secondTest conn rest =>
      some { s with
        mainPc := if (s.conns conn).state = .kDisconnecting then .posting conn rest
          else .closing rest }
  | .posting conn rest =>
      some ({ s with mainPc := .closing rest }.post (home conn) (.forceCloseInLoop conn))
  -- The pool is destroyed, and the stop is complete.
  | .quitting [] =>
      some { s with server := s.server.stopThreadPoolInLoop, mainPc := .idle }
  | .quitting (worker :: rest) =>
      some ({ s with mainPc := .joining worker rest }.post worker .quit)
  | .joining worker rest =>
      if (s.workers worker).phase = .exited then some { s with mainPc := .quitting rest }
      else none

/-- One step of the system. -/
def step (s : ServerPool κ ω) : LoopsLabel κ ω → Option (ServerPool κ ω)
  | .newConnection conn =>
      if s.mainPc = .idle ∧ s.server.acceptor = true ∧ s.created conn = false then
        some (s.newConnection home conn)
      else none
  -- The test of `Stop` saw a running server; `StopInLoop` tests again.
  | .stop => some { s with mainQueue := s.mainQueue ++ [.stopInLoop] }
  | .stopHere order =>
      if s.mainPc = .idle ∧ order.Perm s.server.connections then
        some (s.beginStop threads order)
      else none
  | .runMain order => s.runMain home threads order
  | .proceed => s.proceed home
  -- The tests of `ForceClose` saw a live state, now or before.
  | .forceClose conn =>
      if (s.conns conn).state ≠ .kConnecting then
        some (s.post (home conn) (.forceCloseInLoop conn))
      else none
  | .queueInLoop worker => some (s.post worker .user)
  | .swap worker =>
      if (s.workers worker).phase = .events ∧ (s.workers worker).closing = none then
        some (s.setWorker worker
          { s.workers worker with phase := .functors (s.workers worker).pending, pending := [] })
      else none
  | .run worker => s.run worker
  | .testQuit worker =>
      if (s.workers worker).phase = .functors [] ∧ (s.workers worker).closing = none then
        some (s.setWorker worker
          { s.workers worker with
            phase := if (s.workers worker).quit then .exited else .events })
      else none
  -- The channel is first registered by `ConnectEstablished`.
  | .handleClose worker conn =>
      if (s.workers worker).free ∧ home conn = worker ∧
          (s.conns conn).state ≠ .kConnecting then
        some (s.beginClose worker conn)
      else none
  | .postRemove worker =>
      match (s.workers worker).closing with
      | some conn => some (s.endClose worker conn)
      | none => none
  | .act worker conn act =>
      if (s.workers worker).free ∧ home conn = worker ∧ s.created conn = true then
        some (s.setConn conn ((s.conns conn).perform act))
      else none

end Home

/-! ## The members of the server

When the stop of the pool has returned, the members of the server are those that
`TcpServer` gives in one step. -/

omit [DecidableEq κ] [DecidableEq ω] in
theorem beginStop_server (threads : List ω) (s : ServerPool κ ω) (order : List κ) :
    (if s.server.started && s.server.connections.isEmpty then
        (s.beginStop threads order).server.stopThreadPoolInLoop
      else (s.beginStop threads order).server) = s.server.stopInLoop := by
  by_cases hStarted : s.server.started = true
  · by_cases hEmpty : s.server.connections.isEmpty = true
    · simp [beginStop, TcpServer.stopInLoop, stopThreadPool, hStarted, hEmpty]
    · simp [beginStop, TcpServer.stopInLoop, hStarted, hEmpty]
  · simp [beginStop, TcpServer.stopInLoop, hStarted]

theorem removeConnection_server (home : κ → ω) (threads : List ω) (s : ServerPool κ ω)
    (conn : κ) :
    (if (s.server.connections.erase conn).isEmpty && !s.server.started then
        (s.removeConnection home threads conn).server.stopThreadPoolInLoop
      else (s.removeConnection home threads conn).server) =
      s.server.removeConnectionInLoop conn := by
  unfold removeConnection TcpServer.removeConnectionInLoop
  split
  · rfl
  · rfl

end ServerPool
end SolarNet
