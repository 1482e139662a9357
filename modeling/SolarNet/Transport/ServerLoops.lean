import SolarNet.Transport.TcpConnection
import SolarNet.Transport.TcpServer

/-!
# `TcpServer` and its worker loops

The main loop accepts connections, removes them, and executes `StopInLoop`.  A
connection lives on a worker loop, or on the main loop when there is no worker for
it; its state is advanced by the loop it lives on, and read by the main loop in the
two tests of `ForceClose`.

The main loop is cut at these tests and at the post that follows them, a worker at
the post of `RemoveConnection` in `HandleClose`.  Connections of the main loop close
in place.
-/

namespace SolarNet

/-- A functor of the main loop. -/
inductive MainFunctor (κ : Type*) where
  | stopInLoop
  | removeConnection (conn : κ)
  deriving DecidableEq, Repr

/-- A functor of a worker loop. -/
inductive WorkerFunctor (κ : Type*) where
  | connectEstablished (conn : κ)
  | forceCloseInLoop (conn : κ)
  | connectDestroyed (conn : κ)
  deriving DecidableEq, Repr

/-- How far the main loop is in the loop of `StopInLoop`. -/
inductive MainPc (κ : Type*) where
  | idle
  /-- Before the call of `ForceClose` on the first of these connections. -/
  | closing (rest : List κ)
  /-- In `ForceClose`, after the test for `kConnected` has failed. -/
  | secondTest (conn : κ) (rest : List κ)
  /-- In `ForceClose`, after one of the tests has succeeded. -/
  | posting (conn : κ) (rest : List κ)
  deriving DecidableEq, Repr

/-- Whether a worker is in `HandleClose`, before the post of `RemoveConnection`. -/
inductive WorkerPc (κ : Type*) where
  | idle
  | closing (conn : κ)
  deriving DecidableEq, Repr

/-- The server, the states of its connections, and its loops. -/
structure ServerLoops (κ ω : Type*) where
  server : TcpServer κ
  states : κ → ConnState
  /-- The connection object has been created. -/
  created : κ → Bool
  mainQueue : List (MainFunctor κ)
  mainPc : MainPc κ
  workerQueues : ω → List (WorkerFunctor κ)
  workerPcs : ω → WorkerPc κ

inductive ServerLabel (κ ω : Type*) where
  /-- `NewConnection` creates this connection. -/
  | newConnection (conn : κ)
  /-- Another thread calls `Stop`. -/
  | stop
  /-- Code on the main loop calls `Stop`; the connections are visited in this order. -/
  | stopHere (order : List κ)
  /-- The main loop runs its next functor. -/
  | runMain (order : List κ)
  /-- `StopInLoop` goes on. -/
  | stopStep
  /-- A connection of the main loop closes. -/
  | closeHere (conn : κ)
  | shutdownInLoop (conn : κ)
  /-- Another thread calls `ForceClose` on a connection of a worker. -/
  | forceClose (conn : κ)
  | runWorker (worker : ω)
  /-- An event makes a worker enter `HandleClose`. -/
  | handleClose (worker : ω) (conn : κ)
  /-- `HandleClose` posts `RemoveConnection`. -/
  | postRemove (worker : ω)
  deriving DecidableEq, Repr

namespace ServerLoops

variable {κ ω : Type*} [DecidableEq κ] [DecidableEq ω]

/-- A running server without connections. -/
def running (threadNum : Nat) : ServerLoops κ ω where
  server := { TcpServer.new threadNum with
    started := true, stopComplete := false, threadPool := decide (0 < threadNum) }
  states := fun _ => .kConnecting
  created := fun _ => false
  mainQueue := []
  mainPc := .idle
  workerQueues := fun _ => []
  workerPcs := fun _ => .idle

def setState (s : ServerLoops κ ω) (conn : κ) (state : ConnState) : ServerLoops κ ω :=
  { s with states := Function.update s.states conn state }

/-- `QueueInLoop` on a worker loop. -/
def postWorker (s : ServerLoops κ ω) (worker : ω) (functor : WorkerFunctor κ) :
    ServerLoops κ ω :=
  { s with
    workerQueues := Function.update s.workerQueues worker (s.workerQueues worker ++ [functor]) }

/-- `HandleClose` on the main loop, where `RemoveConnection` and `ConnectDestroyed`
run in place. -/
def closeHere (s : ServerLoops κ ω) (conn : κ) : ServerLoops κ ω :=
  if (s.states conn).live then
    { s.setState conn .kDisconnected with server := s.server.removeConnectionInLoop conn }
  else s

/-- `HandleClose` on a worker, up to the post of `RemoveConnection`. -/
def beginClose (s : ServerLoops κ ω) (worker : ω) (conn : κ) : ServerLoops κ ω :=
  { s.setState conn .kDisconnected with
    workerPcs := Function.update s.workerPcs worker (.closing conn) }

/-- `StopInLoop` begins; the connections are visited in the given order. -/
def beginStop (s : ServerLoops κ ω) (order : List κ) : ServerLoops κ ω :=
  { s with
    server := s.server.stopInLoop
    mainPc := if s.server.started then .closing order else .idle }

section Home

-- The worker loop that a connection lives on, or none for the main loop.
variable (home : κ → Option ω)

/-- `NewConnection`: the table entry, and `ConnectEstablished` on the loop of the
connection. -/
def newConnection (s : ServerLoops κ ω) (conn : κ) : ServerLoops κ ω :=
  let s := { s with
    server := { s.server with connections := s.server.connections ++ [conn] }
    created := Function.update s.created conn true }
  match home conn with
  | some worker => (s.setState conn .kConnecting).postWorker worker (.connectEstablished conn)
  | none => s.setState conn .kConnected

/-- `RemoveConnectionInLoop`, which posts `ConnectDestroyed`. -/
def removeConnection (s : ServerLoops κ ω) (conn : κ) : ServerLoops κ ω :=
  let s := { s with server := s.server.removeConnectionInLoop conn }
  match home conn with
  | some worker => s.postWorker worker (.connectDestroyed conn)
  | none => s

/-- The next piece of the loop in `StopInLoop`. -/
def stopStep (s : ServerLoops κ ω) : Option (ServerLoops κ ω) :=
  match s.mainPc with
  | .idle => none
  | .closing [] => some { s with mainPc := .idle }
  | .closing (conn :: rest) =>
      some { s with
        mainPc := if s.states conn = .kConnected then .posting conn rest
          else .secondTest conn rest }
  | .secondTest conn rest =>
      some { s with
        mainPc := if s.states conn = .kDisconnecting then .posting conn rest
          else .closing rest }
  -- `RunInLoop`: posted to a worker, run in place on the main loop.
  | .posting conn rest =>
      let s := { s with mainPc := .closing rest }
      match home conn with
      | some worker => some (s.postWorker worker (.forceCloseInLoop conn))
      | none => some (s.closeHere conn)

def runMain (s : ServerLoops κ ω) (order : List κ) : Option (ServerLoops κ ω) :=
  match s.mainPc, s.mainQueue with
  | .idle, .stopInLoop :: rest =>
      if order.Perm s.server.connections then
        some ({ s with mainQueue := rest }.beginStop order)
      else none
  | .idle, .removeConnection conn :: rest =>
      some ({ s with mainQueue := rest }.removeConnection home conn)
  | _, _ => none

end Home

def runWorker (s : ServerLoops κ ω) (worker : ω) : Option (ServerLoops κ ω) :=
  match s.workerPcs worker, s.workerQueues worker with
  | .idle, functor :: rest =>
      let s := { s with workerQueues := Function.update s.workerQueues worker rest }
      match functor with
      | .connectEstablished conn => some (s.setState conn .kConnected)
      | .forceCloseInLoop conn =>
          some (if (s.states conn).live then s.beginClose worker conn else s)
      -- `HandleClose` comes first, so the state is `kDisconnected` as a rule.
      | .connectDestroyed conn =>
          some (if s.states conn = .kConnected then s.setState conn .kDisconnected else s)
  | _, _ => none

/-- One step of the system. -/
def step (home : κ → Option ω) (s : ServerLoops κ ω) :
    ServerLabel κ ω → Option (ServerLoops κ ω)
  | .newConnection conn =>
      if s.mainPc = .idle ∧ s.server.acceptor = true ∧ s.created conn = false then
        some (s.newConnection home conn)
      else none
  | .stop =>
      -- The test of `Stop` saw a running server; `StopInLoop` tests again.
      some { s with mainQueue := s.mainQueue ++ [.stopInLoop] }
  | .stopHere order =>
      if s.mainPc = .idle ∧ order.Perm s.server.connections then some (s.beginStop order)
      else none
  | .runMain order => s.runMain home order
  | .stopStep => s.stopStep home
  | .closeHere conn =>
      -- An event or functor of the main loop, or user code reached from a close.
      match s.mainPc, home conn with
      | .idle, none | .closing _, none => some (s.closeHere conn)
      | _, _ => none
  | .shutdownInLoop conn =>
      if s.states conn = .kConnected then some (s.setState conn .kDisconnecting) else none
  | .forceClose conn =>
      -- The tests of `ForceClose` saw a live state, now or before.
      match home conn with
      | some worker =>
          if s.states conn ≠ .kConnecting then
            some (s.postWorker worker (.forceCloseInLoop conn))
          else none
      | none => none
  | .runWorker worker => s.runWorker worker
  | .handleClose worker conn =>
      if s.workerPcs worker = .idle ∧ home conn = some worker ∧
          s.states conn ≠ .kConnecting then
        some (s.beginClose worker conn)
      else none
  | .postRemove worker =>
      match s.workerPcs worker with
      | .closing conn =>
          some { s with
            mainQueue := s.mainQueue ++ [.removeConnection conn]
            workerPcs := Function.update s.workerPcs worker .idle }
      | .idle => none

end ServerLoops
end SolarNet
