import SolarNet.Transport.ServerCalls
import SolarNet.Transport.ServerLoops

/-!
# The main loop of a `TcpServer`

The thread of the main loop as a stack machine: the stack holds, innermost first, the
calls that are in progress and where they go on.  `Stop` runs `StopInLoop` in place when
it is called on the loop thread, so `StopInLoop` may run inside the accept loop of the
acceptor that it destroys, and inside the `HandleClose` of a connection.  A connection of
the main loop is removed in place by its `HandleClose`; the removal of a connection of a
worker loop comes through the queue of the main loop.

The state also records the two things that must not happen: a step on a destroyed
acceptor, and an access of a member of the server after `StopThreadPoolInLoop` has stored
`true` into `m_stop_complete`.  A run begins with a running server, on which `Start`
returns at once; after `StopInLoop` it would call `Listen` through a null pointer, so it
is left out.
-/

namespace SolarNet

/-- A call in progress on the main loop. -/
inductive MainCall (κ : Type*) where
  /-- A callback of the user, a functor, or the handler of a channel. -/
  | user
  /-- `Acceptor::HandleRead`, before the next `Accept`. -/
  | acceptLoop
  /-- `HandleClose`, after the close callback. -/
  | closeReport (conn : κ)
  /-- `RemoveConnectionInLoop`, after `StopThreadPoolInLoop`. -/
  | removeLog
  /-- `StopInLoop` without connections, after `StopThreadPoolInLoop`. -/
  | stopLog
  /-- `StopInLoop`, before the call of `ForceClose` on the first of these connections, or
  before its last statement. -/
  | stopLoop (rest : List κ)
  deriving DecidableEq, Repr

/-- A channel that `Poll` has reported. -/
inductive ReadyChannel where
  | listener
  | other
  deriving DecidableEq, Repr

structure ServerMain (κ : Type*) where
  server : TcpServer κ
  states : κ → ConnState
  created : κ → Bool
  /-- What is left of `active_channels`. -/
  active : List ReadyChannel
  stack : List (MainCall κ)
  queue : List (MainFunctor κ)
  /-- A step was made on the acceptor after `StopInLoop` destroyed it. -/
  usedDestroyed : Bool
  /-- A member of the server was used after the stop was complete. -/
  lateAccess : Bool

inductive MainLabel (κ : Type*) where
  | poll (ready : List ReadyChannel)
  /-- `HandleEvent` on the next channel. -/
  | dispatch
  /-- A functor of the user begins. -/
  | enter
  /-- User code returns. -/
  | leave
  /-- `Accept` gives a connection, or none. -/
  | accept (conn : Option κ)
  /-- User code calls `Stop`; the connections are visited in this order. -/
  | stopHere (order : List κ)
  /-- User code calls `ForceClose` on a connection of the main loop. -/
  | forceClose (conn : κ)
  /-- The handler of the connection's channel calls `HandleClose`. -/
  | handleClose (conn : κ)
  | shutdownInLoop (conn : κ)
  /-- The innermost library call goes on; `info` tells whether `LOG_INFO` is enabled. -/
  | proceed (info : Bool)
  /-- Another thread calls `Stop`. -/
  | stop
  /-- A worker loop runs `ConnectEstablished`. -/
  | workerEstablished (conn : κ)
  /-- A worker loop runs `HandleClose`, which queues `RemoveConnectionInLoop`. -/
  | workerClose (conn : κ)
  /-- The main loop runs its next functor. -/
  | runFunctor (order : List κ)
  deriving DecidableEq, Repr

namespace ServerMain

variable {κ : Type*} [DecidableEq κ]

/-- A running server without connections. -/
def running (threadNum : Nat) : ServerMain κ where
  server := { TcpServer.new threadNum with
    started := true, stopComplete := false, threadPool := decide (0 < threadNum) }
  states := fun _ => .kConnecting
  created := fun _ => false
  active := []
  stack := []
  queue := []
  usedDestroyed := false
  lateAccess := false

def push (s : ServerMain κ) (call : MainCall κ) : ServerMain κ :=
  { s with stack := call :: s.stack }

def setState (s : ServerMain κ) (conn : κ) (state : ConnState) : ServerMain κ :=
  { s with states := Function.update s.states conn state }

/-- `RemoveConnectionInLoop`.  `ConnectDestroyed` finds a closed connection, or is posted
to a worker. -/
def removeConnection (s : ServerMain κ) (conn : κ) : ServerMain κ :=
  let removed := { s with server := s.server.removeConnectionInLoop conn }
  if (s.server.connections.erase conn).isEmpty && !s.server.started then
    removed.push .removeLog
  else removed

/-- `HandleClose` up to the return of its close callback, which is `RemoveConnection`. -/
def close (s : ServerMain κ) (conn : κ) : ServerMain κ :=
  ((s.setState conn .kDisconnected).push (.closeReport conn)).removeConnection conn

/-- `StopInLoop` up to the loop over the connections. -/
def stopInLoop (s : ServerMain κ) (order : List κ) : ServerMain κ :=
  let stopped := { s with server := s.server.stopInLoop }
  if !s.server.started then s
  else if s.server.connections.isEmpty then stopped.push .stopLog
  else stopped.push (.stopLoop order)

section Home

-- Whether a connection lives on the main loop.
variable (onMain : κ → Bool)

/-- `NewConnection`.  A connection of the main loop is established in place. -/
def newConnection (s : ServerMain κ) (conn : κ) : ServerMain κ :=
  let added := { s with
    server := { s.server with connections := s.server.connections ++ [conn] }
    created := Function.update s.created conn true }
  if onMain conn then (added.setState conn .kConnected).push .user else added

/-- The next `Accept` of `Acceptor::HandleRead`, below which `rest` is in progress.  The
socket of a destroyed acceptor is closed, so its `Accept` gives no connection. -/
def accept (s : ServerMain κ) (rest : List (MainCall κ)) : Option κ → Option (ServerMain κ)
  | some conn =>
      if s.server.acceptor ∧ s.created conn = false then some (s.newConnection onMain conn)
      else none
  | none =>
      some { s with stack := rest, usedDestroyed := s.usedDestroyed || !s.server.acceptor }

/-- What the library call on top of `rest` does next. -/
def resume (s : ServerMain κ) (rest : List (MainCall κ)) : MainCall κ → Option (ServerMain κ)
  | .removeLog | .stopLog | .stopLoop [] => some { s with stack := rest }
  -- The connection callback.
  | .closeReport _ => some ({ s with stack := rest }.push .user)
  -- `ForceClose` is posted to a worker loop.
  | .stopLoop (conn :: more) =>
      let next := { s with stack := .stopLoop more :: rest }
      some (if onMain conn && (s.states conn).live then next.close conn else next)
  | .user | .acceptLoop => none

def proceed (s : ServerMain κ) : Option (ServerMain κ) :=
  match s.stack with
  | [] => none
  | call :: rest => s.resume onMain rest call

/-- The next channel of the batch. -/
def dispatch (s : ServerMain κ) : Option (ServerMain κ) :=
  match s.stack, s.active with
  | [], .listener :: rest =>
      if s.server.acceptor then some ({ s with active := rest }.push .acceptLoop)
      -- The channel was destroyed with its acceptor.
      else some { s with active := rest, usedDestroyed := true }
  | [], .other :: rest => some ({ s with active := rest }.push .user)
  | _, _ => none

/-- Functors run when the batch is done. -/
def runFunctor (s : ServerMain κ) (order : List κ) : Option (ServerMain κ) :=
  match s.stack, s.active, s.queue with
  | [], [], .stopInLoop :: rest =>
      if s.server.started → order.Perm s.server.connections then
        some ({ s with queue := rest }.stopInLoop order)
      else none
  | [], [], .removeConnection conn :: rest =>
      some ({ s with queue := rest }.removeConnection conn)
  | _, _, _ => none

/-- The innermost call is user code. -/
def inUser (s : ServerMain κ) : Bool := s.stack.head? == some .user

/-- The effect of a step. -/
def perform (s : ServerMain κ) : MainLabel κ → Option (ServerMain κ)
  | .poll ready =>
      if s.stack = [] ∧ s.active = [] ∧ (.listener ∈ ready → s.server.acceptor = true) ∧
          ready.count .listener ≤ 1 then
        some { s with active := ready }
      else none
  | .dispatch => s.dispatch
  | .enter => if s.stack = [] ∧ s.active = [] then some (s.push .user) else none
  | .leave => if s.inUser then some { s with stack := s.stack.tail } else none
  | .accept conn =>
      match s.stack with
      | .acceptLoop :: rest => s.accept onMain rest conn
      | _ => none
  | .stopHere order =>
      if s.inUser ∧ (s.server.started → order.Perm s.server.connections) then
        some (s.stopInLoop order)
      else none
  | .forceClose conn =>
      if s.inUser ∧ onMain conn then
        some (if (s.states conn).live then s.close conn else s)
      else none
  -- `HandleRead` and the close event do not test the state; nothing is below the handler.
  | .handleClose conn =>
      if s.inUser ∧ s.stack.length = 1 ∧ onMain conn ∧ s.states conn ≠ .kConnecting then
        some (s.close conn)
      else none
  | .shutdownInLoop conn =>
      if s.states conn = .kConnected then some (s.setState conn .kDisconnecting) else none
  | .proceed _ => s.proceed onMain
  | .stop => some { s with queue := s.queue ++ [.stopInLoop] }
  | .workerEstablished conn =>
      if s.created conn ∧ !onMain conn ∧ s.states conn = .kConnecting then
        some (s.setState conn .kConnected)
      else none
  | .workerClose conn =>
      if !onMain conn ∧ s.states conn ≠ .kConnecting then
        some { s.setState conn .kDisconnected with queue := s.queue ++ [.removeConnection conn] }
      else none
  | .runFunctor order => s.runFunctor order

/-- The stop is complete: `IsFullyStopped` answers true, and the server does not run. -/
def fullyStopped (s : ServerMain κ) : Bool :=
  !s.server.started && s.server.stopComplete

/-- Whether a library call uses a member of the server when it goes on: the name, in
`LOG_INFO`, or through `RemoveConnection` when `ForceClose` closes a connection. -/
def touches (s : ServerMain κ) (info : Bool) : MainCall κ → Bool
  | .removeLog | .stopLog | .stopLoop [] => info
  | .stopLoop (conn :: _) => onMain conn && (s.states conn).live
  | .user | .acceptLoop | .closeReport _ => false

/-- Whether the main loop uses a member of the server in a step. -/
def accesses (s : ServerMain κ) : MainLabel κ → Bool
  -- `NewConnection`.
  | .accept conn => conn.isSome
  -- `Stop` reads `m_started`, and the functors are member functions.
  | .stopHere _ | .runFunctor _ => true
  -- The close callback is `RemoveConnection`.
  | .forceClose conn => (s.states conn).live
  | .handleClose _ => true
  | .proceed info => s.stack.head?.any (s.touches onMain info)
  -- `HandleEvent` and `Accept` work on the acceptor; user code and other threads.
  | .poll _ | .dispatch | .enter | .leave | .shutdownInLoop _ => false
  | .stop | .workerEstablished _ | .workerClose _ => false

def step (s : ServerMain κ) (label : MainLabel κ) : Option (ServerMain κ) :=
  (s.perform onMain label).map fun next =>
    { next with lateAccess := s.lateAccess || s.fullyStopped && s.accesses onMain label }

end Home

/-! ## What a step can do -/

section Moves

variable (onMain : κ → Bool)

/-- What a library call on top of `rest` can do next. -/
inductive Resumes (s : ServerMain κ) (rest : List (MainCall κ)) : MainCall κ → ServerMain κ → Prop
  | returns {call : MainCall κ}
      (hCall : call = .removeLog ∨ call = .stopLog ∨ call = .stopLoop []) :
      Resumes s rest call { s with stack := rest }
  | report (conn : κ) : Resumes s rest (.closeReport conn) ({ s with stack := rest }.push .user)
  | pass (conn : κ) (more : List κ) :
      Resumes s rest (.stopLoop (conn :: more)) { s with stack := .stopLoop more :: rest }
  | close (conn : κ) (more : List κ) (hLive : (s.states conn).live = true) :
      Resumes s rest (.stopLoop (conn :: more))
        ({ s with stack := .stopLoop more :: rest }.close conn)

theorem resumes_of_resume {s s' : ServerMain κ} {rest : List (MainCall κ)} {call : MainCall κ}
    (hResume : s.resume onMain rest call = some s') : Resumes s rest call s' := by
  cases call with
  | user | acceptLoop => cases hResume
  | removeLog | stopLog =>
      obtain rfl := Option.some.inj hResume
      exact .returns (by simp)
  | closeReport conn =>
      obtain rfl := Option.some.inj hResume
      exact .report conn
  | stopLoop conns =>
      cases conns with
      | nil =>
          obtain rfl := Option.some.inj hResume
          exact .returns (by simp)
      | cons conn more =>
          obtain rfl := Option.some.inj hResume
          split
          · next hLive =>
            rw [Bool.and_eq_true] at hLive
            exact .close conn more hLive.2
          · exact .pass conn more

/-- The steps of the main loop and of the threads around it. -/
inductive MainMove (s : ServerMain κ) : MainLabel κ → ServerMain κ → Prop
  | poll (ready : List ReadyChannel) (hStack : s.stack = [])
      (hListener : .listener ∈ ready → s.server.acceptor = true) :
      MainMove s (.poll ready) { s with active := ready }
  | listener (rest : List ReadyChannel) (hActive : s.active = .listener :: rest)
      (hThere : s.server.acceptor = true) :
      MainMove s .dispatch ({ s with active := rest }.push .acceptLoop)
  | destroyedListener (rest : List ReadyChannel) (hActive : s.active = .listener :: rest)
      (hNull : s.server.acceptor = false) :
      MainMove s .dispatch { s with active := rest, usedDestroyed := true }
  | handler (rest : List ReadyChannel) (hActive : s.active = .other :: rest) :
      MainMove s .dispatch ({ s with active := rest }.push .user)
  | enter : MainMove s .enter (s.push .user)
  | leave (call : MainCall κ) (rest : List (MainCall κ)) (hStack : s.stack = call :: rest) :
      MainMove s .leave { s with stack := rest }
  | newConnection (conn : κ) (hThere : s.server.acceptor = true)
      (hNew : s.created conn = false) :
      MainMove s (.accept (some conn)) (s.newConnection onMain conn)
  | acceptNone (rest : List (MainCall κ)) (hStack : s.stack = .acceptLoop :: rest) :
      MainMove s (.accept none)
        { s with stack := rest, usedDestroyed := s.usedDestroyed || !s.server.acceptor }
  | stopHere (order : List κ) : MainMove s (.stopHere order) (s.stopInLoop order)
  | forceClose (conn : κ) (hLive : (s.states conn).live = true) :
      MainMove s (.forceClose conn) (s.close conn)
  | forceCloseIdle (conn : κ) : MainMove s (.forceClose conn) s
  | handleClose (conn : κ) (hState : s.states conn ≠ .kConnecting) :
      MainMove s (.handleClose conn) (s.close conn)
  | shutdownInLoop (conn : κ) (hState : s.states conn = .kConnected) :
      MainMove s (.shutdownInLoop conn) (s.setState conn .kDisconnecting)
  | proceed (info : Bool) (call : MainCall κ) (rest : List (MainCall κ)) {s' : ServerMain κ}
      (hStack : s.stack = call :: rest) (hResumes : Resumes s rest call s') :
      MainMove s (.proceed info) s'
  | stop : MainMove s .stop { s with queue := s.queue ++ [.stopInLoop] }
  | workerEstablished (conn : κ) (hCreated : s.created conn = true)
      (hState : s.states conn = .kConnecting) :
      MainMove s (.workerEstablished conn) (s.setState conn .kConnected)
  | workerClose (conn : κ) (hState : s.states conn ≠ .kConnecting) :
      MainMove s (.workerClose conn)
        { s.setState conn .kDisconnected with queue := s.queue ++ [.removeConnection conn] }
  | runStop (order : List κ) (rest : List (MainFunctor κ)) (hStack : s.stack = [])
      (hActive : s.active = []) (hQueue : s.queue = .stopInLoop :: rest) :
      MainMove s (.runFunctor order) ({ s with queue := rest }.stopInLoop order)
  | runRemove (order : List κ) (conn : κ) (rest : List (MainFunctor κ))
      (hQueue : s.queue = .removeConnection conn :: rest) :
      MainMove s (.runFunctor order) ({ s with queue := rest }.removeConnection conn)

theorem mainMove_of_perform {s s' : ServerMain κ} {label : MainLabel κ}
    (hStep : s.perform onMain label = some s') : MainMove onMain s label s' := by
  cases label with
  | poll ready =>
      simp only [perform, Option.ite_none_right_eq_some, Option.some.injEq] at hStep
      obtain ⟨⟨hStack, -, hListener, -⟩, rfl⟩ := hStep
      exact .poll ready hStack hListener
  | dispatch =>
      simp only [perform, dispatch] at hStep
      split at hStep
      · next rest hStack hActive =>
        split at hStep
        · next hThere =>
          obtain rfl := Option.some.inj hStep
          exact .listener rest hActive hThere
        · next hNull =>
          obtain rfl := Option.some.inj hStep
          exact .destroyedListener rest hActive (Bool.eq_false_of_not_eq_true hNull)
      · next rest hStack hActive =>
        obtain rfl := Option.some.inj hStep
        exact .handler rest hActive
      · cases hStep
  | enter =>
      simp only [perform, Option.ite_none_right_eq_some, Option.some.injEq] at hStep
      obtain ⟨-, rfl⟩ := hStep
      exact .enter
  | leave =>
      simp only [perform, Option.ite_none_right_eq_some, Option.some.injEq] at hStep
      obtain ⟨hUser, rfl⟩ := hStep
      cases hStack : s.stack with
      | nil => simp [inUser, hStack] at hUser
      | cons call rest => exact .leave call rest hStack
  | accept conn =>
      simp only [perform] at hStep
      split at hStep
      · next rest hStack =>
        cases conn with
        | some conn =>
            simp only [accept, Option.ite_none_right_eq_some, Option.some.injEq] at hStep
            obtain ⟨⟨hThere, hNew⟩, rfl⟩ := hStep
            exact .newConnection conn hThere hNew
        | none =>
            obtain rfl := Option.some.inj hStep
            exact .acceptNone rest hStack
      · cases hStep
  | stopHere order =>
      simp only [perform, Option.ite_none_right_eq_some, Option.some.injEq] at hStep
      obtain ⟨-, rfl⟩ := hStep
      exact .stopHere order
  | forceClose conn =>
      simp only [perform, Option.ite_none_right_eq_some, Option.some.injEq] at hStep
      obtain ⟨-, rfl⟩ := hStep
      split
      · next hLive => exact .forceClose conn hLive
      · exact .forceCloseIdle conn
  | handleClose conn =>
      simp only [perform, Option.ite_none_right_eq_some, Option.some.injEq] at hStep
      obtain ⟨⟨-, -, -, hState⟩, rfl⟩ := hStep
      exact .handleClose conn hState
  | shutdownInLoop conn =>
      simp only [perform, Option.ite_none_right_eq_some, Option.some.injEq] at hStep
      obtain ⟨hState, rfl⟩ := hStep
      exact .shutdownInLoop conn hState
  | proceed info =>
      simp only [perform, proceed] at hStep
      split at hStep
      · cases hStep
      · next call rest hStack =>
        exact .proceed info call rest hStack (resumes_of_resume onMain hStep)
  | stop =>
      obtain rfl := Option.some.inj hStep
      exact .stop
  | workerEstablished conn =>
      simp only [perform, Option.ite_none_right_eq_some, Option.some.injEq] at hStep
      obtain ⟨⟨hCreated, -, hState⟩, rfl⟩ := hStep
      exact .workerEstablished conn hCreated hState
  | workerClose conn =>
      simp only [perform, Option.ite_none_right_eq_some, Option.some.injEq] at hStep
      obtain ⟨⟨-, hState⟩, rfl⟩ := hStep
      exact .workerClose conn hState
  | runFunctor order =>
      simp only [perform, runFunctor] at hStep
      split at hStep
      · next rest hStack hActive hQueue =>
        simp only [Option.ite_none_right_eq_some, Option.some.injEq] at hStep
        obtain ⟨-, rfl⟩ := hStep
        exact .runStop order rest hStack hActive hQueue
      · next conn rest hStack hActive hQueue =>
        obtain rfl := Option.some.inj hStep
        exact .runRemove order conn rest hQueue
      · cases hStep

/-- A step is a move, and records whether it is a late access. -/
theorem exists_mainMove_of_step {s s' : ServerMain κ} {label : MainLabel κ}
    (hStep : s.step onMain label = some s') :
    ∃ next, MainMove onMain s label next ∧ s' = { next with
      lateAccess := s.lateAccess || s.fullyStopped && s.accesses onMain label } := by
  obtain ⟨next, hNext, rfl⟩ := Option.map_eq_some_iff.mp hStep
  exact ⟨next, mainMove_of_perform onMain hNext, rfl⟩

/-! ## The members of the server -/

omit [DecidableEq κ] in
theorem stopInLoop_server (s : ServerMain κ) (order : List κ) :
    (s.stopInLoop order).server = s.server.stopInLoop := by
  unfold stopInLoop
  cases hStarted : s.server.started with
  | false => exact (s.server.stopInLoop_frame.2.2.2 hStarted).symm
  | true =>
      simp only [Bool.not_true, Bool.false_eq_true, if_false]
      split <;> rfl

theorem removeConnection_server (s : ServerMain κ) (conn : κ) :
    (s.removeConnection conn).server = s.server.removeConnectionInLoop conn := by
  unfold removeConnection
  split <;> rfl

theorem close_server (s : ServerMain κ) (conn : κ) :
    (s.close conn).server = s.server.removeConnectionInLoop conn :=
  removeConnection_server _ conn

theorem newConnection_server (s : ServerMain κ) (conn : κ) : (s.newConnection onMain conn).server =
    { s.server with connections := s.server.connections ++ [conn] } := by
  unfold newConnection
  split <;> rfl

/-- A step changes the members of the server by calls of its functions. -/
theorem step_calls (s : ServerMain κ) (label : MainLabel κ) (s' : ServerMain κ)
    (hStep : s.step onMain label = some s') : TcpServer.Calls s.server s'.server := by
  obtain ⟨next, hMove, rfl⟩ := exists_mainMove_of_step onMain hStep
  show TcpServer.Calls s.server next.server
  cases hMove with
  | newConnection conn hThere =>
      rw [newConnection_server]
      exact .newConnection hThere conn
  | stopHere order =>
      rw [stopInLoop_server]
      exact .stopInLoop s.server
  | runStop order rest =>
      rw [stopInLoop_server]
      exact .stopInLoop s.server
  | forceClose conn =>
      rw [close_server]
      exact .removeConnectionInLoop s.server conn
  | handleClose conn =>
      rw [close_server]
      exact .removeConnectionInLoop s.server conn
  | runRemove order conn rest =>
      rw [removeConnection_server]
      exact .removeConnectionInLoop s.server conn
  | proceed info call rest hStack hResumes =>
      cases hResumes with
      | close conn more =>
          rw [close_server]
          exact .removeConnectionInLoop s.server conn
      | _ => exact .refl s.server
  | _ => exact .refl s.server

end Moves

end ServerMain
end SolarNet
