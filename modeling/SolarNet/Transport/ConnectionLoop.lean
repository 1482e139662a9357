import SolarNet.Transport.TcpConnection

/-!
# The connections of one loop

The loop thread of an `EventLoop` with its connections: `Loop()` collects a batch
of active channels, calls `Channel::HandleEvent` on one after the other, and runs
functors when the batch is done.  User code that it reaches on the way (callbacks,
timers, functors, the handlers of other channels) may call `Send`, `Shutdown` and
`ForceClose` on any connection, whose callbacks are user code again.

The thread is a stack machine.  The stack holds, innermost first, what remains to
be done when the current call returns: user code, the rest of `HandleClose` or
`ConnectDestroyed` after a callback, and the rest of `HandleEventWithGuard`.  Each
step is a call that user code makes, a return, or one piece of library code
between two calls of user code.

`TcpServer` is here with one loop, so `RunInLoop` runs its functor in place:
`RemoveConnection` is part of the `HandleClose` that calls it.

A connection lives while `m_connections`, user code, or a function that is working
on it holds a pointer to it.  `none` stands for the use of a connection that does
not live any more.
-/

namespace SolarNet

/-- The callbacks of `HandleEventWithGuard`, in the order of its tests. -/
inductive EventPhase where
  | close
  | error
  | read
  | write
  deriving DecidableEq, Repr

/-- What the loop thread goes on with when a call returns. -/
inductive Frame (ι : Type*) where
  | user
  /-- `HandleClose`, after the close callback. -/
  | closeReport (conn : ι)
  /-- `ConnectDestroyed`, after the connection callback. -/
  | leave (conn : ι)
  /-- `HandleEventWithGuard`, before the test for a callback. -/
  | event (conn : ι) (phase : EventPhase)
  deriving DecidableEq, Repr

/-- The connection that a frame works on. -/
def Frame.conn? {ι : Type*} : Frame ι → Option ι
  | .user => none
  | .closeReport conn | .leave conn | .event conn _ => some conn

/-- The state of the loop thread and of its connections. -/
structure ConnectionLoop (ι : Type*) where
  conns : ι → TcpConnection
  /-- The entries of `TcpServer::m_connections`. -/
  connections : ι → Bool
  /-- Pointers held by user code and queued functors. -/
  held : ι → Bool
  /-- What is left of `active_channels`. -/
  active : List ι
  stack : List (Frame ι)

/-- A step of the loop thread. -/
inductive ConnectionLabel (ι : Type*) where
  /-- `Poll` returns these channels with these events. -/
  | poll (ready : List (ι × PollEvents))
  /-- `HandleEvent` on the next channel of the batch. -/
  | dispatch
  /-- A functor, a timer, or the handler of another channel begins. -/
  | enter
  /-- User code returns. -/
  | leave
  /-- The innermost library function goes on, with what its system calls meet. -/
  | proceed (read : SysRead) (write : SysWrite)
  | newConnection (conn : ι)
  | connectEstablished (conn : ι)
  | connectDestroyed (conn : ι)
  | send (conn : ι) (message : List Byte) (call : SysWrite)
  | shutdown (conn : ι)
  | shutdownInLoop (conn : ι)
  | forceClose (conn : ι)
  | hold (conn : ι)
  | release (conn : ι)
  deriving DecidableEq, Repr

namespace ConnectionLoop

variable {ι : Type*} [DecidableEq ι]

/-- No connection is established.  User code owns those without a server. -/
def new (callbacks : ι → ConnCallbacks) (highWaterMark : ι → Nat) : ConnectionLoop ι where
  conns := fun i => TcpConnection.new (callbacks i) (highWaterMark i)
  connections := fun _ => false
  held := fun i => (callbacks i).close != .server
  active := []
  stack := []

def setConn (w : ConnectionLoop ι) (i : ι) (c : TcpConnection) : ConnectionLoop ι :=
  { w with conns := Function.update w.conns i c }

def push (w : ConnectionLoop ι) (frame : Frame ι) : ConnectionLoop ι :=
  { w with stack := frame :: w.stack }

/-- Call user code, if the callback is set. -/
def callUser (w : ConnectionLoop ι) (present : Bool) : ConnectionLoop ι :=
  if present then w.push .user else w

/-- Somebody holds a pointer to the connection. -/
def alive (w : ConnectionLoop ι) (i : ι) : Bool :=
  w.connections i || w.held i || w.stack.any (fun frame => frame.conn? == some i)

/-- The loop thread executes user code that can use connection `i`. -/
def userCan (w : ConnectionLoop ι) (i : ι) : Bool :=
  w.stack.head? == some .user && w.alive i

/-! ## Lifecycle -/

def connectEstablished (w : ConnectionLoop ι) (i : ι) : ConnectionLoop ι :=
  (w.setConn i (w.conns i).connectEstablished).callUser (w.conns i).callbacks.connection

def connectDestroyed (w : ConnectionLoop ι) (i : ι) : ConnectionLoop ι :=
  if (w.conns i).state = .kConnected then
    ((w.setConn i (w.conns i).beginDestroy).push (.leave i)).callUser
      (w.conns i).callbacks.connection
  else w.setConn i (w.conns i).leavePoller

/-- `TcpServer::RemoveConnectionInLoop`. -/
def removeConnection (w : ConnectionLoop ι) (i : ι) : ConnectionLoop ι :=
  { w with connections := Function.update w.connections i false }.connectDestroyed i

/-- `HandleClose` up to the return of its close callback. -/
def handleClose (w : ConnectionLoop ι) (i : ι) : ConnectionLoop ι :=
  let closing := (w.setConn i (w.conns i).beginClose).push (.closeReport i)
  match (w.conns i).callbacks.close with
  | .unset => closing
  -- `RunInLoop` on the loop thread: the removal runs before `HandleClose` goes on.
  | .server => closing.removeConnection i
  | .user => closing.push .user

/-- `ForceClose` and `ForceCloseInLoop`, which make the same test. -/
def forceClose (w : ConnectionLoop ι) (i : ι) : ConnectionLoop ι :=
  if (w.conns i).state.live then w.handleClose i else w

/-- `TcpServer::NewConnection` on a single loop. -/
def newConnection (w : ConnectionLoop ι) (i : ι) : ConnectionLoop ι :=
  { w with connections := Function.update w.connections i true }.connectEstablished i

/-! ## Events -/

def handleRead (w : ConnectionLoop ι) (i : ι) (call : SysRead) : ConnectionLoop ι :=
  let received := w.setConn i ((w.conns i).receive call).1
  match ((w.conns i).receive call).2 with
  | .error _ => received
  -- `HandleRead` does not test `m_state`.
  | .ok 0 => received.handleClose i
  | .ok (_ + 1) =>
      if (w.conns i).callbacks.message then
        (w.setConn i (((w.conns i).receive call).1.record .messageCallback)).push .user
      else received

/-- `SetRevents` for one event of `Poll`. -/
def setRevents (w : ConnectionLoop ι) (event : ι × PollEvents) : ConnectionLoop ι :=
  w.setConn event.1
    { w.conns event.1 with channel := (w.conns event.1).channel.setRevents event.2 }

/-- `Poll` can return these events: each channel once, and only channels that are
in the epoll set. -/
def canPoll (w : ConnectionLoop ι) (ready : List (ι × PollEvents)) : Bool :=
  w.stack.isEmpty && w.active.isEmpty && decide (ready.map Prod.fst).Nodup &&
    ready.all fun event =>
      (w.conns event.1).channel.interest.isSome && w.alive event.1

def poll (w : ConnectionLoop ι) (ready : List (ι × PollEvents)) : ConnectionLoop ι :=
  { ready.foldl setRevents w with active := ready.map Prod.fst }

/-- The loop calls `HandleEvent`, which locks `m_tie` while the connection lives.
A channel dies with its connection. -/
def dispatch (w : ConnectionLoop ι) : Option (ConnectionLoop ι) :=
  match w.stack, w.active with
  | [], i :: rest =>
      if w.alive i then some ({ w with active := rest }.push (.event i .close)) else none
  | _, _ => none

/-- The innermost library function goes on to its next call of user code. -/
def proceed (w : ConnectionLoop ι) (read : SysRead) (write : SysWrite) :
    Option (ConnectionLoop ι) :=
  match w.stack with
  | .event i .close :: rest =>
      let w' := { w with stack := .event i .error :: rest }
      some (if (w.conns i).channel.revents.closes then w'.handleClose i else w')
  | .event i .error :: rest =>
      -- `HandleError` reads the error of the socket and logs it.
      some { w with stack := .event i .read :: rest }
  | .event i .read :: rest =>
      let w' := { w with stack := .event i .write :: rest }
      some (if (w.conns i).channel.revents.reads then w'.handleRead i read else w')
  | .event i .write :: rest =>
      let w' := { w with stack := rest }
      some (if (w.conns i).channel.revents.writes then
        w'.setConn i ((w.conns i).handleWrite write) else w')
  | .closeReport i :: rest =>
      some (({ w with stack := rest }.setConn i (w.conns i).report).callUser
        (w.conns i).callbacks.connection)
  | .leave i :: rest =>
      some ({ w with stack := rest }.setConn i (w.conns i).leavePoller)
  | .user :: _ | [] => none

/-- One step of the loop thread. -/
def step (w : ConnectionLoop ι) : ConnectionLabel ι → Option (ConnectionLoop ι)
  | .poll ready => if w.canPoll ready then some (w.poll ready) else none
  | .dispatch => w.dispatch
  | .enter => if w.stack.isEmpty then some (w.push .user) else none
  | .leave =>
      match w.stack with
      | .user :: rest => some { w with stack := rest }
      | _ => none
  | .proceed read write => w.proceed read write
  -- The handler of the acceptor; a connection object is established once.
  | .newConnection i =>
      if w.stack.head? = some .user ∧ (w.conns i).callbacks.close = .server ∧
          (w.conns i).state = .kConnecting then
        some (w.newConnection i)
      else none
  | .connectEstablished i =>
      if w.userCan i ∧ (w.conns i).callbacks.close ≠ .server ∧
          (w.conns i).state = .kConnecting then
        some (w.connectEstablished i)
      else none
  | .connectDestroyed i =>
      if w.userCan i ∧ (w.conns i).callbacks.close ≠ .server then
        some (w.connectDestroyed i)
      else none
  | .send i message call =>
      if w.userCan i then some (w.setConn i ((w.conns i).sendInLoop message call)) else none
  | .shutdown i => if w.userCan i then some (w.setConn i (w.conns i).shutdown) else none
  | .shutdownInLoop i =>
      if w.userCan i then some (w.setConn i (w.conns i).shutdownInLoop) else none
  | .forceClose i => if w.userCan i then some (w.forceClose i) else none
  | .hold i =>
      if w.userCan i then some { w with held := Function.update w.held i true } else none
  | .release i =>
      if w.userCan i then some { w with held := Function.update w.held i false } else none

end ConnectionLoop
end SolarNet
