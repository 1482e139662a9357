import SolarNet.Transport.Acceptor
import SolarNet.Transport.ServerCalls

/-!
# `TcpServer::IsFullyStopped`

`IsFullyStopped` should be true of a server that does not run only when it has no
connection and no thread pool, and a `Start` that fails should leave no trace.  The flags,
the acceptor, the pool and the table of connections are changed by `StartInLoop`,
`StopInLoop` and `RemoveConnectionInLoop`, each on several paths.  The acceptor is the one of
`SolarNet.Transport.Acceptor`, with its socket and the kernel.

`StartInLoop` creates the pool before it calls `Listen`, and returns when `Listen` fails.
And `Listen` binds the socket before it calls `::listen`; when that fails the socket stays
bound, and since a socket is bound once, no later `Start` can listen.  The result of this
file is that nothing else breaks the property.  (The socket options that `Listen` sets
first, each time it is called, do not count as a trace.)
-/

namespace SolarNet

open Lib

/-! ## The main loop -/

/-- A functor that waits in the main loop. -/
inductive ServerFunctor (κ : Type*) where
  | startInLoop
  | stopInLoop
  | removeConnection (conn : κ)
  deriving DecidableEq, Repr

/-- A server with its acceptor, and the functors of its main loop. -/
structure ServerQueue (κ : Type*) where
  server : TcpServer κ
  /-- The acceptor that `m_acceptor` points to, and the kernel. -/
  listener : AcceptorLoop
  queue : List (ServerFunctor κ)

/-- A step of the main loop, of a thread that posts to it, or of the kernel. -/
inductive ServerStep (κ : Type*) where
  | setThreadNum (threadNum : Nat)
  /-- Another thread calls `Start`, which saw a server that does not run. -/
  | start
  /-- Another thread calls `Stop`, which saw a running server. -/
  | stop
  /-- A worker loop runs the close callback of a connection. -/
  | removeConnection (conn : κ)
  /-- Code on the main loop calls `Start`. -/
  | startHere (answers : ListenAnswers)
  | stopHere
  /-- A connection of the main loop closes, also on behalf of `StopInLoop`. -/
  | closeHere (conn : κ)
  /-- The acceptor hands over a connection. -/
  | newConnection (conn : κ) (fd : Int)
  /-- Something else happens at the listening socket. -/
  | listener (label : AcceptorLabel)
  /-- The main loop runs its next functor. -/
  | run (answers : ListenAnswers)

/-- What happens to an acceptor without a call of `TcpServer`. -/
def AcceptorLabel.ofKernel : AcceptorLabel → Bool
  | .listen _ | .setNewConnectionCallback _ | .destroy _ => false
  | .arrive _ | .handleRead | .accept _ | .release _ | .openOther _ | .closeOther _ => true

namespace ServerQueue

open TcpServer

variable {κ : Type*}

/-- The constructor, with the answer of `socket()`.  The rest of the process opens its
descriptors afterwards. -/
def new (threadNum : Nat) (listenAddr : InetAddress) (answer : Int) : ServerQueue κ where
  server := TcpServer.new threadNum
  listener := { AcceptorLoop.boot listenAddr true answer ∅ with
    acceptor := some { Acceptor.new listenAddr true answer with newConnectionCallback := true } }
  queue := []

def post (s : ServerQueue κ) (functor : ServerFunctor κ) : ServerQueue κ :=
  { s with queue := s.queue ++ [functor] }

/-- `StartInLoop`, with what the kernel answers to `Listen`. -/
def startInLoop (s : ServerQueue κ) (answers : ListenAnswers) : Option (ServerQueue κ) :=
  if s.server.started then some s
  else
    s.listener.acceptor.bind fun a =>
      (s.listener.listen a answers).bind fun listener =>
        (s.server.startInLoop (a.listen answers).2).map fun server =>
          { s with server := server, listener := listener }

/-- `StopInLoop`, which resets `m_acceptor` on the loop thread. -/
def stopInLoop (s : ServerQueue κ) : ServerQueue κ :=
  { s with
    server := s.server.stopInLoop
    listener :=
      if s.server.started then
        s.listener.acceptor.elim s.listener fun a => s.listener.destroy a true
      else s.listener }

variable [DecidableEq κ]

def removeConnectionInLoop (s : ServerQueue κ) (conn : κ) : ServerQueue κ :=
  { s with server := s.server.removeConnectionInLoop conn }

def runFunctor (s : ServerQueue κ) (answers : ListenAnswers) :
    ServerFunctor κ → Option (ServerQueue κ)
  | .startInLoop => s.startInLoop answers
  | .stopInLoop => some s.stopInLoop
  | .removeConnection conn => some (s.removeConnectionInLoop conn)

def step (s : ServerQueue κ) : ServerStep κ → Option (ServerQueue κ)
  | .setThreadNum threadNum => some { s with server := s.server.setThreadNum threadNum }
  | .start => some (s.post .startInLoop)
  | .stop => some (s.post .stopInLoop)
  | .removeConnection conn => some (s.post (.removeConnection conn))
  -- `RunInLoop` on the loop thread runs the functor in place.
  | .startHere answers => s.startInLoop answers
  | .stopHere => some s.stopInLoop
  | .closeHere conn => some (s.removeConnectionInLoop conn)
  | .newConnection conn fd =>
      (s.listener.step (.accept (.connection fd))).bind fun listener =>
        -- The callback has received the descriptor.
        if fd ∉ s.listener.held ∧ fd ∈ listener.held ∧ conn ∉ s.server.connections then
          some { s with
            server := { s.server with connections := s.server.connections ++ [conn] }
            listener := listener }
        else none
  -- Among these is a connection that `NewConnection` closes since `getsockname` fails.
  | .listener label =>
      if label.ofKernel then
        (s.listener.step label).map fun listener => { s with listener := listener }
      else none
  | .run answers =>
      match s.queue with
      | [] => none
      | functor :: rest => { s with queue := rest }.runFunctor answers functor

/-- The answers of the kernel in a step that executes `StartInLoop`. -/
def startAnswers (s : ServerQueue κ) : ServerStep κ → Option ListenAnswers
  | .startHere answers => some answers
  | .run answers => if s.queue.head? = some .startInLoop then some answers else none
  | _ => none

/-- The step executes `StartInLoop`, which calls `Listen`; the kernel can answer so, and
`Listen` fails. -/
structure FailsToListen (s : ServerQueue κ) (label : ServerStep κ) (a : Acceptor)
    (answers : ListenAnswers) : Prop where
  answers_eq : s.startAnswers label = some answers
  stopped : s.server.started = false
  acceptor_eq : s.listener.acceptor = some a
  possible : (s.listener.listen a answers).isSome = true
  failed : (a.listen answers).2 = false

/-- When `Listen` fails there are no worker threads to start, and it is not `::listen` that
fails. -/
def ListensOrAlone (s : ServerQueue κ) (label : ServerStep κ) : Prop :=
  ∀ a answers, s.FailsToListen label a answers →
    s.server.threadNum = 0 ∧ (a.reachesBind answers && answers.bind) = false

/-- `IsFullyStopped` is sound after the step, and if it was a start that failed, the server,
its acceptor and the listening socket are what they were. -/
def Traceless (s : ServerQueue κ) (label : ServerStep κ) (s' : ServerQueue κ) : Prop :=
  FullyStoppedSound s'.server ∧
    ∀ a answers, s.FailsToListen label a answers →
      s'.server = s.server ∧ s'.listener = s.listener

/-! ## The functions -/

/-- The invariant of all runs: the server has the acceptor, and it runs while the kernel
listens for it. -/
structure Attached (s : ServerQueue κ) : Prop where
  accounted : AcceptorLoop.Accounted s.listener
  acceptor_eq : s.server.acceptor = s.listener.acceptor.isSome
  started_eq : s.server.started = s.listener.accepting

omit [DecidableEq κ] in
theorem new_attached (threadNum : Nat) (listenAddr : InetAddress) (answer : Int) :
    Attached (new threadNum listenAddr answer : ServerQueue κ) where
  accounted := by
    have hBoot : AcceptorLoop.Accounted (AcceptorLoop.boot listenAddr true answer ∅) :=
      AcceptorLoop.boot_accounted listenAddr true (Or.inr (Finset.notMem_empty answer))
    exact (AcceptorLoop.Move.callback _ true rfl).accounted hBoot
  acceptor_eq := rfl
  started_eq := rfl

omit [DecidableEq κ] in
/-- `StartInLoop` does nothing, or it is the `Listen` of the acceptor with the rest of the
function. -/
theorem startInLoop_cases {s s' : ServerQueue κ} {answers : ListenAnswers}
    (hStart : s.startInLoop answers = some s') :
    s.server.started = true ∧ s' = s ∨
      s.server.started = false ∧ ∃ a listener server, s.listener.acceptor = some a ∧
        s.listener.listen a answers = some listener ∧
        s.server.startInLoop (a.listen answers).2 = some server ∧
        s' = { s with server := server, listener := listener } := by
  unfold startInLoop at hStart
  split at hStart
  · next hStarted => exact Or.inl ⟨hStarted, (Option.some.inj hStart).symm⟩
  · next hStopped =>
    obtain ⟨a, hAcceptor, hStart⟩ := Option.bind_eq_some_iff.mp hStart
    obtain ⟨listener, hListen, hStart⟩ := Option.bind_eq_some_iff.mp hStart
    obtain ⟨server, hServer, rfl⟩ := Option.map_eq_some_iff.mp hStart
    exact Or.inr ⟨by simpa using hStopped, a, listener, server, hAcceptor, hListen, hServer, rfl⟩

/-- What `Listen` does to the acceptor and to the kernel. -/
theorem listen_eq_some {w w' : AcceptorLoop} {a : Acceptor} {answers : ListenAnswers}
    (hListen : w.listen a answers = some w') :
    ¬(answers.bind ∧ w.bound ∧ a.reachesBind answers) ∧
      w' = { w with
        acceptor := some (a.listen answers).1
        bound := w.bound || a.reachesBind answers && answers.bind
        accepting := w.accepting || a.reachesBind answers && answers.bind && answers.listen } := by
  obtain ⟨hPossible, hNext⟩ := Option.ite_none_left_eq_some.mp hListen
  exact ⟨hPossible, (Option.some.inj hNext).symm⟩

omit [DecidableEq κ] in
theorem Attached.startInLoop {s s' : ServerQueue κ} (hAttached : Attached s)
    {answers : ListenAnswers} (hStart : s.startInLoop answers = some s') : Attached s' := by
  rcases startInLoop_cases hStart with
    ⟨-, rfl⟩ | ⟨hStopped, a, listener, server, hAcceptor, hListen, hServer, rfl⟩
  · exact hAttached
  obtain ⟨hPossible, rfl⟩ := listen_eq_some hListen
  obtain ⟨hSame, hStarted⟩ := startInLoop_frame hStopped hServer
  have hIdle : s.listener.accepting = false := hAttached.started_eq.symm.trans hStopped
  have hResult := AcceptorLoop.listen_result a answers
  rw [(hAttached.accounted.regular a hAcceptor).listening_eq, hIdle, Bool.false_or] at hResult
  refine ⟨(AcceptorLoop.Move.listen a answers hAcceptor hPossible).accounted hAttached.accounted,
    ?_, ?_⟩
  · rw [hSame, hAttached.acceptor_eq, hAcceptor]
    rfl
  · rw [hStarted, hResult, hIdle, Bool.false_or]

omit [DecidableEq κ] in
theorem Attached.stopInLoop {s : ServerQueue κ} (hAttached : Attached s) :
    Attached s.stopInLoop := by
  obtain ⟨-, hStopped, hReset, hSame⟩ := s.server.stopInLoop_frame
  by_cases hStarted : s.server.started = true
  -- A running server listens, and nobody listens without an acceptor.
  · have hAlive : s.listener.acceptor.isSome = true :=
      hAttached.accounted.ordered.accepting_of_alive (hAttached.started_eq ▸ hStarted)
    obtain ⟨a, hAcceptor⟩ := Option.isSome_iff_exists.mp hAlive
    have hListener : s.stopInLoop.listener = s.listener.destroy a true := by
      simp [ServerQueue.stopInLoop, hStarted, hAcceptor]
    refine ⟨?_, ?_, ?_⟩
    · rw [hListener]
      exact (AcceptorLoop.Move.destroy a true hAcceptor).accounted hAttached.accounted
    · rw [hListener]
      exact hReset hStarted
    · rw [hListener]
      exact hStopped
  · have hNothing : s.stopInLoop = s := by
      simp [ServerQueue.stopInLoop, hStarted, hSame (by simpa using hStarted)]
    rwa [hNothing]

/-- What happens at the socket leaves the acceptor in place and the kernel listening. -/
theorem move_ofKernel {w w' : AcceptorLoop} {label : AcceptorLabel}
    (hKernel : label.ofKernel = true) (hStep : w.step label = some w') :
    AcceptorLoop.Move w w' ∧ w'.acceptor = w.acceptor ∧ w'.accepting = w.accepting := by
  refine ⟨AcceptorLoop.step_move hStep, ?_⟩
  cases label with
  | listen answers | setNewConnectionCallback set | destroy inLoopThread => cases hKernel
  | arrive peerAddr =>
      obtain ⟨-, hNext⟩ := Option.ite_none_right_eq_some.mp hStep
      rw [← Option.some.inj hNext]
      exact ⟨rfl, rfl⟩
  | handleRead =>
      obtain ⟨a, -, hRead⟩ := Option.bind_eq_some_iff.mp hStep
      obtain ⟨-, hNext⟩ := Option.ite_none_right_eq_some.mp hRead
      rw [← Option.some.inj hNext]
      exact ⟨rfl, rfl⟩
  | accept answer =>
      obtain ⟨a, -, hAccept⟩ := Option.bind_eq_some_iff.mp hStep
      obtain ⟨-, hAccept⟩ := Option.ite_none_left_eq_some.mp hAccept
      split at hAccept
      · unfold AcceptorLoop.accept at hAccept
        split at hAccept
        · split at hAccept
          · obtain ⟨-, hNext⟩ := Option.ite_none_right_eq_some.mp hAccept
            split at hNext <;> (rw [← Option.some.inj hNext]; exact ⟨rfl, rfl⟩)
          · cases hAccept
        · obtain ⟨-, hNext⟩ := Option.ite_none_right_eq_some.mp hAccept
          rw [← Option.some.inj hNext]
          exact ⟨rfl, rfl⟩
        · rw [← Option.some.inj hAccept]
          exact ⟨rfl, rfl⟩
      · rw [← Option.some.inj hAccept]
        exact ⟨rfl, rfl⟩
  | release fd | openOther fd | closeOther fd =>
      obtain ⟨-, hNext⟩ := Option.ite_none_right_eq_some.mp hStep
      rw [← Option.some.inj hNext]
      exact ⟨rfl, rfl⟩

theorem Attached.removeConnectionInLoop {s : ServerQueue κ} (hAttached : Attached s) (conn : κ) :
    Attached (s.removeConnectionInLoop conn) := by
  obtain ⟨-, hStarted, hAcceptor⟩ := s.server.removeConnectionInLoop_frame conn
  exact ⟨hAttached.accounted, hAcceptor.trans hAttached.acceptor_eq,
    hStarted.trans hAttached.started_eq⟩

omit [DecidableEq κ] in
/-- A connection is handed over only while the server runs. -/
theorem Attached.started_of_hand {s : ServerQueue κ} (hAttached : Attached s) {fd : Int}
    {listener : AcceptorLoop}
    (hAccept : s.listener.step (.accept (.connection fd)) = some listener)
    (hBefore : fd ∉ s.listener.held) (hHanded : fd ∈ listener.held) :
    s.server.started = true := by
  rw [hAttached.started_eq]
  refine hAttached.accounted.ordered.accepting_of_backlog fun hEmpty => ?_
  obtain ⟨a, -, hAccept⟩ := Option.bind_eq_some_iff.mp hAccept
  obtain ⟨-, hAccept⟩ := Option.ite_none_left_eq_some.mp hAccept
  split at hAccept
  · simp [AcceptorLoop.accept, hEmpty] at hAccept
  · rw [← Option.some.inj hAccept] at hHanded
    exact hBefore hHanded

omit [DecidableEq κ] in
/-- The listener moves, and the server keeps its flags and its acceptor. -/
theorem Attached.listener {s : ServerQueue κ} (hAttached : Attached s) {listener : AcceptorLoop}
    {label : AcceptorLabel} (hKernel : label.ofKernel = true)
    (hStep : s.listener.step label = some listener) {server : TcpServer κ}
    (hAcceptor : server.acceptor = s.server.acceptor)
    (hStarted : server.started = s.server.started) (queue : List (ServerFunctor κ)) :
    Attached ⟨server, listener, queue⟩ := by
  obtain ⟨hMove, hSame, hAccepting⟩ := move_ofKernel hKernel hStep
  refine ⟨hMove.accounted hAttached.accounted, ?_, ?_⟩
  · rw [hAcceptor, hSame, hAttached.acceptor_eq]
  · rw [hStarted, hAccepting, hAttached.started_eq]

theorem step_attached (s : ServerQueue κ) (label : ServerStep κ) (s' : ServerQueue κ)
    (hAttached : Attached s) (hStep : step s label = some s') : Attached s' := by
  cases label with
  | setThreadNum threadNum =>
      obtain rfl := Option.some.inj hStep
      refine ⟨hAttached.accounted, ?_, ?_⟩
      · rw [← hAttached.acceptor_eq]
        unfold TcpServer.setThreadNum
        split <;> rfl
      · rw [← hAttached.started_eq]
        unfold TcpServer.setThreadNum
        split <;> rfl
  | start | stop | removeConnection conn =>
      obtain rfl := Option.some.inj hStep
      exact ⟨hAttached.accounted, hAttached.acceptor_eq, hAttached.started_eq⟩
  | startHere answers => exact hAttached.startInLoop hStep
  | stopHere =>
      obtain rfl := Option.some.inj hStep
      exact hAttached.stopInLoop
  | closeHere conn =>
      obtain rfl := Option.some.inj hStep
      exact hAttached.removeConnectionInLoop conn
  | newConnection conn fd =>
      obtain ⟨listener, hAccept, hNext⟩ := Option.bind_eq_some_iff.mp hStep
      obtain ⟨-, hNext⟩ := Option.ite_none_right_eq_some.mp hNext
      rw [← Option.some.inj hNext]
      let server := { s.server with connections := s.server.connections ++ [conn] }
      have hSame : server.acceptor = s.server.acceptor ∧ server.started = s.server.started :=
        ⟨rfl, rfl⟩
      exact hAttached.listener rfl hAccept hSame.1 hSame.2 _
  | listener label =>
      obtain ⟨hKernel, hNext⟩ := Option.ite_none_right_eq_some.mp hStep
      obtain ⟨listener, hMoves, rfl⟩ := Option.map_eq_some_iff.mp hNext
      exact hAttached.listener hKernel hMoves rfl rfl _
  | run answers =>
      simp only [step] at hStep
      split at hStep
      · cases hStep
      · next functor rest hQueue =>
        have hPopped : Attached { s with queue := rest } :=
          ⟨hAttached.accounted, hAttached.acceptor_eq, hAttached.started_eq⟩
        cases functor with
        | startInLoop => exact hPopped.startInLoop hStep
        | stopInLoop =>
            obtain rfl := Option.some.inj hStep
            exact hPopped.stopInLoop
        | removeConnection conn =>
            obtain rfl := Option.some.inj hStep
            exact hPopped.removeConnectionInLoop conn

/-- What a run of the server does to the acceptor is a run of the acceptor, so the results of
`SolarNet.Transport.Acceptor` hold here. -/
theorem step_listener {s s' : ServerQueue κ} {label : ServerStep κ}
    (hStep : step s label = some s') :
    s'.listener = s.listener ∨ AcceptorLoop.Move s.listener s'.listener := by
  have hStart : ∀ {s s' : ServerQueue κ} {answers}, s.startInLoop answers = some s' →
      s'.listener = s.listener ∨ AcceptorLoop.Move s.listener s'.listener := by
    intro s s' answers hStart
    obtain ⟨-, rfl⟩ | ⟨-, a, listener, server, hAcceptor, hListen, -, rfl⟩ :=
      startInLoop_cases hStart
    · exact Or.inl rfl
    · obtain ⟨hPossible, rfl⟩ := listen_eq_some hListen
      exact Or.inr (.listen a answers hAcceptor hPossible)
  have hStop : ∀ s : ServerQueue κ, s.stopInLoop.listener = s.listener ∨
      AcceptorLoop.Move s.listener s.stopInLoop.listener := by
    intro s
    unfold ServerQueue.stopInLoop
    split
    · cases hAcceptor : s.listener.acceptor with
      | none => exact Or.inl rfl
      | some a => exact Or.inr (.destroy a true hAcceptor)
    · exact Or.inl rfl
  cases label with
  | setThreadNum | start | stop | removeConnection | closeHere =>
      obtain rfl := Option.some.inj hStep
      exact Or.inl rfl
  | startHere answers => exact hStart hStep
  | stopHere =>
      obtain rfl := Option.some.inj hStep
      exact hStop s
  | newConnection conn fd =>
      obtain ⟨listener, hAccept, hNext⟩ := Option.bind_eq_some_iff.mp hStep
      obtain ⟨-, hNext⟩ := Option.ite_none_right_eq_some.mp hNext
      rw [← Option.some.inj hNext]
      exact Or.inr (AcceptorLoop.step_move hAccept)
  | listener label =>
      obtain ⟨-, hNext⟩ := Option.ite_none_right_eq_some.mp hStep
      obtain ⟨listener, hMoves, rfl⟩ := Option.map_eq_some_iff.mp hNext
      exact Or.inr (AcceptorLoop.step_move hMoves)
  | run answers =>
      simp only [step] at hStep
      split at hStep
      · cases hStep
      · next functor rest hQueue =>
        cases functor with
        | startInLoop =>
            have hBody : ServerQueue.startInLoop { s with queue := rest } answers = some s' := hStep
            have hMoves := hStart hBody
            exact hMoves
        | stopInLoop =>
            obtain rfl := Option.some.inj hStep
            exact hStop { s with queue := rest }
        | removeConnection conn =>
            obtain rfl := Option.some.inj hStep
            exact Or.inl rfl

/-- After `::listen` has failed on the bound socket, no `Start` makes the server run. -/
theorem not_started_of_boundInVain {s s' : ServerQueue κ} {labels : List (ServerStep κ)}
    (hAttached : Attached s) (hVain : AcceptorLoop.BoundInVain s.listener)
    (hRun : exec step s labels = some s') : s'.server.started = false := by
  have hInv : Attached s' ∧ AcceptorLoop.BoundInVain s'.listener := by
    refine exec_invariant (fun s => Attached s ∧ AcceptorLoop.BoundInVain s.listener) ?_
      ⟨hAttached, hVain⟩ hRun
    intro s label next hInv hStep
    refine ⟨step_attached s label next hInv.1 hStep, ?_⟩
    rcases step_listener hStep with hSame | hMove
    · rw [hSame]
      exact hInv.2
    · exact (hMove.boundInVain hInv.2).1
  rw [hInv.1.started_eq]
  exact hInv.2.2

/-! ## Runs -/

omit [DecidableEq κ] in
theorem Attached.startInLoop_flagsInv {s s' : ServerQueue κ} (hAttached : Attached s)
    (hInv : FlagsInv s.server) {answers : ListenAnswers}
    (hStart : s.startInLoop answers = some s')
    (hAlone : ∀ a, s.server.started = false → s.listener.acceptor = some a →
      (s.listener.listen a answers).isSome = true → (a.listen answers).2 = false →
      s.server.threadNum = 0) : FlagsInv s'.server := by
  rcases startInLoop_cases hStart with
    ⟨-, rfl⟩ | ⟨hStopped, a, listener, server, hAcceptor, hListen, hServer, rfl⟩
  · exact hInv
  · exact hInv.startInLoop hServer fun hFails _ _ =>
      hAlone a hStopped hAcceptor (by simp [hListen]) hFails

theorem step_flagsInv (s : ServerQueue κ) (label : ServerStep κ) (s' : ServerQueue κ)
    (hAttached : Attached s) (hInv : FlagsInv s.server) (hStep : step s label = some s')
    (hAlone : ListensOrAlone s label) : FlagsInv s'.server := by
  cases label with
  | setThreadNum threadNum =>
      obtain rfl := Option.some.inj hStep
      exact hInv.setThreadNum threadNum
  | start | stop | removeConnection conn =>
      obtain rfl := Option.some.inj hStep
      exact hInv
  | startHere answers =>
      exact hAttached.startInLoop_flagsInv hInv hStep fun a hStopped hAcceptor hPossible hFails =>
        (hAlone a answers ⟨rfl, hStopped, hAcceptor, hPossible, hFails⟩).1
  | stopHere =>
      obtain rfl := Option.some.inj hStep
      exact hInv.stopInLoop
  | closeHere conn =>
      obtain rfl := Option.some.inj hStep
      exact hInv.removeConnectionInLoop conn
  | newConnection conn fd =>
      obtain ⟨listener, hAccept, hNext⟩ := Option.bind_eq_some_iff.mp hStep
      obtain ⟨⟨hBefore, hHanded, -⟩, hNext⟩ := Option.ite_none_right_eq_some.mp hNext
      rw [← Option.some.inj hNext]
      exact .of_started (hAttached.started_of_hand hAccept hBefore hHanded)
  | listener label =>
      obtain ⟨-, hNext⟩ := Option.ite_none_right_eq_some.mp hStep
      obtain ⟨listener, -, rfl⟩ := Option.map_eq_some_iff.mp hNext
      exact hInv
  | run answers =>
      simp only [step] at hStep
      split at hStep
      · cases hStep
      · next functor rest hQueue =>
        have hPopped : Attached { s with queue := rest } :=
          ⟨hAttached.accounted, hAttached.acceptor_eq, hAttached.started_eq⟩
        cases functor with
        | startInLoop =>
            exact hPopped.startInLoop_flagsInv hInv hStep
              fun a hStopped hAcceptor hPossible hFails =>
                (hAlone a answers ⟨by simp [startAnswers, hQueue], hStopped, hAcceptor, hPossible,
                  hFails⟩).1
        | stopInLoop =>
            obtain rfl := Option.some.inj hStep
            exact hInv.stopInLoop
        | removeConnection conn =>
            obtain rfl := Option.some.inj hStep
            exact hInv.removeConnectionInLoop conn

/-- The step is the start: a `StartInLoop` whose `Listen` fails leaves what this says. -/
theorem step_of_fails {s : ServerQueue κ} {label : ServerStep κ} {a : Acceptor}
    {answers : ListenAnswers} (hAttached : Attached s) (hFails : s.FailsToListen label a answers) :
    ∃ server queue, s.server.startInLoop false = some server ∧
      step s label = some ⟨server, { s.listener with
        bound := s.listener.bound || a.reachesBind answers && answers.bind }, queue⟩ := by
  obtain ⟨hAnswers, hStopped, hAcceptor, hPossible, hFailed⟩ := hFails
  obtain ⟨listener, hListen⟩ := Option.isSome_iff_exists.mp hPossible
  obtain ⟨server, hServer⟩ := Option.ne_none_iff_exists'.mp
    (startInLoop_ne_none (hAttached.acceptor_eq.trans (by rw [hAcceptor]; rfl)) false)
  have hResult := AcceptorLoop.listen_result a answers
  rw [hFailed, eq_comm, Bool.or_eq_false_iff] at hResult
  -- Of the acceptor and the kernel only the bind is left.
  have hListener : listener = { s.listener with
      bound := s.listener.bound || a.reachesBind answers && answers.bind } := by
    rw [(listen_eq_some hListen).2, hResult.2, Bool.or_false]
    rcases AcceptorLoop.listen_cases a answers with ⟨hSame, -⟩ | ⟨channel, -, -, hDone, -⟩
    · rw [hSame, ← hAcceptor]
    · rw [hResult.2] at hDone
      cases hDone
  have hStart : ∀ queue, ({ s with queue := queue } : ServerQueue κ).startInLoop answers =
      some ⟨server, listener, queue⟩ := by
    intro queue
    simp [startInLoop, hStopped, hAcceptor, hListen, hFailed, hServer]
  rw [← hListener]
  cases label with
  | startHere given =>
      obtain rfl : given = answers := by simpa [startAnswers] using hAnswers
      exact ⟨server, s.queue, hServer, hStart s.queue⟩
  | run given =>
      obtain ⟨hHead, rfl⟩ : s.queue.head? = some .startInLoop ∧ given = answers := by
        simpa [startAnswers] using hAnswers
      obtain ⟨rest, hQueue⟩ := List.head?_eq_some_iff.mp hHead
      refine ⟨server, rest, hServer, ?_⟩
      simp only [step, hQueue]
      exact hStart rest
  | setThreadNum | start | stop | removeConnection | stopHere | closeHere | newConnection
  | listener => cases hAnswers

/-- A step leaves no trace of a failed start exactly when it meets the condition. -/
theorem listensOrAlone_iff (s : ServerQueue κ) (label : ServerStep κ)
    (hInv : Attached s ∧ FlagsInv s.server) :
    ListensOrAlone s label ↔ ∀ s', step s label = some s' → Traceless s label s' := by
  obtain ⟨hAttached, hFlags⟩ := hInv
  constructor
  · intro hAlone s' hStep
    refine ⟨(step_flagsInv s label s' hAttached hFlags hStep hAlone).sound, ?_⟩
    intro a answers hFails
    obtain ⟨hThreads, hNoBind⟩ := hAlone a answers hFails
    obtain ⟨server, queue, hServer, hNext⟩ := step_of_fails hAttached hFails
    obtain rfl := Option.some.inj (hNext.symm.trans hStep)
    refine ⟨startInLoop_failed (fun _ _ => hThreads) hServer, ?_⟩
    simp [hNoBind]
  · intro hTraceless a answers hFails
    obtain ⟨server, queue, hServer, hNext⟩ := step_of_fails hAttached hFails
    obtain ⟨hSameServer, hSameListener⟩ := (hTraceless _ hNext).2 a answers hFails
    constructor
    · by_contra hThreads
      -- The pool that is left was not there before.
      obtain ⟨-, -, hPool⟩ := startInLoop_leaves_pool hServer hFails.stopped hThreads
      have hAcceptor : s.server.acceptor = true :=
        hAttached.acceptor_eq.trans (by rw [hFails.acceptor_eq]; rfl)
      have hSame : server = s.server := hSameServer
      rw [hSame, (hFlags.sound hFails.stopped (hFlags.fresh hFails.stopped hAcceptor)).2] at hPool
      cases hPool
    · by_contra hBound
      rw [Bool.not_eq_false] at hBound
      obtain ⟨listener, hListen⟩ := Option.isSome_iff_exists.mp hFails.possible
      have hBefore : s.listener.bound = true := by
        have hSame := congrArg AcceptorLoop.bound hSameListener
        simpa [hBound] using hSame.symm
      rw [Bool.and_eq_true] at hBound
      exact (listen_eq_some hListen).1 ⟨hBound.2, hBefore, hBound.1⟩

/-- `IsFullyStopped` is sound in all states of a run, and every failed start leaves the
server, its acceptor and the listening socket as they were, exactly when no `StartInLoop`
with worker threads to start has a `Listen` that fails, and none has a `Listen` that binds
the socket and fails. -/
theorem fullyStoppedSound_iff_listensOrAlone (threadNum : Nat) (listenAddr : InetAddress)
    (answer : Int) (labels : List (ServerStep κ)) :
    ((∀ pre s, pre <+: labels → exec step (new threadNum listenAddr answer) pre = some s →
        FullyStoppedSound s.server) ∧
      ∀ pre label s s', pre ++ [label] <+: labels →
        exec step (new threadNum listenAddr answer) pre = some s → step s label = some s' →
        ∀ a answers, s.FailsToListen label a answers →
          s'.server = s.server ∧ s'.listener = s.listener) ↔
    Meets step ListensOrAlone (new threadNum listenAddr answer : ServerQueue κ) labels := by
  have hNew : Attached (new threadNum listenAddr answer : ServerQueue κ) ∧
      FlagsInv (new threadNum listenAddr answer : ServerQueue κ).server :=
    ⟨new_attached threadNum listenAddr answer, new_flagsInv threadNum⟩
  have hKeep : ∀ (s : ServerQueue κ) label s', Attached s ∧ FlagsInv s.server →
      step s label = some s' → ListensOrAlone s label → Attached s' ∧ FlagsInv s'.server :=
    fun s label s' hInv hStep hAlone => ⟨step_attached s label s' hInv.1 hStep,
      step_flagsInv s label s' hInv.1 hInv.2 hStep hAlone⟩
  have hIff := forall_step_iff_meets _ Traceless hKeep listensOrAlone_iff hNew labels
  constructor
  · rintro ⟨hSound, hSame⟩
    refine hIff.mp fun pre label s s' hPart hRun hStep =>
      ⟨?_, hSame pre label s s' hPart hRun hStep⟩
    exact hSound (pre ++ [label]) s' hPart
      (exec_append_eq_some hRun (exec_cons_eq_some.mpr ⟨s', hStep, rfl⟩))
  · intro hMeets
    refine ⟨?_, fun pre label s s' hPart hRun hStep =>
      (hIff.mpr hMeets pre label s s' hPart hRun hStep).2⟩
    rintro pre s ⟨rest, rfl⟩ hRun
    have hHolds := exec_invariant_of_meets _
      (fun s label s' hInv hOk hStep => hKeep s label s' hInv hStep hOk) hNew hMeets.of_append hRun
    exact hHolds.2.sound

/-- Every call succeeds but `::bind`. -/
def addressInUse : ListenAnswers := ⟨true, true, false, true, none⟩

/-- Every call succeeds but `::listen`. -/
def listenRefused : ListenAnswers := ⟨true, true, true, false, none⟩

/-- The first `Start` of a server with one worker thread finds its port in use. -/
def portInUse : List (ServerStep Unit) := [.setThreadNum 1, .start, .run addressInUse]

/-- The server does not run, counts as fully stopped, and has a thread pool.  A server
without worker threads whose `::listen` fails keeps a bound socket. -/
theorem not_fullyStoppedSound_portInUse :
    (∃ s, exec step (new 0 InetAddress.new 3) portInUse = some s ∧ s.server.started = false ∧
      s.server.stopComplete = true ∧ s.server.threadPool = true ∧
      ¬ FullyStoppedSound s.server) ∧
    ∃ s : ServerQueue Unit, step (new 0 InetAddress.new 3) (.startHere listenRefused) = some s ∧
      s.server = (new 0 InetAddress.new 3 : ServerQueue Unit).server ∧
      (new 0 InetAddress.new 3 : ServerQueue Unit).listener.bound = false ∧
      s.listener.bound = true := by
  refine ⟨⟨_, rfl, rfl, rfl, rfl, ?_⟩, ⟨_, rfl, rfl, rfl, rfl⟩⟩
  intro hSound
  cases (hSound rfl rfl).2

end ServerQueue
end SolarNet
