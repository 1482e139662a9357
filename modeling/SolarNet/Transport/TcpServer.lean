import SolarNet.Lib.Run

/-!
# `TcpServer`: the members of the main loop, and `Start` and `Stop`

The first part of the file has the functions of
`solar_net/net/transport/tcp_server.cpp` over the members that only the main loop
changes.

The second part is about requests.  A thread other than the loop thread calls
`Start` and `Stop`.  Each call reads `m_started` and then, if the request seems to
be of use, queues `StartInLoop` or `StopInLoop`; the loop runs the queued functors
in order.  So a request is judged by a state that earlier requests have not reached
yet, and `StopInLoop` destroys the acceptor that `StartInLoop` needs.  The result
says exactly which requests are honoured.
-/

namespace SolarNet

open Lib

/-- The members of a `TcpServer`.  The connections of `m_connections` are listed in
some order. -/
structure TcpServer (κ : Type*) where
  started : Bool
  stopComplete : Bool
  /-- `m_acceptor` is not null. -/
  acceptor : Bool
  /-- `m_thread_pool` is not null. -/
  threadPool : Bool
  threadNum : Nat
  connections : List κ
  deriving DecidableEq, Repr

namespace TcpServer

variable {κ : Type*}

/-- The constructor, and `SetThreadNum`. -/
def new (threadNum : Nat) : TcpServer κ where
  started := false
  stopComplete := true
  acceptor := true
  threadPool := false
  threadNum := threadNum
  connections := []

/-- `SetThreadNum`, which a running server ignores. -/
def setThreadNum (s : TcpServer κ) (threadNum : Nat) : TcpServer κ :=
  if s.started then s else { s with threadNum := threadNum }

/-- `StartInLoop`, with the answer of `Listen`; `none` is the use of a null `m_acceptor`.
What `Listen` does to the acceptor and to its socket is in `SolarNet.Transport.FullyStopped`. -/
def startInLoop (s : TcpServer κ) (listens : Bool) : Option (TcpServer κ) :=
  if s.started then some s
  else
    let s := if 0 < s.threadNum then { s with threadPool := true } else s
    if !s.acceptor then none
    else if !listens then some s
    else some { s with started := true, stopComplete := false }

def stopThreadPoolInLoop (s : TcpServer κ) : TcpServer κ :=
  { s with threadPool := false, stopComplete := true }

/-- `StopInLoop` up to the loop that calls `ForceClose` on every connection. -/
def stopInLoop (s : TcpServer κ) : TcpServer κ :=
  if !s.started then s
  else
    let s := { s with started := false, acceptor := false }
    if s.connections.isEmpty then s.stopThreadPoolInLoop
    else { s with stopComplete := false }

/-- `RemoveConnectionInLoop`, without the `ConnectDestroyed` that it posts. -/
def removeConnectionInLoop [DecidableEq κ] (s : TcpServer κ) (conn : κ) : TcpServer κ :=
  if (s.connections.erase conn).isEmpty && !s.started then
    { s with connections := s.connections.erase conn }.stopThreadPoolInLoop
  else { s with connections := s.connections.erase conn }

/-- `RemoveConnectionInLoop` changes the table and, at the end of a stop, the thread
pool. -/
theorem removeConnectionInLoop_frame [DecidableEq κ] (s : TcpServer κ) (conn : κ) :
    (s.removeConnectionInLoop conn).connections = s.connections.erase conn ∧
      (s.removeConnectionInLoop conn).started = s.started ∧
      (s.removeConnectionInLoop conn).acceptor = s.acceptor := by
  unfold removeConnectionInLoop stopThreadPoolInLoop
  split
  · exact ⟨rfl, rfl, rfl⟩
  · exact ⟨rfl, rfl, rfl⟩

/-- The last removal after a stop completes the stop. -/
theorem removeConnectionInLoop_complete [DecidableEq κ] (s : TcpServer κ) (conn : κ)
    (hStopped : (s.removeConnectionInLoop conn).started = false)
    (hEmpty : (s.removeConnectionInLoop conn).connections = []) :
    (s.removeConnectionInLoop conn).stopComplete = true := by
  obtain ⟨hTable, hStarted, -⟩ := s.removeConnectionInLoop_frame conn
  rw [hStarted] at hStopped
  rw [hTable] at hEmpty
  simp [removeConnectionInLoop, stopThreadPoolInLoop, hStopped, hEmpty]

/-- A server that runs does not run after `StopInLoop`, and has no acceptor. -/
theorem stopInLoop_frame (s : TcpServer κ) :
    s.stopInLoop.connections = s.connections ∧ s.stopInLoop.started = false ∧
      (s.started = true → s.stopInLoop.acceptor = false) ∧
      (s.started = false → s.stopInLoop = s) := by
  unfold stopInLoop stopThreadPoolInLoop
  by_cases hStarted : s.started = true
  · by_cases hEmpty : s.connections.isEmpty = true <;> simp [hStarted, hEmpty]
  · simp [hStarted]

/-- A stop without connections is complete at once. -/
theorem stopInLoop_complete (s : TcpServer κ) (hStarted : s.started = true)
    (hEmpty : s.connections = []) : s.stopInLoop.stopComplete = true := by
  simp [stopInLoop, stopThreadPoolInLoop, hStarted, hEmpty]

end TcpServer

/-! ## Requests -/

inductive Request where
  | start
  | stop
  deriving DecidableEq, Repr

/-- A server without connections, the functors that wait in its loop, the call that
has read `m_started` and not queued its functor yet, and the last request. -/
structure ServerControl (κ : Type*) where
  server : TcpServer κ
  queue : List Request
  calling : Option Request
  last : Option Request
  deriving DecidableEq, Repr

inductive ControlLabel where
  /-- The thread calls `Start` or `Stop`, which reads `m_started`. -/
  | call (request : Request)
  /-- The call queues its functor. -/
  | post
  /-- The loop runs the next functor. -/
  | run
  deriving DecidableEq, Repr

namespace ServerControl

variable {κ : Type*}

def new (threadNum : Nat) : ServerControl κ where
  server := TcpServer.new threadNum
  queue := []
  calling := none
  last := none

/-- The test of `Start` and `Stop`. -/
def useful (started : Bool) : Request → Bool
  | .start => !started
  | .stop => started

/-- A functor of the loop.  `Listen` succeeds. -/
def runFunctor (s : TcpServer κ) : Request → Option (TcpServer κ)
  | .start => s.startInLoop true
  | .stop => some s.stopInLoop

def step (s : ServerControl κ) : ControlLabel → Option (ServerControl κ)
  | .call request =>
      if s.calling.isNone then
        some { s with
          calling := if useful s.server.started request then some request else none
          last := some request }
      else none
  | .post =>
      s.calling.map fun request =>
        { s with queue := s.queue ++ [request], calling := none }
  | .run =>
      match s.queue with
      | [] => none
      | request :: rest =>
          (runFunctor s.server request).map fun server =>
            { s with server := server, queue := rest }

/-- What is left to be done when no further request comes. -/
def pending (s : ServerControl κ) : List Request := s.queue ++ s.calling.toList

/-- The call in progress ends, and the loop drains its queue. -/
def drainLabels (s : ServerControl κ) : List ControlLabel :=
  (s.calling.toList.map fun _ => .post) ++ s.pending.map fun _ => .run

/-- The requests made so far are honoured: draining the queue uses no null acceptor,
and then the server runs exactly if the last request was `Start`. -/
def Honoured (s : ServerControl κ) : Prop :=
  ∃ s', exec step s s.drainLabels = some s' ∧
    s'.server.started = decide (s.last = some .start)

/-- The request is in order: `Start` is not called after a `StopInLoop` or while one
is waiting, and `Stop` is not called while a `StartInLoop` is waiting to start the
server. -/
def InOrder (s : ServerControl κ) : ControlLabel → Prop
  | .call .start =>
      s.calling = none →
        if s.server.started then .stop ∉ s.queue else s.server.acceptor = true
  | .call .stop => s.calling = none → s.server.started = false → .start ∉ s.queue
  | _ => True

/-! ## Draining -/

theorem exec_runs (s : ServerControl κ) (queue : List Request) :
    exec step { s with queue := queue } (queue.map fun _ => .run) =
      (queue.foldlM runFunctor s.server).map fun server =>
        { s with server := server, queue := [] } := by
  induction queue generalizing s with
  | nil => rfl
  | cons request rest ih =>
      rw [List.map_cons, exec_cons, List.foldlM_cons]
      cases hRun : runFunctor s.server request with
      | none => simp [step, hRun]
      | some server =>
          have hRest := ih { s with server := server }
          simpa [step, hRun] using hRest

/-- Draining runs what is pending. -/
theorem exec_drain (s : ServerControl κ) :
    exec step s s.drainLabels =
      (s.pending.foldlM runFunctor s.server).map fun server =>
        { s with server := server, queue := [], calling := none } := by
  obtain ⟨server, queue, calling, last⟩ := s
  cases calling with
  | none =>
      have hRuns := exec_runs (⟨server, queue, none, last⟩ : ServerControl κ) queue
      simpa [drainLabels, pending] using hRuns
  | some request =>
      have hRuns :=
        exec_runs (⟨server, queue, none, last⟩ : ServerControl κ) (queue ++ [request])
      simpa [drainLabels, pending, step] using hRuns

theorem honoured_iff (s : ServerControl κ) :
    Honoured s ↔ ∃ server, s.pending.foldlM runFunctor s.server = some server ∧
      server.started = decide (s.last = some .start) := by
  unfold Honoured
  rw [exec_drain]
  constructor
  · rintro ⟨s', hRun, hStarted⟩
    obtain ⟨server, hServer, rfl⟩ := Option.map_eq_some_iff.mp hRun
    exact ⟨server, hServer, hStarted⟩
  · rintro ⟨server, hServer, hStarted⟩
    exact ⟨_, by rw [hServer]; rfl, hStarted⟩

/-- A server that runs ignores `StartInLoop`. -/
theorem foldlM_starts {s : TcpServer κ} (hStarted : s.started = true) (n : Nat) :
    (List.replicate n Request.start).foldlM runFunctor s = some s := by
  induction n with
  | zero => rfl
  | succ n ih =>
      rw [List.replicate_succ, List.foldlM_cons]
      simpa [runFunctor, TcpServer.startInLoop, hStarted] using ih

/-- A server that does not run ignores `StopInLoop`. -/
theorem foldlM_stops {s : TcpServer κ} (hStarted : s.started = false) (n : Nat) :
    (List.replicate n Request.stop).foldlM runFunctor s = some s := by
  induction n with
  | zero => rfl
  | succ n ih =>
      rw [List.replicate_succ, List.foldlM_cons]
      simpa [runFunctor, TcpServer.stopInLoop, hStarted] using ih

theorem startInLoop_of_acceptor {s : TcpServer κ} (hStarted : s.started = false)
    (hAcceptor : s.acceptor = true) :
    ∃ s', s.startInLoop true = some s' ∧ s'.started = true := by
  unfold TcpServer.startInLoop
  by_cases hPool : 0 < s.threadNum
  · exact ⟨{ s with threadPool := true, started := true, stopComplete := false },
      by simp [hStarted, hPool, hAcceptor], rfl⟩
  · exact ⟨{ s with started := true, stopComplete := false },
      by simp [hStarted, hPool, hAcceptor], rfl⟩

theorem startInLoop_null {s : TcpServer κ} (hStarted : s.started = false)
    (hAcceptor : s.acceptor = false) : s.startInLoop true = none := by
  unfold TcpServer.startInLoop
  by_cases hPool : 0 < s.threadNum <;> simp [hStarted, hPool, hAcceptor]

/-! ## The life of a server whose requests are in order -/

/-- Before the first `StartInLoop` only starts are pending; while the server runs,
starts that came twice and then stops; after `StopInLoop` only stops. -/
inductive Phase (s : ServerControl κ) : Prop
  | ready (starts : Nat) (hStarted : s.server.started = false)
      (hAcceptor : s.server.acceptor = true)
      (hPending : s.pending = List.replicate starts .start)
      (hLast : starts = 0 ↔ s.last ≠ some .start)
  | running (starts stops : Nat) (hStarted : s.server.started = true)
      (hPending : s.pending = List.replicate starts .start ++ List.replicate stops .stop)
      (hLast : stops = 0 ↔ s.last = some .start)
  | stopped (stops : Nat) (hStarted : s.server.started = false)
      (hAcceptor : s.server.acceptor = false)
      (hPending : s.pending = List.replicate stops .stop)
      (hLast : s.last ≠ some .start)

theorem new_phase (threadNum : Nat) : Phase (new threadNum : ServerControl κ) :=
  .ready 0 rfl rfl rfl (by simp [new])

/-- Pending starts start a server that has its acceptor. -/
theorem foldlM_ready {s : TcpServer κ} (hStarted : s.started = false)
    (hAcceptor : s.acceptor = true) (starts : Nat) :
    ∃ s', (List.replicate starts Request.start).foldlM runFunctor s = some s' ∧
      s'.started = decide (starts ≠ 0) := by
  cases starts with
  | zero => exact ⟨s, rfl, by simpa using hStarted⟩
  | succ n =>
      obtain ⟨s', hStart, hRunning⟩ := startInLoop_of_acceptor hStarted hAcceptor
      refine ⟨s', ?_, by simpa using hRunning⟩
      rw [List.replicate_succ, List.foldlM_cons]
      simpa [runFunctor, hStart] using foldlM_starts hRunning n

/-- A running server stops if a stop is pending. -/
theorem foldlM_running {s : TcpServer κ} (hStarted : s.started = true) (starts stops : Nat) :
    ∃ s', (List.replicate starts Request.start ++ List.replicate stops Request.stop).foldlM
        runFunctor s = some s' ∧ s'.started = decide (stops = 0) := by
  rw [List.foldlM_append, foldlM_starts hStarted]
  cases stops with
  | zero => exact ⟨s, rfl, by simpa using hStarted⟩
  | succ n =>
      obtain ⟨-, hStopped, -⟩ := s.stopInLoop_frame
      refine ⟨s.stopInLoop, ?_, by simpa using hStopped⟩
      have hRest := foldlM_stops hStopped n
      simpa [List.replicate_succ, runFunctor] using hRest

theorem Phase.honoured {s : ServerControl κ} (hPhase : Phase s) : Honoured s := by
  rw [honoured_iff]
  cases hPhase with
  | ready starts hStarted hAcceptor hPending hLast =>
      obtain ⟨server, hRun, hEnd⟩ := foldlM_ready hStarted hAcceptor starts
      refine ⟨server, by rw [hPending, hRun], ?_⟩
      rw [hEnd]
      by_cases hNone : starts = 0
      · simp [hNone, hLast.mp hNone]
      · have hStart : s.last = some .start := by
          by_contra hOther
          exact hNone (hLast.mpr hOther)
        simp [hNone, hStart]
  | running starts stops hStarted hPending hLast =>
      obtain ⟨server, hRun, hEnd⟩ := foldlM_running hStarted starts stops
      refine ⟨server, by rw [hPending, hRun], ?_⟩
      rw [hEnd]
      simp [hLast]
  | stopped stops hStarted hAcceptor hPending hLast =>
      refine ⟨s.server, ?_, by simp [hStarted, hLast]⟩
      rw [hPending]
      exact foldlM_stops hStarted stops

/-! ## Steps -/

theorem pending_of_idle {s : ServerControl κ} (hIdle : s.calling = none) :
    s.pending = s.queue := by
  simp [pending, hIdle]

/-- A call that passes its test adds to what is pending; one that does not pass leaves
no trace but the request. -/
theorem call_spec {s s' : ServerControl κ} {request : Request}
    (hStep : step s (.call request) = some s') :
    s.calling = none ∧ s'.server = s.server ∧ s'.last = some request ∧
      s'.pending = s.pending ++ if useful s.server.started request then [request] else [] := by
  simp only [step, Option.ite_none_right_eq_some, Option.some.injEq, Option.isNone_iff_eq_none]
    at hStep
  obtain ⟨hIdle, rfl⟩ := hStep
  refine ⟨hIdle, rfl, rfl, ?_⟩
  by_cases hUseful : useful s.server.started request = true <;> simp [pending, hIdle, hUseful]

theorem post_spec {s s' : ServerControl κ} (hStep : step s .post = some s') :
    s'.server = s.server ∧ s'.last = s.last ∧ s'.pending = s.pending := by
  obtain ⟨request, hCalling, rfl⟩ := Option.map_eq_some_iff.mp hStep
  exact ⟨rfl, rfl, by simp [pending, hCalling]⟩

/-- The loop runs the first of the pending functors. -/
theorem run_spec {s s' : ServerControl κ} (hStep : step s .run = some s') :
    ∃ request, s.pending = request :: s'.pending ∧
      runFunctor s.server request = some s'.server ∧ s'.last = s.last := by
  simp only [step] at hStep
  split at hStep
  · cases hStep
  · next request rest hQueue =>
    obtain ⟨server, hServer, rfl⟩ := Option.map_eq_some_iff.mp hStep
    exact ⟨request, by simp [pending, hQueue], hServer, rfl⟩

theorem Phase.call {s s' : ServerControl κ} (hPhase : Phase s) {request : Request}
    (hStep : step s (.call request) = some s') (hOrder : InOrder s (.call request)) :
    Phase s' := by
  obtain ⟨hIdle, hServer, hLast', hPending'⟩ := call_spec hStep
  have hQueue := pending_of_idle hIdle
  cases hPhase with
  | ready starts hStarted hAcceptor hPending hLast =>
      cases request with
      | start =>
          refine .ready (starts + 1) (by rw [hServer, hStarted]) (by rw [hServer, hAcceptor]) ?_
            (by simp [hLast'])
          rw [hPending', hPending, hStarted, List.replicate_succ']
          rfl
      | stop =>
          -- No start is pending, so the stop may be dropped.
          have hNone : starts = 0 := by
            by_contra hSome
            apply hOrder hIdle hStarted
            rw [← hQueue, hPending]
            exact List.mem_replicate.mpr ⟨hSome, rfl⟩
          refine .ready 0 (by rw [hServer, hStarted]) (by rw [hServer, hAcceptor]) ?_
            (by simp [hLast'])
          rw [hPending', hPending, hNone, hStarted]
          rfl
  | running starts stops hStarted hPending hLast =>
      cases request with
      | start =>
          -- No stop is pending, so the server keeps running.
          have hNone : stops = 0 := by
            by_contra hSome
            have hNot := hOrder hIdle
            rw [if_pos hStarted, ← hQueue, hPending] at hNot
            exact hNot (List.mem_append_right _ (List.mem_replicate.mpr ⟨hSome, rfl⟩))
          refine .running starts 0 (by rw [hServer, hStarted]) ?_ (by simp [hLast'])
          rw [hPending', hPending, hNone, hStarted]
          simp [useful]
      | stop =>
          refine .running starts (stops + 1) (by rw [hServer, hStarted]) ?_ (by simp [hLast'])
          rw [hPending', hPending, hStarted, List.append_assoc, List.replicate_succ']
          rfl
  | stopped stops hStarted hAcceptor hPending hLast =>
      cases request with
      | start =>
          -- The acceptor is gone for good.
          have hNot := hOrder hIdle
          simp [hStarted, hAcceptor] at hNot
      | stop =>
          refine .stopped stops (by rw [hServer, hStarted]) (by rw [hServer, hAcceptor]) ?_
            (by simp [hLast'])
          rw [hPending', hPending, hStarted]
          simp [useful]

theorem Phase.run {s s' : ServerControl κ} (hPhase : Phase s)
    (hStep : step s .run = some s') : Phase s' := by
  obtain ⟨request, hHead, hRun, hLast'⟩ := run_spec hStep
  cases hPhase with
  | ready starts hStarted hAcceptor hPending hLast =>
      rw [hPending] at hHead
      cases starts with
      | zero => cases hHead
      | succ n =>
          obtain ⟨rfl, hRest⟩ : Request.start = request ∧
              List.replicate n Request.start = s'.pending := by
            simpa [List.replicate_succ] using hHead
          -- The first start takes effect, and the others find a running server.
          obtain ⟨server, hStart, hRunning⟩ := startInLoop_of_acceptor hStarted hAcceptor
          obtain rfl : server = s'.server := Option.some.inj (hStart.symm.trans hRun)
          refine .running n 0 hRunning (by simpa using hRest.symm) ?_
          rw [hLast']
          by_contra hOther
          have hZero := hLast.mpr (by simpa using hOther)
          omega
  | running starts stops hStarted hPending hLast =>
      rw [hPending] at hHead
      cases starts with
      | succ n =>
          obtain ⟨rfl, hRest⟩ : Request.start = request ∧
              List.replicate n Request.start ++ List.replicate stops Request.stop =
                s'.pending := by
            simpa [List.replicate_succ] using hHead
          have hSame : s'.server = s.server := by
            simpa [runFunctor, TcpServer.startInLoop, hStarted] using hRun.symm
          exact .running n stops (by rw [hSame, hStarted]) hRest.symm (by rw [hLast', hLast])
      | zero =>
          cases stops with
          | zero => cases hHead
          | succ n =>
              obtain ⟨rfl, hRest⟩ : Request.stop = request ∧
                  List.replicate n Request.stop = s'.pending := by
                simpa [List.replicate_succ] using hHead
              -- The first stop takes effect and destroys the acceptor.
              have hServer : s.server.stopInLoop = s'.server := Option.some.inj hRun
              obtain ⟨-, hStopped, hNull, -⟩ := s.server.stopInLoop_frame
              rw [hServer] at hStopped hNull
              refine .stopped n hStopped (hNull hStarted) hRest.symm ?_
              rw [hLast']
              intro hStart
              have hZero := hLast.mpr hStart
              omega
  | stopped stops hStarted hAcceptor hPending hLast =>
      rw [hPending] at hHead
      cases stops with
      | zero => cases hHead
      | succ n =>
          obtain ⟨rfl, hRest⟩ : Request.stop = request ∧
              List.replicate n Request.stop = s'.pending := by
            simpa [List.replicate_succ] using hHead
          have hSame : s'.server = s.server := by
            simpa [runFunctor, TcpServer.stopInLoop, hStarted] using hRun.symm
          exact .stopped n (by rw [hSame, hStarted]) (by rw [hSame, hAcceptor]) hRest.symm
            (by rw [hLast']; exact hLast)

theorem step_phase (s : ServerControl κ) (label : ControlLabel) (s' : ServerControl κ)
    (hPhase : Phase s) (hStep : step s label = some s') (hOrder : InOrder s label) :
    Phase s' := by
  cases label with
  | call request => exact hPhase.call hStep hOrder
  | post =>
      obtain ⟨hServer, hLast, hPending⟩ := post_spec hStep
      cases hPhase with
      | ready starts hStarted hAcceptor hOld hOldLast =>
          exact .ready starts (by rw [hServer, hStarted]) (by rw [hServer, hAcceptor])
            (by rw [hPending, hOld]) (by rw [hLast, hOldLast])
      | running starts stops hStarted hOld hOldLast =>
          exact .running starts stops (by rw [hServer, hStarted]) (by rw [hPending, hOld])
            (by rw [hLast, hOldLast])
      | stopped stops hStarted hAcceptor hOld hOldLast =>
          exact .stopped stops (by rw [hServer, hStarted]) (by rw [hServer, hAcceptor])
            (by rw [hPending, hOld]) (by rw [hLast]; exact hOldLast)
  | run => exact hPhase.run hStep

/-- A request that is out of order is not honoured, even if no other one follows. -/
theorem inOrder_of_honoured (s : ServerControl κ) (label : ControlLabel)
    (s' : ServerControl κ) (hPhase : Phase s) (hStep : step s label = some s')
    (hHonoured : Honoured s') : InOrder s label := by
  cases label with
  | post => trivial
  | run => trivial
  | call request =>
      obtain ⟨hIdle, hServer, hLast', hPending'⟩ := call_spec hStep
      have hQueue := pending_of_idle hIdle
      obtain ⟨server, hRun, hEnd⟩ := (honoured_iff s').mp hHonoured
      rw [hServer, hPending'] at hRun
      rw [hLast'] at hEnd
      cases hPhase with
      | ready starts hStarted hAcceptor hPending hLast =>
          cases request with
          | start =>
              intro _
              simp [hStarted, hAcceptor]
          | stop =>
              intro _ _ hMem
              rw [← hQueue, hPending] at hMem
              have hSome := (List.mem_replicate.mp hMem).1
              -- The dropped stop leaves the pending start in place.
              obtain ⟨final, hFinal, hRunning⟩ := foldlM_ready hStarted hAcceptor starts
              rw [hPending, hStarted] at hRun
              simp only [useful, Bool.false_eq_true, if_false, List.append_nil] at hRun
              obtain rfl := Option.some.inj (hFinal.symm.trans hRun)
              simp [hRunning, hSome] at hEnd
      | running starts stops hStarted hPending hLast =>
          cases request with
          | start =>
              intro _
              rw [if_pos hStarted]
              intro hMem
              rw [← hQueue, hPending] at hMem
              have hSome : stops ≠ 0 := by
                rcases List.mem_append.mp hMem with hLeft | hRight
                · cases (List.mem_replicate.mp hLeft).2
                · exact (List.mem_replicate.mp hRight).1
              -- The dropped start does not undo the pending stop.
              obtain ⟨final, hFinal, hStopped⟩ := foldlM_running hStarted starts stops
              rw [hPending, hStarted] at hRun
              simp only [useful, Bool.not_true, Bool.false_eq_true, if_false,
                List.append_nil] at hRun
              obtain rfl := Option.some.inj (hFinal.symm.trans hRun)
              simp [hStopped, hSome] at hEnd
          | stop =>
              intro _ hNot
              rw [hStarted] at hNot
              cases hNot
      | stopped stops hStarted hAcceptor hPending hLast =>
          cases request with
          | start =>
              -- The start is queued and will use the null acceptor.
              rw [hPending, hStarted] at hRun
              simp only [useful, Bool.not_false, if_true, List.foldlM_append] at hRun
              rw [foldlM_stops hStarted] at hRun
              simp [runFunctor, startInLoop_null hStarted hAcceptor] at hRun
          | stop =>
              intro _ _ hMem
              rw [← hQueue, hPending] at hMem
              cases (List.mem_replicate.mp hMem).2

/-- The requests are honoured after every part of a run exactly when each of them is
in order. -/
theorem honoured_iff_inOrder (threadNum : Nat) (labels : List ControlLabel) :
    (∀ pre s, pre <+: labels →
      exec step (new threadNum : ServerControl κ) pre = some s → Honoured s) ↔
    Meets step InOrder (new threadNum : ServerControl κ) labels := by
  refine forall_prefix_iff_meets Phase Honoured (fun _ => Phase.honoured) ?_ step_phase
    inOrder_of_honoured (new_phase threadNum) labels
  intro s label _ hStep
  cases label with
  | post => trivial
  | run => trivial
  | call request =>
      -- The thread makes one call after the other.
      have hBusy : s.calling ≠ none := by
        intro hIdle
        simp [step, hIdle] at hStep
      cases request with
      | start => exact fun hIdle => absurd hIdle hBusy
      | stop => exact fun hIdle => absurd hIdle hBusy

/-- A `Stop` that comes before the loop has run `StartInLoop` is dropped: the server
ends up running although the last request was `Stop`. -/
theorem not_honoured_stop_before_startInLoop :
    ∃ s, exec step (new 0 : ServerControl Empty) [.call .start, .post, .call .stop] = some s ∧
      ¬ Honoured s := by
  refine ⟨_, rfl, ?_⟩
  rintro ⟨s', hRun, hStarted⟩
  obtain rfl := Option.some.inj hRun
  cases hStarted

end ServerControl
end SolarNet
