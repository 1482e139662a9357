import SolarNet.Transport.ConnectionBatch
import SolarNet.Transport.FullyStopped
import SolarNet.Transport.PoolRefinement

/-!
# The models of a server

`StopInLoop`, `RemoveConnectionInLoop` and `HandleClose` occur in several models of a server,
each of which cuts them where its question needs it.  The members of the server change in all
of them by the calls of `TcpServer.call`, and in no other way: here this is shown of the worker
loops, of the thread pool, of the requests, of the server with its acceptor, and of a single
loop, as it is shown of the main loop in `SolarNet.Transport.ServerMain`.  So what holds of
the calls holds in the runs of all models.
-/

namespace SolarNet

open Lib

/-! ## The worker loops -/

namespace ServerLoops

open TcpServer

variable {κ ω : Type*} [DecidableEq κ] [DecidableEq ω] {home : κ → Option ω}
  {s s' : ServerLoops κ ω}

omit [DecidableEq ω] in
theorem closeHere_calls (s : ServerLoops κ ω) (conn : κ) :
    Calls s.server (s.closeHere conn).server := by
  unfold closeHere
  split
  · exact .removeConnectionInLoop s.server conn
  · exact .refl s.server

theorem newConnection_server (s : ServerLoops κ ω) (conn : κ) :
    (s.newConnection home conn).server =
      { s.server with connections := s.server.connections ++ [conn] } := by
  unfold newConnection
  split <;> rfl

theorem removeConnection_server (s : ServerLoops κ ω) (conn : κ) :
    (s.removeConnection home conn).server = s.server.removeConnectionInLoop conn := by
  unfold removeConnection
  dsimp only
  split <;> rfl

theorem stopStep_calls (hStep : s.stopStep home = some s') : Calls s.server s'.server := by
  unfold stopStep at hStep
  split at hStep
  · cases hStep
  · obtain rfl := Option.some.inj hStep
    exact .refl s.server
  · obtain rfl := Option.some.inj hStep
    exact .refl s.server
  · obtain rfl := Option.some.inj hStep
    exact .refl s.server
  · next conn rest hPc =>
    dsimp only at hStep
    split at hStep
    · obtain rfl := Option.some.inj hStep
      exact .refl s.server
    · -- A connection of the main loop is removed in place.
      obtain rfl := Option.some.inj hStep
      exact closeHere_calls { s with mainPc := .closing rest } conn

theorem runMain_calls {order : List κ} (hStep : s.runMain home order = some s') :
    Calls s.server s'.server := by
  unfold runMain at hStep
  split at hStep
  · obtain ⟨-, hNext⟩ := Option.ite_none_right_eq_some.mp hStep
    obtain rfl := Option.some.inj hNext
    exact .stopInLoop s.server
  · next conn rest hPc hQueue =>
    obtain rfl := Option.some.inj hStep
    rw [removeConnection_server]
    exact .removeConnectionInLoop s.server conn
  · cases hStep

/-- A worker does not touch the server. -/
theorem runWorker_server {worker : ω} (hStep : s.runWorker worker = some s') :
    s'.server = s.server := by
  unfold runWorker at hStep
  split at hStep
  · dsimp only at hStep
    split at hStep <;> (obtain rfl := Option.some.inj hStep; first | rfl | (split <;> rfl))
  · cases hStep

theorem step_calls (s : ServerLoops κ ω) (label : ServerLabel κ ω) (s' : ServerLoops κ ω)
    (hStep : step home s label = some s') : Calls s.server s'.server := by
  cases label with
  | newConnection conn =>
      obtain ⟨⟨-, hAcceptor, -⟩, hNext⟩ := Option.ite_none_right_eq_some.mp hStep
      obtain rfl := Option.some.inj hNext
      rw [newConnection_server]
      exact .newConnection hAcceptor conn
  | stop =>
      obtain rfl := Option.some.inj hStep
      exact .refl s.server
  | stopHere order =>
      obtain ⟨-, hNext⟩ := Option.ite_none_right_eq_some.mp hStep
      obtain rfl := Option.some.inj hNext
      exact .stopInLoop s.server
  | runMain order => exact runMain_calls hStep
  | stopStep => exact stopStep_calls hStep
  | closeHere conn =>
      simp only [step] at hStep
      split at hStep
      · obtain rfl := Option.some.inj hStep
        exact closeHere_calls s conn
      · obtain rfl := Option.some.inj hStep
        exact closeHere_calls s conn
      · cases hStep
  | shutdownInLoop conn =>
      obtain ⟨-, hNext⟩ := Option.ite_none_right_eq_some.mp hStep
      obtain rfl := Option.some.inj hNext
      exact .refl s.server
  | forceClose conn =>
      simp only [step] at hStep
      split at hStep
      · obtain ⟨-, hNext⟩ := Option.ite_none_right_eq_some.mp hStep
        obtain rfl := Option.some.inj hNext
        exact .refl s.server
      · cases hStep
  | runWorker worker =>
      rw [runWorker_server hStep]
      exact .refl s.server
  | handleClose worker conn =>
      obtain ⟨-, hNext⟩ := Option.ite_none_right_eq_some.mp hStep
      obtain rfl := Option.some.inj hNext
      exact .refl s.server
  | postRemove worker =>
      simp only [step] at hStep
      split at hStep
      · obtain rfl := Option.some.inj hStep
        exact .refl s.server
      · cases hStep

/-- In every run the acceptor is gone when the server has stopped, and the flags are sound. -/
theorem exec_settled {threadNum : Nat} {labels : List (ServerLabel κ ω)}
    (hRun : exec (step home) (running threadNum) labels = some s) : Settled s.server :=
  (calls_of_exec ServerLoops.server step_calls hRun).settled (running_settled threadNum)

end ServerLoops

/-! ## The thread pool -/

namespace ServerPool

variable {κ ω : Type*} [DecidableEq κ] [DecidableEq ω] {home : κ → ω} {threads : List ω}
  {s : ServerPool κ ω}

/-- While no stop of the pool is under way, the members are those of a server of `TcpServer`. -/
theorem exec_settled {threadNum : Nat} {callbacks : κ → ConnCallbacks} {highWaterMark : κ → Nat}
    {labels : List (LoopsLabel κ ω)}
    (hRun : exec (step home threads) (running threadNum callbacks highWaterMark) labels = some s)
    (hPc : s.mainPc.stopsPool = false) : TcpServer.Settled s.server := by
  obtain ⟨acts, hActs, -⟩ := exec_loops hRun
  have hServer : s.loops.server = s.server := by simp [loops, hPc]
  rw [← hServer]
  exact ServerLoops.exec_settled hActs

end ServerPool

/-! ## The requests -/

namespace ServerControl

variable {κ : Type*} [DecidableEq κ]

theorem step_call (s : ServerControl κ) (label : ControlLabel) (s' : ServerControl κ)
    (hStep : step s label = some s') :
    ∃ acts, exec TcpServer.call s.server acts = some s'.server := by
  cases label with
  | call request =>
      obtain ⟨-, hNext⟩ := Option.ite_none_right_eq_some.mp hStep
      obtain rfl := Option.some.inj hNext
      exact ⟨[], rfl⟩
  | post =>
      obtain ⟨request, -, rfl⟩ := Option.map_eq_some_iff.mp hStep
      exact ⟨[], rfl⟩
  | run =>
      simp only [step] at hStep
      split at hStep
      · cases hStep
      · next request rest hQueue =>
        obtain ⟨server, hServer, rfl⟩ := Option.map_eq_some_iff.mp hStep
        cases request with
        | start => exact ⟨[.startInLoop true], exec_cons_eq_some.mpr ⟨server, hServer, rfl⟩⟩
        | stop => exact ⟨[.stopInLoop], exec_cons_eq_some.mpr ⟨server, hServer, rfl⟩⟩

/-- After an executed `StopInLoop` no request makes the server run. -/
theorem exec_stopped {s s' : ServerControl κ} {labels : List ControlLabel}
    (hStopped : s.server.started = false ∧ s.server.acceptor = false)
    (hRun : exec step s labels = some s') :
    s'.server.started = false ∧ s'.server.acceptor = false := by
  refine exec_invariant
    (fun s : ServerControl κ => s.server.started = false ∧ s.server.acceptor = false) ?_
    hStopped hRun
  intro s label next hStopped hStep
  obtain ⟨acts, hActs⟩ := step_call s label next hStep
  exact TcpServer.exec_call_stopped hStopped hActs

end ServerControl

/-! ## The server with its acceptor -/

namespace ServerQueue

open TcpServer

variable {κ : Type*} [DecidableEq κ] {s s' : ServerQueue κ}

omit [DecidableEq κ] in
theorem Attached.acceptor_of_started (hAttached : Attached s)
    (hStarted : s.server.started = true) : s.server.acceptor = true := by
  rw [hAttached.acceptor_eq]
  exact hAttached.accounted.ordered.accepting_of_alive (hAttached.started_eq ▸ hStarted)

theorem startInLoop_call {answers : ListenAnswers} (hStart : s.startInLoop answers = some s') :
    ∃ acts, exec call s.server acts = some s'.server := by
  rcases startInLoop_cases hStart with ⟨-, rfl⟩ | ⟨-, a, listener, server, -, -, hServer, rfl⟩
  · exact ⟨[], rfl⟩
  · exact ⟨[.startInLoop (a.listen answers).2], exec_cons_eq_some.mpr ⟨server, hServer, rfl⟩⟩

/-- The acceptor and the kernel only choose among the calls. -/
theorem step_call {label : ServerStep κ} (hAttached : Attached s)
    (hStep : step s label = some s') : ∃ acts, exec call s.server acts = some s'.server := by
  have hOne : ∀ act, s.server.call act = some s'.server →
      ∃ acts, exec call s.server acts = some s'.server :=
    fun act hAct => ⟨[act], exec_cons_eq_some.mpr ⟨s'.server, hAct, rfl⟩⟩
  cases label with
  | setThreadNum threadNum =>
      obtain rfl := Option.some.inj hStep
      exact hOne (.setThreadNum threadNum) rfl
  | start | stop | removeConnection conn =>
      obtain rfl := Option.some.inj hStep
      exact ⟨[], rfl⟩
  | startHere answers => exact startInLoop_call hStep
  | stopHere =>
      obtain rfl := Option.some.inj hStep
      exact hOne .stopInLoop rfl
  | closeHere conn =>
      obtain rfl := Option.some.inj hStep
      exact hOne (.removeConnectionInLoop conn) rfl
  | newConnection conn fd =>
      obtain ⟨listener, hAccept, hNext⟩ := Option.bind_eq_some_iff.mp hStep
      obtain ⟨⟨hBefore, hHanded, -⟩, hNext⟩ := Option.ite_none_right_eq_some.mp hNext
      obtain rfl := Option.some.inj hNext
      -- Only a listening socket hands over connections, so the acceptor is there.
      have hStarted := hAttached.started_of_hand hAccept hBefore hHanded
      exact hOne (.newConnection conn) (if_pos (hAttached.acceptor_of_started hStarted))
  | listener label =>
      obtain ⟨-, hNext⟩ := Option.ite_none_right_eq_some.mp hStep
      obtain ⟨listener, -, rfl⟩ := Option.map_eq_some_iff.mp hNext
      exact ⟨[], rfl⟩
  | run answers =>
      simp only [step] at hStep
      split at hStep
      · cases hStep
      · next functor rest hQueue =>
        cases functor with
        | startInLoop =>
            have hBody : ServerQueue.startInLoop { s with queue := rest } answers = some s' := hStep
            have hCall := startInLoop_call hBody
            exact hCall
        | stopInLoop =>
            obtain rfl := Option.some.inj hStep
            exact hOne .stopInLoop rfl
        | removeConnection conn =>
            obtain rfl := Option.some.inj hStep
            exact hOne (.removeConnectionInLoop conn) rfl

/-- The same with the acceptor and the kernel. -/
theorem exec_stopped {labels : List (ServerStep κ)} (hAttached : Attached s)
    (hStopped : s.server.started = false ∧ s.server.acceptor = false)
    (hRun : exec step s labels = some s') :
    s'.server.started = false ∧ s'.server.acceptor = false := by
  refine (exec_invariant (fun s : ServerQueue κ =>
    Attached s ∧ s.server.started = false ∧ s.server.acceptor = false) ?_
    ⟨hAttached, hStopped⟩ hRun).2
  rintro s label next ⟨hAttached, hStopped⟩ hStep
  obtain ⟨acts, hActs⟩ := step_call hAttached hStep
  exact ⟨step_attached s label next hAttached hStep, exec_call_stopped hStopped hActs⟩

end ServerQueue

/-! ## One loop -/

namespace ConnectionLoop

open TcpServer

variable {ι : Type*} [DecidableEq ι] {w w' : ConnectionLoop ι} {server : TcpServer ι}

/-- The members of the running server whose connections the loop has: `m_connections` lists
them, and none of them waits to be established. -/
structure Keeps (server : TcpServer ι) (w : ConnectionLoop ι) : Prop where
  started : server.started = true
  acceptor : server.acceptor = true
  nodup : server.connections.Nodup
  mem_iff : ∀ i, i ∈ server.connections ↔ w.connections i = true
  established : ∀ i ∈ server.connections, (w.conns i).state ≠ .kConnecting

/-- The table is kept, and no connection goes back to `kConnecting`. -/
structure Onward (w w' : ConnectionLoop ι) : Prop where
  connections_eq : w'.connections = w.connections
  state_ne : ∀ i, (w.conns i).state ≠ .kConnecting → (w'.conns i).state ≠ .kConnecting

omit [DecidableEq ι] in
theorem Keeps.onward (hKeeps : Keeps server w) (hOnward : Onward w w') : Keeps server w' where
  started := hKeeps.started
  acceptor := hKeeps.acceptor
  nodup := hKeeps.nodup
  mem_iff := by
    rw [hOnward.connections_eq]
    exact hKeeps.mem_iff
  established := fun i hMem => hOnward.state_ne i (hKeeps.established i hMem)

/-! ### What leaves the table alone -/

theorem Onward.setConn {i : ι} {c : TcpConnection}
    (hState : (w.conns i).state ≠ .kConnecting → c.state ≠ .kConnecting) :
    Onward w (w.setConn i c) := by
  refine ⟨rfl, fun j hj => ?_⟩
  by_cases hSame : j = i
  · subst hSame
    simpa [ConnectionLoop.setConn] using hState hj
  · simpa [ConnectionLoop.setConn, hSame] using hj

theorem Onward.output {i : ι} {c : TcpConnection}
    (hOutput : TcpConnection.OnlyOutput (w.conns i) c) :
    Onward w (w.setConn i c) := by
  refine .setConn fun hState => ?_
  rcases hOutput.state_eq with hKept | ⟨-, hShutdown⟩
  · rwa [hKept]
  · rw [hShutdown]
    decide

omit [DecidableEq ι] in
theorem Onward.callUser (hOnward : Onward w w') (present : Bool) :
    Onward w (w'.callUser present) := by
  unfold ConnectionLoop.callUser
  split
  · exact ⟨hOnward.connections_eq, hOnward.state_ne⟩
  · exact hOnward

theorem Onward.connectEstablished (w : ConnectionLoop ι) (i : ι) :
    Onward w (w.connectEstablished i) := by
  refine (Onward.setConn fun _ => ?_).callUser _
  simp [TcpConnection.connectEstablished]

theorem Onward.leavePoller (w : ConnectionLoop ι) (i : ι) :
    Onward w (w.setConn i (w.conns i).leavePoller) :=
  .setConn fun hState => by rwa [TcpConnection.leavePoller_state]

theorem Onward.connectDestroyed (w : ConnectionLoop ι) (i : ι) :
    Onward w (w.connectDestroyed i) := by
  unfold ConnectionLoop.connectDestroyed
  split
  · have hBegun : Onward w (w.setConn i (w.conns i).beginDestroy) :=
      .setConn fun _ => by simp [TcpConnection.beginDestroy]
    have hPushed : Onward w ((w.setConn i (w.conns i).beginDestroy).push (.leave i)) :=
      ⟨hBegun.connections_eq, hBegun.state_ne⟩
    exact hPushed.callUser _
  · exact .leavePoller w i

/-! ### What changes the table -/

/-- `NewConnection` of a connection object that is not established. -/
theorem Keeps.newConnection (hKeeps : Keeps server w) {i : ι}
    (hNew : (w.conns i).state = .kConnecting) :
    ∃ next, Calls server next ∧ Keeps next (w.newConnection i) := by
  -- What is in the table is past `kConnecting`, so the entry is a new one.
  have hAbsent : i ∉ server.connections := fun hMem => hKeeps.established i hMem hNew
  let entered : ConnectionLoop ι :=
    { w with connections := Function.update w.connections i true }
  have hOnward : Onward entered (w.newConnection i) := .connectEstablished entered i
  refine ⟨_, .newConnection hKeeps.acceptor i, hKeeps.started, hKeeps.acceptor, ?_, ?_, ?_⟩
  · exact List.nodup_append_comm.mp (List.nodup_cons.mpr ⟨hAbsent, hKeeps.nodup⟩)
  · intro j
    rw [hOnward.connections_eq]
    by_cases hj : j = i
    · simp [entered, hj]
    · simpa [entered, hj] using hKeeps.mem_iff j
  · intro j hMem
    rcases List.mem_append.mp hMem with hOld | hOne
    · exact hOnward.state_ne j (hKeeps.established j hOld)
    · obtain rfl : j = i := by simpa using hOne
      have hState : ((w.newConnection j).conns j).state = .kConnected := by
        unfold ConnectionLoop.newConnection ConnectionLoop.connectEstablished
          ConnectionLoop.callUser
        split <;> simp [ConnectionLoop.setConn, ConnectionLoop.push,
          TcpConnection.connectEstablished]
      rw [hState]
      decide

/-- `HandleClose` of a connection of the server is a `RemoveConnectionInLoop`. -/
theorem Keeps.handleClose (hKeeps : Keeps server w) (i : ι) :
    ∃ next, Calls server next ∧ Keeps next (w.handleClose i) := by
  by_cases hServer : w.ofServer i
  · obtain ⟨hTable, hStarted, hAcceptor⟩ := server.removeConnectionInLoop_frame i
    rw [handleClose_server hServer]
    refine ⟨_, .removeConnectionInLoop server i, hStarted.trans hKeeps.started,
      hAcceptor.trans hKeeps.acceptor, ?_, ?_, ?_⟩
    · rw [hTable]
      exact hKeeps.nodup.erase i
    · intro j
      rw [hTable, hKeeps.nodup.mem_erase_iff, hKeeps.mem_iff]
      by_cases hj : j = i
      · simp [hj]
      · simp [hj]
    · intro j hMem
      rw [hTable, hKeeps.nodup.mem_erase_iff] at hMem
      simpa [hMem.1] using hKeeps.established j hMem.2
  · refine ⟨server, .refl server, hKeeps.onward ?_⟩
    have hBegun : Onward w (w.setConn i (w.conns i).beginClose) :=
      .setConn fun _ => by simp [TcpConnection.beginClose]
    unfold ConnectionLoop.handleClose
    split
    · exact ⟨hBegun.connections_eq, hBegun.state_ne⟩
    · next hClose => exact absurd hClose hServer
    · exact ⟨hBegun.connections_eq, hBegun.state_ne⟩

theorem Keeps.handleRead (hKeeps : Keeps server w) (i : ι) (call : SysRead) :
    ∃ next, Calls server next ∧ Keeps next (w.handleRead i call) := by
  have hReceived : Onward w (w.setConn i ((w.conns i).receive call).1) :=
    .setConn fun hState => hState
  unfold ConnectionLoop.handleRead
  dsimp only
  split
  · exact ⟨server, .refl server, hKeeps.onward hReceived⟩
  · exact (hKeeps.onward hReceived).handleClose i
  · split
    · have hMessage : Onward w
          (w.setConn i (((w.conns i).receive call).1.record .messageCallback)) :=
        .setConn fun hState => hState
      exact ⟨server, .refl server, hKeeps.onward ⟨hMessage.connections_eq, hMessage.state_ne⟩⟩
    · exact ⟨server, .refl server, hKeeps.onward hReceived⟩

/-- A step that leaves the table alone needs no call. -/
theorem Keeps.same (hKeeps : Keeps server w) (hOnward : Onward w w') :
    ∃ next, Calls server next ∧ Keeps next w' :=
  ⟨server, .refl server, hKeeps.onward hOnward⟩

theorem Keeps.proceed (hKeeps : Keeps server w) {read : SysRead} {write : SysWrite}
    (hStep : w.proceed read write = some w') : ∃ next, Calls server next ∧ Keeps next w' := by
  have hStack : ∀ stack, Onward w { w with stack := stack } :=
    fun _ => ⟨rfl, fun _ hState => hState⟩
  unfold ConnectionLoop.proceed at hStep
  split at hStep
  · next i rest hFrame =>
    obtain rfl := Option.some.inj hStep
    split
    · exact (hKeeps.onward (hStack _)).handleClose i
    · exact hKeeps.same (hStack _)
  · obtain rfl := Option.some.inj hStep
    exact hKeeps.same (hStack _)
  · next i rest hFrame =>
    obtain rfl := Option.some.inj hStep
    split
    · exact (hKeeps.onward (hStack _)).handleRead i read
    · exact hKeeps.same (hStack _)
  · next i rest hFrame =>
    obtain rfl := Option.some.inj hStep
    split
    · exact (hKeeps.onward (hStack rest)).same
        (.output (TcpConnection.OnlyOutput.handleWrite (w.conns i) write))
    · exact hKeeps.same (hStack _)
  · next i rest hFrame =>
    obtain rfl := Option.some.inj hStep
    refine (hKeeps.onward (hStack rest)).same ((Onward.setConn fun hState => ?_).callUser _)
    rwa [TcpConnection.report_state]
  · next i rest hFrame =>
    obtain rfl := Option.some.inj hStep
    exact (hKeeps.onward (hStack rest)).same (.leavePoller { w with stack := rest } i)
  · cases hStep
  · cases hStep

/-- The loop of a single-loop server changes `m_connections` by calls of the server. -/
theorem Keeps.step (hKeeps : Keeps server w) {label : ConnectionLabel ι}
    (hStep : ConnectionLoop.step w label = some w') :
    ∃ next, Calls server next ∧ Keeps next w' := by
  cases label with
  | poll ready =>
      obtain ⟨-, hNext⟩ := Option.ite_none_right_eq_some.mp hStep
      obtain rfl := Option.some.inj hNext
      obtain ⟨-, hConnections, -, hConns⟩ := foldl_setRevents_frame ready w
      refine hKeeps.same ⟨hConnections, fun i hState => ?_⟩
      obtain ⟨revents, hConn⟩ := hConns i
      have hSame : ((w.poll ready).conns i).state = (w.conns i).state := by
        show ((ready.foldl setRevents w).conns i).state = _
        rw [hConn]
      rwa [hSame]
  | dispatch =>
      simp only [ConnectionLoop.step, ConnectionLoop.dispatch] at hStep
      split at hStep
      · obtain ⟨-, hNext⟩ := Option.ite_none_right_eq_some.mp hStep
        obtain rfl := Option.some.inj hNext
        exact hKeeps.same ⟨rfl, fun _ hState => hState⟩
      · cases hStep
  | leave =>
      simp only [ConnectionLoop.step] at hStep
      split at hStep
      · obtain rfl := Option.some.inj hStep
        exact hKeeps.same ⟨rfl, fun _ hState => hState⟩
      · cases hStep
  | proceed read write => exact hKeeps.proceed hStep
  | newConnection i =>
      obtain ⟨⟨-, -, hNew⟩, hNext⟩ := Option.ite_none_right_eq_some.mp hStep
      obtain rfl := Option.some.inj hNext
      exact hKeeps.newConnection hNew
  | connectEstablished i =>
      obtain ⟨-, hNext⟩ := Option.ite_none_right_eq_some.mp hStep
      obtain rfl := Option.some.inj hNext
      exact hKeeps.same (.connectEstablished w i)
  | connectDestroyed i =>
      obtain ⟨-, hNext⟩ := Option.ite_none_right_eq_some.mp hStep
      obtain rfl := Option.some.inj hNext
      exact hKeeps.same (.connectDestroyed w i)
  | send i message call =>
      obtain ⟨-, hNext⟩ := Option.ite_none_right_eq_some.mp hStep
      obtain rfl := Option.some.inj hNext
      exact hKeeps.same (.output (TcpConnection.OnlyOutput.sendInLoop _ _ _))
  | shutdown i =>
      obtain ⟨-, hNext⟩ := Option.ite_none_right_eq_some.mp hStep
      obtain rfl := Option.some.inj hNext
      exact hKeeps.same (.output (TcpConnection.OnlyOutput.shutdown _))
  | shutdownInLoop i =>
      obtain ⟨-, hNext⟩ := Option.ite_none_right_eq_some.mp hStep
      obtain rfl := Option.some.inj hNext
      exact hKeeps.same (.output (TcpConnection.OnlyOutput.shutdownInLoop _))
  | forceClose i =>
      obtain ⟨-, hNext⟩ := Option.ite_none_right_eq_some.mp hStep
      obtain rfl := Option.some.inj hNext
      unfold ConnectionLoop.forceClose
      split
      · exact hKeeps.handleClose i
      · exact ⟨server, .refl server, hKeeps⟩
  | enter | hold | release =>
      obtain ⟨-, hNext⟩ := Option.ite_none_right_eq_some.mp hStep
      obtain rfl := Option.some.inj hNext
      exact hKeeps.same ⟨rfl, fun _ hState => hState⟩

omit [DecidableEq ι] in
theorem new_keeps (callbacks : ι → ConnCallbacks) (highWaterMark : ι → Nat) (threadNum : Nat) :
    Keeps (TcpServer.running threadNum) (new callbacks highWaterMark) where
  started := rfl
  acceptor := rfl
  nodup := List.nodup_nil
  mem_iff := by simp [TcpServer.running, TcpServer.new, new]
  established := by simp [TcpServer.running, TcpServer.new]

/-- **One loop is a server.**  The entries of `m_connections` in a run of the loop are those of
a running server after some calls, each of them once. -/
theorem exec_keeps {callbacks : ι → ConnCallbacks} {highWaterMark : ι → Nat}
    {labels : List (ConnectionLabel ι)}
    (hRun : exec ConnectionLoop.step (new callbacks highWaterMark) labels = some w)
    (threadNum : Nat) :
    ∃ server, Calls (TcpServer.running threadNum) server ∧ Keeps server w := by
  refine exec_invariant
    (fun w => ∃ server, Calls (TcpServer.running threadNum) server ∧ Keeps server w) ?_
    ⟨_, .refl _, new_keeps callbacks highWaterMark threadNum⟩ hRun
  rintro w label w' ⟨server, hCalls, hKeeps⟩ hStep
  obtain ⟨next, hNext, hNextKeeps⟩ := Keeps.step hKeeps hStep
  exact ⟨next, hCalls.trans hNext, hNextKeeps⟩

end ConnectionLoop
end SolarNet
