import SolarNet.Transport.StopInCallback

/-!
# `IsFullyStopped` as a signal

`StopThreadPoolInLoop` stores `true` into `m_stop_complete` inside `StopInLoop` or
`RemoveConnectionInLoop`, and a thread that sees the store may destroy the server.  Every
step of the main loop after the store that uses a member of the server is then too late,
whether it belongs to a call that was in progress or to one that begins afterwards.

The calls in progress log the name of the server, and a `StopInLoop` whose connections
close in place goes on with its loop, in which it finds nothing to close.  Calls may begin
afterwards since `Stop` queues a `StopInLoop` each time that it sees a running server,
since `HandleClose` tells the server each time that it runs, and since code on the main
loop may call `Stop`.  The result of this file is that nothing else comes too late.
-/

namespace SolarNet

open Lib

/-- The last statement of the call is a `LOG_INFO`. -/
def MainCall.logs {κ : Type*} : MainCall κ → Bool
  | .removeLog | .stopLog | .stopLoop [] => true
  | _ => false

namespace ServerMain

variable {κ : Type*}

/-- The step comes back to the server: a `LOG_INFO` that is enabled, a functor of the
server, a call of `Stop`, or `HandleClose`. -/
def comesBack (s : ServerMain κ) : MainLabel κ → Bool
  | .proceed info => info && s.stack.head?.any MainCall.logs
  | .runFunctor _ | .stopHere _ | .handleClose _ => true
  | _ => false

/-- No step that is taken after the stop is complete comes back to the server. -/
def LeavesServer [DecidableEq κ] (onMain : κ → Bool) (s : ServerMain κ) (label : MainLabel κ) :
    Prop :=
  s.fullyStopped = true → (s.step onMain label).isSome = true → s.comesBack label = false

/-- A connection that is not closed is in the table, and a connection whose removal is
queued is closed. -/
structure TableInv (s : ServerMain κ) : Prop where
  entry : ∀ conn, s.created conn = true → s.states conn ≠ .kDisconnected →
    conn ∈ s.server.connections
  fresh : ∀ conn, s.created conn = false → s.states conn = .kConnecting
  queued : ∀ conn, .removeConnection conn ∈ s.queue → s.states conn = .kDisconnected

theorem running_tableInv (threadNum : Nat) : (running threadNum : ServerMain κ).TableInv where
  entry := nofun
  fresh _ _ := rfl
  queued conn hQueued := by simp [running] at hQueued

namespace TableInv

variable {s : ServerMain κ}

theorem created_of_ne (hInv : s.TableInv) {conn : κ} (hState : s.states conn ≠ .kConnecting) :
    s.created conn = true := by
  by_contra hNew
  exact hState (hInv.fresh conn (by simpa using hNew))

/-- Without entries in the table no connection is live. -/
theorem not_live (hInv : s.TableInv) (hEmpty : s.server.connections = []) (conn : κ) :
    (s.states conn).live = false := by
  by_contra hLive
  have hOpen : s.states conn ≠ .kConnecting ∧ s.states conn ≠ .kDisconnected := by
    constructor <;> intro hState <;> simp [hState, ConnState.live] at hLive
  have hEntry := hInv.entry conn (hInv.created_of_ne hOpen.1) hOpen.2
  simp [hEmpty] at hEntry

theorem push (hInv : s.TableInv) (call : MainCall κ) : (s.push call).TableInv :=
  { hInv with }

theorem popQueue (hInv : s.TableInv) {functor : MainFunctor κ} {rest : List (MainFunctor κ)}
    (hQueue : s.queue = functor :: rest) : { s with queue := rest }.TableInv := by
  refine { hInv with queued := fun conn hQueued => hInv.queued conn ?_ }
  rw [hQueue]
  exact List.mem_cons_of_mem _ hQueued

theorem stopInLoop (hInv : s.TableInv) (order : List κ) : (s.stopInLoop order).TableInv := by
  have hTable : (s.stopInLoop order).server.connections = s.server.connections := by
    rw [stopInLoop_server]
    exact s.server.stopInLoop_frame.1
  have hRest : (s.stopInLoop order).states = s.states ∧
      (s.stopInLoop order).created = s.created ∧ (s.stopInLoop order).queue = s.queue := by
    unfold ServerMain.stopInLoop
    split_ifs <;> exact ⟨rfl, rfl, rfl⟩
  obtain ⟨hStates, hCreated, hQueue⟩ := hRest
  constructor
  · rw [hTable, hStates, hCreated]
    exact hInv.entry
  · rw [hStates, hCreated]
    exact hInv.fresh
  · rw [hStates, hQueue]
    exact hInv.queued

variable [DecidableEq κ]

theorem setState (hInv : s.TableInv) {conn : κ} {state : ConnState}
    (hCreated : s.created conn = true)
    (hEntry : state ≠ .kDisconnected → conn ∈ s.server.connections)
    (hClosed : s.states conn = .kDisconnected → state = .kDisconnected) :
    (s.setState conn state).TableInv where
  entry other hNew hOpen := by
    by_cases hOther : other = conn
    · subst hOther
      exact hEntry (by simpa [ServerMain.setState] using hOpen)
    · exact hInv.entry other hNew (by simpa [ServerMain.setState, hOther] using hOpen)
  fresh other hOld := by
    have hOther : other ≠ conn := by
      rintro rfl
      change s.created other = false at hOld
      simp [hCreated] at hOld
    simpa [ServerMain.setState, hOther] using hInv.fresh other hOld
  queued other hQueued := by
    by_cases hOther : other = conn
    · subst hOther
      simpa [ServerMain.setState] using hClosed (hInv.queued other hQueued)
    · simpa [ServerMain.setState, hOther] using hInv.queued other hQueued

theorem removeConnection (hInv : s.TableInv) {conn : κ} (hClosed : s.states conn = .kDisconnected) :
    (s.removeConnection conn).TableInv := by
  have hTable : (s.removeConnection conn).server.connections = s.server.connections.erase conn := by
    rw [removeConnection_server]
    exact (s.server.removeConnectionInLoop_frame conn).1
  have hRest : (s.removeConnection conn).states = s.states ∧
      (s.removeConnection conn).created = s.created ∧
      (s.removeConnection conn).queue = s.queue := by
    unfold ServerMain.removeConnection
    split <;> exact ⟨rfl, rfl, rfl⟩
  obtain ⟨hStates, hCreated, hQueue⟩ := hRest
  constructor
  · rw [hTable, hStates, hCreated]
    intro other hNew hOpen
    have hOther : other ≠ conn := by
      rintro rfl
      exact hOpen hClosed
    exact (List.mem_erase_of_ne hOther).mpr (hInv.entry other hNew hOpen)
  · rw [hStates, hCreated]
    exact hInv.fresh
  · rw [hStates, hQueue]
    exact hInv.queued

/-- `HandleClose` of a connection that was established. -/
theorem close (hInv : s.TableInv) {conn : κ} (hState : s.states conn ≠ .kConnecting) :
    (s.close conn).TableInv := by
  have hClosed : (s.setState conn .kDisconnected).TableInv :=
    hInv.setState (hInv.created_of_ne hState) (fun hOpen => absurd rfl hOpen) fun _ => rfl
  have hReport : ((s.setState conn .kDisconnected).push (.closeReport conn)).TableInv :=
    hClosed.push _
  exact hReport.removeConnection (by simp [ServerMain.push, ServerMain.setState])

variable (onMain : κ → Bool)

theorem newConnection (hInv : s.TableInv) {conn : κ} (hNew : s.created conn = false) :
    (s.newConnection onMain conn).TableInv := by
  have hAdded : { s with
      server := { s.server with connections := s.server.connections ++ [conn] }
      created := Function.update s.created conn true }.TableInv :=
    { entry := fun other hCreated hOpen => by
        by_cases hOther : other = conn
        · simp [hOther]
        · have hOld : s.created other = true := by simpa [hOther] using hCreated
          exact List.mem_append_left _ (hInv.entry other hOld hOpen)
      fresh := fun other hOld => by
        have hOther : other ≠ conn := by
          rintro rfl
          simp at hOld
        exact hInv.fresh other (by simpa [hOther] using hOld)
      queued := hInv.queued }
  unfold ServerMain.newConnection
  split
  · have hState : s.states conn ≠ .kDisconnected := by simp [hInv.fresh conn hNew]
    exact (hAdded.setState (by simp) (fun _ => by simp)
      (fun hClosed => absurd hClosed hState)).push .user
  · exact hAdded

omit onMain in
theorem resumes {s' : ServerMain κ} (hInv : s.TableInv) {rest : List (MainCall κ)}
    {call : MainCall κ} (hResumes : Resumes s rest call s') : s'.TableInv := by
  have hStack : ∀ stack, { s with stack := stack }.TableInv := fun stack => { hInv with }
  cases hResumes with
  | returns => exact hStack _
  | report conn => exact (hStack _).push .user
  | pass conn more => exact hStack _
  | close conn more hLive => exact (hStack _).close (ConnState.ne_connecting_of_live hLive)

end TableInv

section Steps

variable [DecidableEq κ] (onMain : κ → Bool)

theorem mainMove_tableInv {s s' : ServerMain κ} {label : MainLabel κ} (hInv : s.TableInv)
    (hMove : MainMove onMain s label s') : s'.TableInv := by
  cases hMove with
  | poll ready => exact { hInv with }
  | listener rest =>
      have hRest : { s with active := rest }.TableInv := { hInv with }
      exact hRest.push .acceptLoop
  | destroyedListener rest => exact { hInv with }
  | handler rest =>
      have hRest : { s with active := rest }.TableInv := { hInv with }
      exact hRest.push .user
  | enter => exact hInv.push .user
  | leave call rest hStack => exact { hInv with }
  | newConnection conn hThere hNew => exact hInv.newConnection onMain hNew
  | acceptNone rest hStack => exact { hInv with }
  | stopHere order => exact hInv.stopInLoop order
  | forceClose conn hLive => exact hInv.close (ConnState.ne_connecting_of_live hLive)
  | forceCloseIdle conn => exact hInv
  | handleClose conn hState => exact hInv.close hState
  | shutdownInLoop conn hState =>
      have hCreated : s.created conn = true := hInv.created_of_ne (by simp [hState])
      exact hInv.setState hCreated (fun _ => hInv.entry conn hCreated (by simp [hState]))
        fun hClosed => by simp [hState] at hClosed
  | proceed info call rest hStack hResumes => exact hInv.resumes hResumes
  | stop =>
      refine { hInv with queued := fun conn hQueued => hInv.queued conn ?_ }
      simpa using hQueued
  | workerEstablished conn hCreated hState =>
      exact hInv.setState hCreated (fun _ => hInv.entry conn hCreated (by simp [hState]))
        fun hClosed => by simp [hState] at hClosed
  | workerClose conn hState =>
      have hClosed : (s.setState conn .kDisconnected).TableInv :=
        hInv.setState (hInv.created_of_ne hState) (fun hOpen => absurd rfl hOpen) fun _ => rfl
      refine { hClosed with queued := fun other hQueued => ?_ }
      rcases List.mem_append.mp hQueued with hOld | hNew
      · exact hClosed.queued other hOld
      · obtain rfl : other = conn := by simpa using hNew
        simp [setState]
  | runStop order rest hStack hActive hQueue => exact (hInv.popQueue hQueue).stopInLoop order
  | runRemove order conn rest hQueue =>
      exact (hInv.popQueue hQueue).removeConnection (hInv.queued conn (by simp [hQueue]))

/-- The invariant of all runs. -/
structure StopInv (s : ServerMain κ) : Prop where
  table : s.TableInv
  settled : TcpServer.Settled s.server

omit [DecidableEq κ] in
theorem running_stopInv (threadNum : Nat) : (running threadNum : ServerMain κ).StopInv :=
  ⟨running_tableInv threadNum, TcpServer.running_settled threadNum⟩

theorem step_stopInv (s : ServerMain κ) (label : MainLabel κ) (s' : ServerMain κ)
    (hInv : s.StopInv) (hStep : s.step onMain label = some s') : s'.StopInv := by
  have hSettled := (step_calls onMain s label s' hStep).settled hInv.settled
  obtain ⟨next, hMove, rfl⟩ := exists_mainMove_of_step onMain hStep
  exact ⟨{ mainMove_tableInv onMain hInv.table hMove with }, hSettled⟩

omit [DecidableEq κ] in
/-- After a complete stop no connection is live. -/
theorem StopInv.not_live {s : ServerMain κ} (hInv : s.StopInv) (hDone : s.fullyStopped = true)
    (conn : κ) : (s.states conn).live = false := by
  rw [fullyStopped, Bool.and_eq_true, Bool.not_eq_true'] at hDone
  exact hInv.table.not_live (hInv.settled.flags.sound hDone.1 hDone.2).1 conn

/-! ## Accesses after the store -/

omit [DecidableEq κ] in
/-- Once the stop is complete, a call in progress uses the server only by logging: the
connections that its loop comes to are closed. -/
theorem StopInv.touches_eq {s : ServerMain κ} (hInv : s.StopInv) (hDone : s.fullyStopped = true)
    (info : Bool) (call : MainCall κ) : s.touches onMain info call = (info && call.logs) := by
  have hClosed := hInv.not_live hDone
  cases call with
  | stopLoop conns =>
      cases conns with
      | nil => simp [touches, MainCall.logs]
      | cons conn more => simp [touches, MainCall.logs, hClosed conn]
  | _ => simp [touches, MainCall.logs]

theorem step_lateAccess {s s' : ServerMain κ} {label : MainLabel κ}
    (hStep : s.step onMain label = some s') :
    s'.lateAccess = (s.lateAccess || s.fullyStopped && s.accesses onMain label) := by
  obtain ⟨next, -, rfl⟩ := Option.map_eq_some_iff.mp hStep
  rfl

/-- The steps that use the server after the stop is complete are those that come back. -/
theorem StopInv.accesses_eq {s s' : ServerMain κ} {label : MainLabel κ} (hInv : s.StopInv)
    (hDone : s.fullyStopped = true) (hStep : s.step onMain label = some s') :
    s.accesses onMain label = s.comesBack label := by
  obtain ⟨next, hMove, -⟩ := exists_mainMove_of_step onMain hStep
  cases hMove with
  -- Without an acceptor no connection arrives.
  | newConnection conn hThere =>
      rw [fullyStopped, Bool.and_eq_true, Bool.not_eq_true'] at hDone
      rw [hInv.settled.acceptor hDone.1] at hThere
      cases hThere
  -- The table is empty, so nothing is left to be closed.
  | forceClose conn hLive =>
      rw [hInv.not_live hDone conn] at hLive
      cases hLive
  | forceCloseIdle conn => exact hInv.not_live hDone conn
  | proceed info call rest hStack =>
      simp [accesses, comesBack, hStack, hInv.touches_eq onMain hDone]
  | _ => rfl

end Steps

/-- A connection is open when another thread calls `Stop`. -/
def stopWithConnection : List (MainLabel Nat) :=
  [.poll [.listener], .dispatch, .accept (some 0), .leave, .accept none, .stop,
    .runFunctor [0], .proceed true, .proceed true]

/-- Two calls of `Stop` see a running server without connections, and `LOG_INFO` is
disabled. -/
def stopTwice : List (MainLabel Nat) :=
  [.stop, .stop, .runFunctor [], .proceed false, .runFunctor []]

end ServerMain
end SolarNet
