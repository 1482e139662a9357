import Mathlib.Data.Fintype.Basic
import SolarNet.Transport.ServerLoops

/-!
# What `TcpServer::Stop` should leave behind

After `StopInLoop` every connection that is left should be closing already, or have a
`ForceCloseInLoop` waiting on its loop, so that the server becomes fully stopped.
`ForceClose` ignores a connection that is `kConnecting`; `MeetsEstablished` says that
`StopInLoop` does not come across one.

The invariant `ServerInv` is kept by the pieces that the steps of the loops are made
of.
-/

namespace SolarNet

namespace ServerLoops

variable {κ ω : Type*}

/-! ## What `StopInLoop` should leave behind -/

variable (home : κ → Option ω)

/-- `HandleClose` has begun: its `RemoveConnection` is queued or about to be posted. -/
def CloseBegun (s : ServerLoops κ ω) (conn : κ) : Prop :=
  .removeConnection conn ∈ s.mainQueue ∨
    ∃ worker, home conn = some worker ∧ s.workerPcs worker = .closing conn

/-- `ForceCloseInLoop` is waiting on the loop of the connection. -/
def ClosePending (s : ServerLoops κ ω) (conn : κ) : Prop :=
  ∃ worker, home conn = some worker ∧ .forceCloseInLoop conn ∈ s.workerQueues worker

/-- When `StopInLoop` has been executed, every connection that is left is closing or
has its close pending. -/
def StopCloses (s : ServerLoops κ ω) : Prop :=
  s.mainPc = .idle → s.server.started = false → ∀ conn ∈ s.server.connections,
    (s.states conn = .kDisconnected ∧ CloseBegun home s conn) ∨ ClosePending home s conn

/-- No loop has anything to do. -/
def Quiescent (s : ServerLoops κ ω) : Prop :=
  s.mainPc = .idle ∧ s.mainQueue = [] ∧
    ∀ worker, s.workerQueues worker = [] ∧ s.workerPcs worker = .idle

instance decidableQuiescent [DecidableEq κ] [Fintype ω] (s : ServerLoops κ ω) :
    Decidable (Quiescent s) :=
  inferInstanceAs (Decidable (_ ∧ _ ∧ _))

/-- A quiescent stopped server has no connections. -/
theorem StopCloses.empty_of_quiescent {home : κ → Option ω} {s : ServerLoops κ ω}
    (hCloses : StopCloses home s)
    (hQuiet : Quiescent s) (hStopped : s.server.started = false) :
    s.server.connections = [] := by
  obtain ⟨hIdle, hMain, hWorkers⟩ := hQuiet
  refine List.eq_nil_iff_forall_not_mem.mpr fun conn hConn => ?_
  rcases hCloses hIdle hStopped conn hConn with
    ⟨-, hMem | ⟨worker, -, hClosing⟩⟩ | ⟨worker, -, hMem⟩
  · rw [hMain] at hMem
    cases hMem
  · rw [(hWorkers worker).2] at hClosing
    cases hClosing
  · rw [(hWorkers worker).1] at hMem
    cases hMem

/-- `ForceClose`, called by `StopInLoop`, does not find the connection `kConnecting`. -/
def MeetsEstablished (s : ServerLoops κ ω) : ServerLabel κ ω → Prop
  | .stopStep =>
      match s.mainPc with
      | .closing (conn :: _) => s.states conn ≠ .kConnecting
      | _ => True
  | _ => True

instance decidableMeetsEstablished (s : ServerLoops κ ω) :
    (label : ServerLabel κ ω) → Decidable (MeetsEstablished s label)
  | .stopStep =>
      match hPc : s.mainPc with
      | .closing (conn :: _) =>
          decidable_of_iff (s.states conn ≠ .kConnecting) (by simp [MeetsEstablished, hPc])
      | .closing [] | .idle | .secondTest _ _ | .posting _ _ =>
          isTrue (by simp [MeetsEstablished, hPc])
  | .newConnection _ | .stop | .stopHere _ | .runMain _ | .closeHere _ | .shutdownInLoop _
  | .forceClose _ | .runWorker _ | .handleClose _ _ | .postRemove _ => isTrue trivial

/-- The connections on which `StopInLoop` has not called `ForceClose` yet. -/
def unexamined : MainPc κ → List κ
  | .idle => []
  | .closing rest => rest
  | .secondTest conn rest | .posting conn rest => conn :: rest

variable [DecidableEq κ]

/-- The invariant.  The first fields say that the functors of a connection come in
the order of its life, the next ones how the table of the server follows it, and the
last ones how far `StopInLoop` has come. -/
structure ServerInv (s : ServerLoops κ ω) : Prop where
  est : ∀ worker conn, .connectEstablished conn ∈ s.workerQueues worker →
    s.states conn = .kConnecting ∧ home conn = some worker ∧ s.created conn = true
  est_once : ∀ worker conn,
    (s.workerQueues worker).count (.connectEstablished conn) ≤ 1
  forced : ∀ worker conn, .forceCloseInLoop conn ∈ s.workerQueues worker →
    s.states conn ≠ .kConnecting ∧ home conn = some worker
  destroyed : ∀ worker conn, .connectDestroyed conn ∈ s.workerQueues worker →
    conn ∉ s.server.connections ∧ s.created conn = true
  fresh : ∀ conn, s.created conn = false → s.states conn = .kConnecting ∧
    .removeConnection conn ∉ s.mainQueue ∧ ∀ worker, s.workerPcs worker ≠ .closing conn
  listed : ∀ conn ∈ s.server.connections, s.created conn = true
  nodup : s.server.connections.Nodup
  begun : ∀ conn ∈ s.server.connections, s.states conn = .kDisconnected →
    CloseBegun home s conn
  here : ∀ conn ∈ s.server.connections, home conn = none → (s.states conn).live = true
  acceptor_started : s.server.acceptor = true → s.server.started = true
  complete : s.server.started = false → s.server.connections = [] →
    s.server.stopComplete = true
  examined : s.server.started = false → ∀ conn ∈ s.server.connections,
    conn ∈ unexamined s.mainPc ∨ s.states conn = .kDisconnected ∨ ClosePending home s conn
  second : ∀ conn rest, s.mainPc = .secondTest conn rest →
    s.states conn ≠ .kConnecting ∧ s.states conn ≠ .kConnected
  posting : ∀ conn rest, s.mainPc = .posting conn rest → s.states conn ≠ .kConnecting

variable {home}

theorem running_inv (threadNum : Nat) :
    ServerInv home (running threadNum : ServerLoops κ ω) where
  est := by simp [running]
  est_once := by simp [running]
  forced := by simp [running]
  destroyed := by simp [running]
  fresh := by simp [running]
  listed := by simp [running, TcpServer.new]
  nodup := by simp [running, TcpServer.new]
  begun := by simp [running, TcpServer.new]
  here := by simp [running, TcpServer.new]
  acceptor_started := by simp [running]
  complete := by simp [running]
  examined := by simp [running]
  second := by simp [running]
  posting := by simp [running]

theorem ServerInv.stopCloses {s : ServerLoops κ ω} (hInv : ServerInv home s) :
    StopCloses home s := by
  intro hIdle hStopped conn hConn
  rcases hInv.examined hStopped conn hConn with hMem | hClosed | hPending
  · rw [hIdle] at hMem
    cases hMem
  · exact Or.inl ⟨hClosed, hInv.begun conn hConn hClosed⟩
  · exact Or.inr hPending

/-! ## Pieces of steps -/

theorem ServerInv.created_of_state {s : ServerLoops κ ω} (hInv : ServerInv home s) {conn : κ}
    (hState : s.states conn ≠ .kConnecting) : s.created conn = true := by
  by_contra hNot
  exact hState (hInv.fresh conn (by simpa using hNot)).1

theorem ServerInv.not_est {s : ServerLoops κ ω} (hInv : ServerInv home s) {conn : κ}
    (hState : s.states conn ≠ .kConnecting) (worker : ω) :
    .connectEstablished conn ∉ s.workerQueues worker :=
  fun hMem => hState (hInv.est worker conn hMem).1

omit [DecidableEq κ] in
theorem ne_of_created {s : ServerLoops κ ω} {conn other : κ} (hNew : s.created conn = false)
    (hOther : s.created other = true) : other ≠ conn := by
  rintro rfl
  rw [hNew] at hOther
  cases hOther

/-- What holds of the new state of `conn` and of the old state of a connection holds
of the state after the change. -/
theorem states_setState_of {P : ConnState → Prop} {s : ServerLoops κ ω} {conn other : κ}
    {state : ConnState} (hNew : other = conn → P state) (hOld : P (s.states other)) :
    P ((s.setState conn state).states other) := by
  by_cases hEq : other = conn
  · simpa [ServerLoops.setState, hEq] using hNew hEq
  · simpa [ServerLoops.setState, hEq] using hOld

/-- A connection whose `ConnectEstablished` has run changes its state forward. -/
theorem ServerInv.setState {s : ServerLoops κ ω} (hInv : ServerInv home s) {conn : κ}
    {state : ConnState}
    (hEst : ∀ worker, .connectEstablished conn ∉ s.workerQueues worker)
    (hCreated : s.created conn = true) (hState : state ≠ .kConnecting)
    (hBegun : conn ∈ s.server.connections → state = .kDisconnected → CloseBegun home s conn)
    (hHere : conn ∈ s.server.connections → home conn = none → state.live = true)
    (hClosed : s.states conn = .kDisconnected → state = .kDisconnected)
    (hSecond : ∀ rest, s.mainPc = .secondTest conn rest → state ≠ .kConnected) :
    ServerInv home (s.setState conn state) := by
  have hOther : ∀ other, other ≠ conn →
      (s.setState conn state).states other = s.states other := by
    intro other hNe
    simp [ServerLoops.setState, hNe]
  refine { hInv with
    est := ?_, forced := ?_, fresh := ?_, begun := ?_, here := ?_, examined := ?_,
    second := ?_, posting := ?_ }
  · intro worker other hMem
    have hNe : other ≠ conn := by
      rintro rfl
      exact hEst worker hMem
    rw [hOther other hNe]
    exact hInv.est worker other hMem
  · intro worker other hMem
    obtain ⟨hOld, hHome⟩ := hInv.forced worker other hMem
    exact ⟨states_setState_of (P := (· ≠ .kConnecting)) (fun _ => hState) hOld, hHome⟩
  · intro other hNot
    rw [hOther other (ne_of_created hNot hCreated).symm]
    exact hInv.fresh other hNot
  · intro other hMem
    refine states_setState_of (P := fun now => now = .kDisconnected → CloseBegun home s other)
      ?_ (hInv.begun other hMem)
    rintro rfl
    exact hBegun hMem
  · intro other hMem
    refine states_setState_of (P := fun now => home other = none → now.live = true)
      ?_ (hInv.here other hMem)
    rintro rfl
    exact hHere hMem
  · intro hStopped other hMem
    rcases hInv.examined hStopped other hMem with hLeft | hOld | hPending
    · exact Or.inl hLeft
    · refine Or.inr (Or.inl (states_setState_of (P := (· = .kDisconnected)) ?_ hOld))
      rintro rfl
      exact hClosed hOld
    · exact Or.inr (Or.inr hPending)
  · intro other rest hPc
    refine states_setState_of (P := fun now => now ≠ .kConnecting ∧ now ≠ .kConnected)
      ?_ (hInv.second other rest hPc)
    rintro rfl
    exact ⟨hState, hSecond rest hPc⟩
  · intro other rest hPc
    exact states_setState_of (P := (· ≠ .kConnecting)) (fun _ => hState)
      (hInv.posting other rest hPc)

/-- The connection leaves the table. -/
theorem ServerInv.erase {s : ServerLoops κ ω} (hInv : ServerInv home s) (conn : κ) :
    ServerInv home { s with server := s.server.removeConnectionInLoop conn } ∧
      conn ∉ (s.server.removeConnectionInLoop conn).connections := by
  obtain ⟨hTable, hStarted, hAcceptor⟩ := s.server.removeConnectionInLoop_frame conn
  have hSub : ∀ other ∈ (s.server.removeConnectionInLoop conn).connections,
      other ∈ s.server.connections := by
    intro other hMem
    rw [hTable] at hMem
    exact List.mem_of_mem_erase hMem
  refine ⟨{ hInv with
    destroyed := ?_, listed := ?_, nodup := ?_, begun := ?_, here := ?_,
    acceptor_started := ?_, complete := ?_, examined := ?_ }, ?_⟩
  · intro worker other hMem
    obtain ⟨hNot, hCreated⟩ := hInv.destroyed worker other hMem
    exact ⟨fun hOther => hNot (hSub other hOther), hCreated⟩
  · exact fun other hMem => hInv.listed other (hSub other hMem)
  · show (s.server.removeConnectionInLoop conn).connections.Nodup
    rw [hTable]
    exact hInv.nodup.erase conn
  · exact fun other hMem => hInv.begun other (hSub other hMem)
  · exact fun other hMem => hInv.here other (hSub other hMem)
  · show (s.server.removeConnectionInLoop conn).acceptor = true →
      (s.server.removeConnectionInLoop conn).started = true
    rw [hAcceptor, hStarted]
    exact hInv.acceptor_started
  · exact s.server.removeConnectionInLoop_complete conn
  · show (s.server.removeConnectionInLoop conn).started = false → _
    rw [hStarted]
    exact fun hStopped other hMem => hInv.examined hStopped other (hSub other hMem)
  · rw [hTable]
    exact fun hMem => (hInv.nodup.mem_erase_iff.mp hMem).1 rfl

/-- `StopInLoop` begins and finds all connections of the table. -/
theorem ServerInv.beginStop {s : ServerLoops κ ω} (hInv : ServerInv home s) {order : List κ}
    (hIdle : s.mainPc = .idle) (hOrder : order.Perm s.server.connections) :
    ServerInv home (s.beginStop order) := by
  obtain ⟨hTable, hStopped, hNull, hSame⟩ := s.server.stopInLoop_frame
  have hTable' : (s.beginStop order).server.connections = s.server.connections := hTable
  refine { hInv with
    destroyed := ?_, listed := ?_, nodup := ?_, begun := ?_, here := ?_,
    acceptor_started := ?_, complete := ?_, examined := ?_, second := ?_, posting := ?_ }
  · rw [hTable']
    exact hInv.destroyed
  · rw [hTable']
    exact hInv.listed
  · rw [hTable']
    exact hInv.nodup
  · rw [hTable']
    exact hInv.begun
  · rw [hTable']
    exact hInv.here
  · intro hAcceptor
    have hAcceptor : s.server.stopInLoop.acceptor = true := hAcceptor
    by_cases hStarted : s.server.started = true
    · rw [hNull hStarted] at hAcceptor
      cases hAcceptor
    · have hStarted : s.server.started = false := by simpa using hStarted
      rw [hSame hStarted] at hAcceptor
      rw [hInv.acceptor_started hAcceptor] at hStarted
      cases hStarted
  · intro _ hEmpty
    rw [hTable'] at hEmpty
    by_cases hStarted : s.server.started = true
    · exact s.server.stopInLoop_complete hStarted hEmpty
    · have hStarted : s.server.started = false := by simpa using hStarted
      show s.server.stopInLoop.stopComplete = true
      rw [hSame hStarted]
      exact hInv.complete hStarted hEmpty
  · intro _ conn hMem
    rw [hTable'] at hMem
    by_cases hStarted : s.server.started = true
    · left
      show conn ∈ unexamined (if s.server.started = true then .closing order else .idle)
      rw [if_pos hStarted]
      exact hOrder.mem_iff.mpr hMem
    · rcases hInv.examined (by simpa using hStarted) conn hMem with hLeft | hRest
      · rw [hIdle] at hLeft
        cases hLeft
      · exact Or.inr hRest
  · intro conn rest hPc
    have hPc : (if s.server.started = true then MainPc.closing order else .idle) =
        .secondTest conn rest := hPc
    split at hPc <;> cases hPc
  · intro conn rest hPc
    have hPc : (if s.server.started = true then MainPc.closing order else .idle) =
        .posting conn rest := hPc
    split at hPc <;> cases hPc

/-- The main loop goes on in `StopInLoop`; what it leaves behind is taken care of. -/
theorem ServerInv.setMainPc {s : ServerLoops κ ω} (hInv : ServerInv home s) {pc : MainPc κ}
    (hExamined : s.server.started = false → ∀ conn ∈ unexamined s.mainPc,
      conn ∈ unexamined pc ∨ s.states conn = .kDisconnected ∨ ClosePending home s conn)
    (hSecond : ∀ conn rest, pc = .secondTest conn rest →
      s.states conn ≠ .kConnecting ∧ s.states conn ≠ .kConnected)
    (hPosting : ∀ conn rest, pc = .posting conn rest → s.states conn ≠ .kConnecting) :
    ServerInv home { s with mainPc := pc } := by
  refine { hInv with examined := ?_, second := hSecond, posting := hPosting }
  intro hStopped conn hMem
  rcases hInv.examined hStopped conn hMem with hLeft | hRest
  · exact hExamined hStopped conn hLeft
  · exact Or.inr hRest

/-- The main loop goes on and has as much to examine as before. -/
theorem ServerInv.keepUnexamined {s : ServerLoops κ ω} (hInv : ServerInv home s)
    {pc : MainPc κ} (hSame : unexamined s.mainPc = unexamined pc)
    (hSecond : ∀ conn rest, pc = .secondTest conn rest →
      s.states conn ≠ .kConnecting ∧ s.states conn ≠ .kConnected)
    (hPosting : ∀ conn rest, pc = .posting conn rest → s.states conn ≠ .kConnecting) :
    ServerInv home { s with mainPc := pc } := by
  refine hInv.setMainPc ?_ hSecond hPosting
  intro _ conn hMem
  rw [hSame] at hMem
  exact Or.inl hMem

/-- A stop request is queued. -/
theorem ServerInv.postStop {s : ServerLoops κ ω} (hInv : ServerInv home s) :
    ServerInv home { s with mainQueue := s.mainQueue ++ [.stopInLoop] } := by
  refine { hInv with fresh := ?_, begun := ?_ }
  · intro conn hNot
    obtain ⟨hState, hMain, hWorkers⟩ := hInv.fresh conn hNot
    exact ⟨hState, by simpa using hMain, hWorkers⟩
  · intro conn hMem hClosed
    rcases hInv.begun conn hMem hClosed with hQueued | hWorker
    · exact Or.inl (List.mem_append_left _ hQueued)
    · exact Or.inr hWorker

/-- A functor of the main loop is taken out; a removal must have been done. -/
theorem ServerInv.popMain {s : ServerLoops κ ω} (hInv : ServerInv home s)
    {functor : MainFunctor κ} {rest : List (MainFunctor κ)}
    (hQueue : s.mainQueue = functor :: rest)
    (hDone : ∀ conn, functor = .removeConnection conn → conn ∉ s.server.connections) :
    ServerInv home { s with mainQueue := rest } := by
  refine { hInv with fresh := ?_, begun := ?_ }
  · intro conn hNot
    obtain ⟨hState, hMain, hWorkers⟩ := hInv.fresh conn hNot
    rw [hQueue] at hMain
    exact ⟨hState, fun hMem => hMain (List.mem_cons_of_mem _ hMem), hWorkers⟩
  · intro conn hMem hClosed
    -- The removal that is taken out is not the one that a table entry relies on.
    rcases hInv.begun conn hMem hClosed with hQueued | hWorker
    · left
      rw [hQueue] at hQueued
      rcases List.mem_cons.mp hQueued with hHead | hTail
      · exact absurd hMem (hDone conn hHead.symm)
      · exact hTail
    · exact Or.inr hWorker

/-- A connection that exists already is not touched by a new one. -/
theorem insert_created {s : ServerLoops κ ω} {conn other : κ} (state : ConnState)
    (hNew : s.created conn = false) (hOther : s.created other = true) :
    Function.update s.created conn true other = true ∧
      Function.update s.states conn state other = s.states other := by
  have hNe := ne_of_created hNew hOther
  rw [Function.update_of_ne hNe, Function.update_of_ne hNe]
  exact ⟨hOther, rfl⟩

/-- A connection of the new table is the new one, or an old one in its old state. -/
theorem ServerInv.mem_insert {s : ServerLoops κ ω} (hInv : ServerInv home s) {conn other : κ}
    (state : ConnState) (hNew : s.created conn = false)
    (hMem : other ∈ s.server.connections ++ [conn]) :
    other = conn ∨ (other ∈ s.server.connections ∧
      Function.update s.states conn state other = s.states other) := by
  rcases List.mem_append.mp hMem with hOld | hOne
  · exact Or.inr ⟨hOld, (insert_created state hNew (hInv.listed other hOld)).2⟩
  · exact Or.inl (List.mem_singleton.mp hOne)

/-- A new connection enters the table, in its first state. -/
theorem ServerInv.insert {s : ServerLoops κ ω} (hInv : ServerInv home s) {conn : κ}
    {state : ConnState} (hStarted : s.server.started = true) (hIdle : s.mainPc = .idle)
    (hNew : s.created conn = false) (hState : state ≠ .kDisconnected)
    (hHere : home conn = none → state.live = true) :
    ServerInv home
      { s with
        server := { s.server with connections := s.server.connections ++ [conn] }
        created := Function.update s.created conn true
        states := Function.update s.states conn state } := by
  have hKept : ∀ other, s.created other = true →
      Function.update s.created conn true other = true ∧
        Function.update s.states conn state other = s.states other :=
    fun _ hOther => insert_created state hNew hOther
  have hTable : ∀ other ∈ s.server.connections ++ [conn],
      other = conn ∨ (other ∈ s.server.connections ∧
        Function.update s.states conn state other = s.states other) :=
    fun _ hMem => hInv.mem_insert state hNew hMem
  have hAbsent : conn ∉ s.server.connections := fun hMem =>
    ne_of_created hNew (hInv.listed conn hMem) rfl
  have hRunning : ∀ {P : Prop}, s.server.started = false → P := by
    intro P hStopped
    rw [hStarted] at hStopped
    cases hStopped
  refine { hInv with
    est := ?_, forced := ?_, destroyed := ?_, fresh := ?_, listed := ?_, nodup := ?_,
    begun := ?_, here := ?_, complete := ?_, examined := ?_, second := ?_, posting := ?_ }
  · intro worker other hMem
    obtain ⟨hOther, hHome, hOld⟩ := hInv.est worker other hMem
    obtain ⟨hStill, hSame⟩ := hKept other hOld
    exact ⟨hSame.trans hOther, hHome, hStill⟩
  · intro worker other hMem
    obtain ⟨hOther, hHome⟩ := hInv.forced worker other hMem
    show Function.update s.states conn state other ≠ _ ∧ _
    rw [(hKept other (hInv.created_of_state hOther)).2]
    exact ⟨hOther, hHome⟩
  · intro worker other hMem
    obtain ⟨hGone, hOld⟩ := hInv.destroyed worker other hMem
    refine ⟨fun hIn => ?_, (hKept other hOld).1⟩
    rcases hTable other hIn with hSame | ⟨hIn, -⟩
    · exact ne_of_created hNew hOld hSame
    · exact hGone hIn
  · intro other hNot
    have hNot : Function.update s.created conn true other = false := hNot
    have hNe : other ≠ conn := by
      rintro rfl
      rw [Function.update_self] at hNot
      cases hNot
    rw [Function.update_of_ne hNe] at hNot
    show Function.update s.states conn state other = _ ∧ _
    rw [Function.update_of_ne hNe]
    exact hInv.fresh other hNot
  · intro other hMem
    rcases hTable other hMem with rfl | ⟨hOld, -⟩
    · show Function.update s.created other true other = true
      rw [Function.update_self]
    · exact (hKept other (hInv.listed other hOld)).1
  · exact List.nodup_append.mpr ⟨hInv.nodup, List.nodup_singleton conn, by
      intro other hOld one hOne hSame
      rw [List.mem_singleton.mp hOne] at hSame
      exact hAbsent (hSame ▸ hOld)⟩
  · intro other hMem hClosed
    have hClosed : Function.update s.states conn state other = .kDisconnected := hClosed
    rcases hTable other hMem with rfl | ⟨hOld, hSame⟩
    · rw [Function.update_self] at hClosed
      exact absurd hClosed hState
    · rw [hSame] at hClosed
      exact hInv.begun other hOld hClosed
  · intro other hMem hNone
    show (Function.update s.states conn state other).live = true
    rcases hTable other hMem with rfl | ⟨hOld, hSame⟩
    · rw [Function.update_self]
      exact hHere hNone
    · rw [hSame]
      exact hInv.here other hOld hNone
  · exact fun hStopped => hRunning hStopped
  · exact fun hStopped => hRunning hStopped
  · intro other rest hPc
    have hPc : s.mainPc = .secondTest other rest := hPc
    rw [hIdle] at hPc
    cases hPc
  · intro other rest hPc
    have hPc : s.mainPc = .posting other rest := hPc
    rw [hIdle] at hPc
    cases hPc

theorem closeHere_mainPc (s : ServerLoops κ ω) (pc : MainPc κ) (conn : κ) :
    { s with mainPc := pc }.closeHere conn = { s.closeHere conn with mainPc := pc } := by
  unfold ServerLoops.closeHere
  split <;> rfl

theorem mainPc_closeHere (s : ServerLoops κ ω) (conn : κ) :
    (s.closeHere conn).mainPc = s.mainPc := by
  unfold ServerLoops.closeHere
  split <;> rfl

theorem closeHere_closed {s : ServerLoops κ ω} {conn : κ}
    (hState : s.states conn ≠ .kConnecting) :
    (s.closeHere conn).states conn = .kDisconnected := by
  unfold ServerLoops.closeHere
  split
  · simp [ServerLoops.setState]
  · next hLive => exact ConnState.closed_of_not_live hState hLive

/-- A connection of the main loop closes and leaves the table. -/
theorem ServerInv.closeHere {s : ServerLoops κ ω} (hInv : ServerInv home s) (conn : κ) :
    ServerInv home (s.closeHere conn) := by
  unfold ServerLoops.closeHere
  split
  · next hLive =>
    have hState : s.states conn ≠ .kConnecting := by
      intro hConnecting
      rw [hConnecting] at hLive
      cases hLive
    obtain ⟨hErased, hGone⟩ := hInv.erase conn
    exact hErased.setState (hInv.not_est hState) (hInv.created_of_state hState) (by simp)
      (fun hMem => absurd hMem hGone) (fun hMem => absurd hMem hGone) (fun _ => rfl) (by simp)
  · exact hInv

variable [DecidableEq ω]

/-- A functor of a worker loop is queued. -/
theorem ServerInv.postWorker {s : ServerLoops κ ω} (hInv : ServerInv home s) {worker : ω}
    {functor : WorkerFunctor κ}
    (hEst : ∀ conn, functor = .connectEstablished conn →
      s.states conn = .kConnecting ∧ home conn = some worker ∧ s.created conn = true ∧
        .connectEstablished conn ∉ s.workerQueues worker)
    (hForced : ∀ conn, functor = .forceCloseInLoop conn →
      s.states conn ≠ .kConnecting ∧ home conn = some worker)
    (hDestroyed : ∀ conn, functor = .connectDestroyed conn →
      conn ∉ s.server.connections ∧ s.created conn = true) :
    ServerInv home (s.postWorker worker functor) := by
  have hQueue : ∀ other f, f ∈ (s.postWorker worker functor).workerQueues other →
      f ∈ s.workerQueues other ∨ (other = worker ∧ f = functor) := by
    intro other f hMem
    by_cases hOther : other = worker
    · subst hOther
      rcases (by simpa [ServerLoops.postWorker] using hMem :
        f ∈ s.workerQueues other ∨ f = functor) with hOld | hNew
      · exact Or.inl hOld
      · exact Or.inr ⟨rfl, hNew⟩
    · left
      simpa [ServerLoops.postWorker, hOther] using hMem
  have hKeep : ∀ other f, f ∈ s.workerQueues other →
      f ∈ (s.postWorker worker functor).workerQueues other := by
    intro other f hMem
    by_cases hOther : other = worker
    · subst hOther
      simp [ServerLoops.postWorker, hMem]
    · simpa [ServerLoops.postWorker, hOther] using hMem
  refine { hInv with
    est := ?_, est_once := ?_, forced := ?_, destroyed := ?_, examined := ?_ }
  · intro other conn hMem
    rcases hQueue other _ hMem with hOld | ⟨rfl, hNew⟩
    · exact hInv.est other conn hOld
    · obtain ⟨hState, hHome, hCreated, -⟩ := hEst conn hNew.symm
      exact ⟨hState, hHome, hCreated⟩
  · intro other conn
    have hOld := hInv.est_once other conn
    by_cases hOther : other = worker
    · subst hOther
      have hCount : ((s.postWorker other functor).workerQueues other).count
          (.connectEstablished conn) = (s.workerQueues other).count (.connectEstablished conn) +
            [functor].count (.connectEstablished conn) := by
        simp [ServerLoops.postWorker, List.count_append]
      rw [hCount]
      by_cases hNew : functor = .connectEstablished conn
      · have hZero := List.count_eq_zero.mpr (hEst conn hNew).2.2.2
        rw [hZero, hNew]
        simp
      · have hZero : [functor].count (.connectEstablished conn) = 0 :=
          List.count_eq_zero.mpr (by simpa using Ne.symm hNew)
        omega
    · simpa [ServerLoops.postWorker, hOther] using hOld
  · intro other conn hMem
    rcases hQueue other _ hMem with hOld | ⟨rfl, hNew⟩
    · exact hInv.forced other conn hOld
    · exact hForced conn hNew.symm
  · intro other conn hMem
    rcases hQueue other _ hMem with hOld | ⟨-, hNew⟩
    · exact hInv.destroyed other conn hOld
    · exact hDestroyed conn hNew.symm
  · intro hStopped conn hMem
    rcases hInv.examined hStopped conn hMem with hLeft | hClosed | ⟨other, hHome, hPending⟩
    · exact Or.inl hLeft
    · exact Or.inr (Or.inl hClosed)
    · exact Or.inr (Or.inr ⟨other, hHome, hKeep other _ hPending⟩)

/-- A functor of a worker loop is taken out; a forced close must have taken effect. -/
theorem ServerInv.popWorker {s : ServerLoops κ ω} (hInv : ServerInv home s) {worker : ω}
    {functor : WorkerFunctor κ} {rest : List (WorkerFunctor κ)}
    (hQueue : s.workerQueues worker = functor :: rest)
    (hDone : ∀ conn, functor = .forceCloseInLoop conn → s.states conn = .kDisconnected) :
    ServerInv home
      { s with workerQueues := Function.update s.workerQueues worker rest } := by
  have hSub : ∀ other, List.Sublist (Function.update s.workerQueues worker rest other)
      (s.workerQueues other) := by
    intro other
    by_cases hOther : other = worker
    · subst hOther
      rw [Function.update_self, hQueue]
      exact List.sublist_cons_self functor rest
    · rw [Function.update_of_ne hOther]
  refine { hInv with
    est := ?_, est_once := ?_, forced := ?_, destroyed := ?_, examined := ?_ }
  · exact fun other conn hMem => hInv.est other conn ((hSub other).subset hMem)
  · intro other conn
    exact ((hSub other).count_le _).trans (hInv.est_once other conn)
  · exact fun other conn hMem => hInv.forced other conn ((hSub other).subset hMem)
  · exact fun other conn hMem => hInv.destroyed other conn ((hSub other).subset hMem)
  · intro hStopped conn hMem
    rcases hInv.examined hStopped conn hMem with hLeft | hClosed | ⟨other, hHome, hPending⟩
    · exact Or.inl hLeft
    · exact Or.inr (Or.inl hClosed)
    · by_cases hOther : other = worker
      · -- The pending close is the functor that runs now, or it is still behind it.
        subst hOther
        rw [hQueue] at hPending
        rcases List.mem_cons.mp hPending with hHead | hTail
        · exact Or.inr (Or.inl (hDone conn hHead.symm))
        · refine Or.inr (Or.inr ⟨other, hHome, ?_⟩)
          show _ ∈ Function.update s.workerQueues other rest other
          rw [Function.update_self]
          exact hTail
      · refine Or.inr (Or.inr ⟨other, hHome, ?_⟩)
        show _ ∈ Function.update s.workerQueues worker rest other
        rw [Function.update_of_ne hOther]
        exact hPending

/-! ## Closing -/

/-- An idle worker enters `HandleClose` of one of its connections. -/
theorem ServerInv.beginClose {s : ServerLoops κ ω} (hInv : ServerInv home s) {worker : ω}
    {conn : κ} (hIdle : s.workerPcs worker = .idle) (hHome : home conn = some worker)
    (hState : s.states conn ≠ .kConnecting) : ServerInv home (s.beginClose worker conn) := by
  have hCreated := hInv.created_of_state hState
  have hEntered : ServerInv home
      { s with workerPcs := Function.update s.workerPcs worker (.closing conn) } := by
    refine { hInv with fresh := ?_, begun := ?_ }
    · intro other hNot
      obtain ⟨hOther, hMain, hWorkers⟩ := hInv.fresh other hNot
      refine ⟨hOther, hMain, fun busy => ?_⟩
      show Function.update s.workerPcs worker (.closing conn) busy ≠ .closing other
      by_cases hBusy : busy = worker
      · rw [hBusy, Function.update_self]
        rintro hSame
        obtain rfl : conn = other := by simpa using hSame
        rw [show s.created conn = false from hNot] at hCreated
        cases hCreated
      · rw [Function.update_of_ne hBusy]
        exact hWorkers busy
    · intro other hMem hClosed
      rcases hInv.begun other hMem hClosed with hQueued | ⟨busy, hBusyHome, hClosing⟩
      · exact Or.inl hQueued
      · refine Or.inr ⟨busy, hBusyHome, ?_⟩
        show Function.update s.workerPcs worker (.closing conn) busy = .closing other
        rw [Function.update_of_ne, hClosing]
        rintro rfl
        rw [hIdle] at hClosing
        cases hClosing
  refine hEntered.setState (hInv.not_est hState) hCreated (by simp) ?_ ?_ (fun _ => rfl)
    (by simp)
  · intro _ _
    refine Or.inr ⟨worker, hHome, ?_⟩
    show Function.update s.workerPcs worker (.closing conn) worker = .closing conn
    rw [Function.update_self]
  · intro _ hNone
    rw [hHome] at hNone
    cases hNone

/-- `HandleClose` posts `RemoveConnection`. -/
theorem ServerInv.postRemove {s : ServerLoops κ ω} (hInv : ServerInv home s) {worker : ω}
    {conn : κ} (hClosing : s.workerPcs worker = .closing conn) :
    ServerInv home
      { s with
        mainQueue := s.mainQueue ++ [.removeConnection conn]
        workerPcs := Function.update s.workerPcs worker .idle } := by
  refine { hInv with fresh := ?_, begun := ?_ }
  · intro other hNot
    obtain ⟨hOther, hMain, hWorkers⟩ := hInv.fresh other hNot
    refine ⟨hOther, ?_, fun busy => ?_⟩
    · have hNe : other ≠ conn := by
        rintro rfl
        exact hWorkers worker hClosing
      simpa [hNe] using hMain
    · show Function.update s.workerPcs worker .idle busy ≠ .closing other
      by_cases hBusy : busy = worker
      · rw [hBusy, Function.update_self]
        simp
      · rw [Function.update_of_ne hBusy]
        exact hWorkers busy
  · intro other hMem hClosed
    rcases hInv.begun other hMem hClosed with hQueued | ⟨busy, hBusyHome, hBusy⟩
    · exact Or.inl (List.mem_append_left _ hQueued)
    · by_cases hSame : busy = worker
      · -- The waiting removal of this worker is now in the queue.
        subst hSame
        rw [hClosing] at hBusy
        obtain rfl : conn = other := by simpa using hBusy
        exact Or.inl (List.mem_append_right _ (List.mem_singleton_self _))
      · refine Or.inr ⟨busy, hBusyHome, ?_⟩
        show Function.update s.workerPcs worker .idle busy = .closing other
        rw [Function.update_of_ne hSame, hBusy]

end ServerLoops
end SolarNet
