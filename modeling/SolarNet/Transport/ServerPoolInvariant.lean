import SolarNet.Net.EpollInterest
import SolarNet.Transport.LifecycleRuns
import SolarNet.Transport.ServerPool

/-!
# Where a connection of the thread pool is

A connection passes through seven phases, from before its creation to its destruction.
Each phase fixes where the connection occurs: in the table, in the queue of its worker
loop, in the queue of the main loop, or in a `HandleClose` in progress.  The file proves
that every step leaves all connections where they are, or moves one of them to its next
phase, and that no `ConnectDestroyed` comes behind a `Quit` in the queue of a worker.
-/

namespace SolarNet

namespace TcpConnection

/-- The poller does not know the channel. -/
structure Detached (c : TcpConnection) : Prop where
  registered : c.channel.Registered
  index_eq : c.channel.index = .kNew
  mapped_eq : c.channel.mapped = false
  writing_eq : c.channel.isWriting = false

/-- The poller knows the channel. -/
structure Attached (c : TcpConnection) : Prop where
  registered : c.channel.Registered
  index_ne : c.channel.index ≠ .kNew

theorem new_detached (callbacks : ConnCallbacks) (highWaterMark : Nat) :
    (new callbacks highWaterMark).Detached :=
  ⟨Channel.new_registered, rfl, rfl, rfl⟩

theorem Detached.of_channel {c c' : TcpConnection} (hConn : c.Detached)
    (hChannel : c'.channel = c.channel) : c'.Detached := by
  obtain ⟨hRegistered, hIndex, hMapped, hWriting⟩ := hConn
  constructor <;> rw [hChannel] <;> assumption

theorem Attached.of_channel {c c' : TcpConnection} (hConn : c.Attached)
    (hChannel : c'.channel = c.channel) : c'.Attached := by
  obtain ⟨hRegistered, hIndex⟩ := hConn
  constructor <;> rw [hChannel] <;> assumption

/-- The mask of an attached channel changes. -/
theorem Attached.update {c c' : TcpConnection} (hConn : c.Attached) {events : PollEvents}
    (hChannel : c'.channel = { c.channel with events := events }.updateChannel) :
    c'.Attached := by
  constructor
  · rw [hChannel]
    exact Channel.updateChannel_registered hConn.registered events
  · rw [hChannel]
    exact Channel.updateChannel_index hConn.index_ne

theorem connectEstablished_attached {c : TcpConnection} (hConn : c.Detached) :
    c.connectEstablished.Attached := by
  have hChannel : c.connectEstablished.channel = c.channel.setTie.enableReading :=
    report_channel _
  constructor
  · rw [hChannel]
    have hTied : c.channel.setTie.Registered :=
      ⟨hConn.registered.interest_eq, hConn.registered.mapped_of_index⟩
    exact Channel.updateChannel_registered hTied _
  · rw [hChannel, Channel.enableReading_index]
    decide

/-- `ConnectDestroyed` after `HandleClose`. -/
theorem leavePoller_detached {c : TcpConnection} (hConn : c.Attached)
    (hWriting : c.channel.isWriting = false) : c.leavePoller.Detached := by
  have hChannel : c.leavePoller.channel = c.channel.removeChannel := by
    unfold leavePoller
    rw [if_neg hConn.index_ne]
  constructor
  · rw [hChannel]
    exact Channel.removeChannel_registered hConn.registered
  · rw [hChannel]
    rfl
  · rw [hChannel]
    exact Channel.removeChannel_mapped _
  · rw [hChannel, Channel.isWriting_removeChannel]
    exact hWriting

/-! ## Between creation and close -/

theorem perform_onlyOutput (c : TcpConnection) (act : ConnAct) :
    OnlyOutput c (c.perform act) := by
  cases act with
  | sendInLoop message call => exact OnlyOutput.sendInLoop c message call
  | shutdownInLoop => exact OnlyOutput.shutdownInLoop c
  | handleWrite call => exact OnlyOutput.handleWrite c call
  | receive call => exact OnlyOutput.of_same rfl rfl rfl

theorem perform_channel (c : TcpConnection) (act : ConnAct) :
    (c.perform act).channel = c.channel ∨
      (c.state = .kConnected ∨ c.channel.isWriting = true) ∧
        ∃ events, (c.perform act).channel =
          { c.channel with events := events }.updateChannel := by
  cases act with
  | sendInLoop message call =>
      rcases sendInLoop_channel c message call with hKept | ⟨hState, hEnabled⟩
      · exact Or.inl hKept
      · exact Or.inr ⟨Or.inl hState, _, hEnabled⟩
  | shutdownInLoop => exact Or.inl (shutdownInLoop_channel c)
  | handleWrite call =>
      rcases handleWrite_channel c call with hKept | ⟨hWriting, hDisabled⟩
      · exact Or.inl hKept
      · exact Or.inr ⟨Or.inr hWriting, _, hDisabled⟩
  | receive call => exact Or.inl rfl

/-- The loop leaves a connection alone that is not connected and does not write. -/
theorem perform_inert {c : TcpConnection} (act : ConnAct) (hState : c.state ≠ .kConnected)
    (hWriting : c.channel.isWriting = false) :
    (c.perform act).channel = c.channel ∧ (c.perform act).state = c.state := by
  constructor
  · rcases perform_channel c act with hKept | ⟨hConnected | hWrites, -⟩
    · exact hKept
    · exact absurd hConnected hState
    · rw [hWriting] at hWrites
      cases hWrites
  · rcases (perform_onlyOutput c act).state_eq with hKept | ⟨hConnected, -⟩
    · exact hKept
    · exact absurd hConnected hState

theorem perform_attached {c : TcpConnection} (act : ConnAct) (hConn : c.Attached) :
    (c.perform act).Attached := by
  rcases perform_channel c act with hKept | ⟨-, events, hChanged⟩
  · exact hConn.of_channel hKept
  · exact hConn.update hChanged

theorem perform_live {c : TcpConnection} (act : ConnAct) (hLive : c.state.live = true) :
    (c.perform act).state.live = true := by
  rcases (perform_onlyOutput c act).state_eq with hKept | ⟨-, hShutdown⟩
  · rw [hKept]
    exact hLive
  · rw [hShutdown]
    rfl

end TcpConnection

theorem PoolWorker.closing_of_free {κ : Type*} {worker : PoolWorker κ}
    (hFree : worker.free = true) : worker.closing = none := by
  unfold free at hFree
  split at hFree
  · cases hFree
  · exact Option.isNone_iff_eq_none.mp hFree
  · exact Option.isNone_iff_eq_none.mp hFree

/-! ## Phases -/

/-- The phases of a connection of the pool. -/
inductive ConnPhase where
  /-- The connection has not been created. -/
  | fresh
  /-- `ConnectEstablished` waits. -/
  | assigned
  | opened
  /-- In `HandleClose`, before the close callback. -/
  | closing
  /-- `RemoveConnectionInLoop` waits. -/
  | reported
  /-- `ConnectDestroyed` waits. -/
  | removed
  | destroyed
  deriving DecidableEq, Repr

/-- Where a connection occurs. -/
structure ConnView (ω : Type*) where
  created : Bool
  /-- The entries of `m_connections`. -/
  listed : Nat
  establishing : Nat
  closing : Bool
  removing : Nat
  destroying : Nat
  closes : Nat
  destroyedOn : List ω

namespace ConnPhase

/-- Where a connection of a loop occurs in each phase. -/
def view {ω : Type*} (worker : ω) : ConnPhase → ConnView ω
  | .fresh => ⟨false, 0, 0, false, 0, 0, 0, []⟩
  | .assigned => ⟨true, 1, 1, false, 0, 0, 0, []⟩
  | .opened => ⟨true, 1, 0, false, 0, 0, 0, []⟩
  | .closing => ⟨true, 1, 0, true, 0, 0, 1, []⟩
  | .reported => ⟨true, 1, 0, false, 1, 0, 1, []⟩
  | .removed => ⟨true, 0, 0, false, 0, 1, 1, []⟩
  | .destroyed => ⟨true, 0, 0, false, 0, 0, 1, [worker]⟩

/-- What the connection itself looks like in each phase. -/
def Fits (c : TcpConnection) : ConnPhase → Prop
  | .fresh | .assigned => c.Detached ∧ c.state = .kConnecting
  | .opened => c.Attached ∧ c.state.live = true
  | .closing | .reported | .removed =>
      c.Attached ∧ c.state = .kDisconnected ∧ c.channel.isWriting = false
  | .destroyed => c.Detached ∧ c.state = .kDisconnected

/-- What the loop does between creation and close does not change the phase. -/
theorem Fits.perform {c : TcpConnection} {phase : ConnPhase} (hFits : phase.Fits c)
    (act : ConnAct) : phase.Fits (c.perform act) := by
  have hInert : c.state ≠ .kConnected → c.channel.isWriting = false →
      (c.perform act).channel = c.channel ∧ (c.perform act).state = c.state :=
    TcpConnection.perform_inert act
  cases phase with
  | fresh | assigned | destroyed =>
      obtain ⟨hConn, hState⟩ := hFits
      obtain ⟨hChannel, hSame⟩ := hInert (by rw [hState]; decide) hConn.writing_eq
      exact ⟨hConn.of_channel hChannel, hSame.trans hState⟩
  | opened =>
      obtain ⟨hConn, hLive⟩ := hFits
      exact ⟨TcpConnection.perform_attached act hConn, TcpConnection.perform_live act hLive⟩
  | closing | reported | removed =>
      obtain ⟨hConn, hState, hWriting⟩ := hFits
      obtain ⟨hChannel, hSame⟩ := hInert (by rw [hState]; decide) hWriting
      exact ⟨hConn.of_channel hChannel, hSame.trans hState, by rw [hChannel]; exact hWriting⟩

theorem Fits.connectEstablished {c : TcpConnection} (hFits : assigned.Fits c) :
    opened.Fits c.connectEstablished := by
  refine ⟨TcpConnection.connectEstablished_attached hFits.1, ?_⟩
  rw [TcpConnection.connectEstablished, TcpConnection.report_state]
  rfl

theorem Fits.beginClose {c : TcpConnection} (hFits : opened.Fits c) :
    closing.Fits c.beginClose :=
  ⟨hFits.1.update rfl, rfl, Channel.isWriting_disableAll _⟩

theorem Fits.report {c : TcpConnection} (hFits : closing.Fits c) : reported.Fits c.report := by
  obtain ⟨hConn, hState, hWriting⟩ := hFits
  refine ⟨hConn.of_channel (TcpConnection.report_channel c), ?_, ?_⟩
  · rw [TcpConnection.report_state]
    exact hState
  · rw [TcpConnection.report_channel]
    exact hWriting

/-- `ConnectDestroyed` finds a closed connection, so it calls no callback. -/
theorem Fits.connectDestroyed {c : TcpConnection} (hFits : removed.Fits c) :
    destroyed.Fits c.connectDestroyed.leavePoller := by
  obtain ⟨hConn, hState, hWriting⟩ := hFits
  have hClosed : c.connectDestroyed = c := by
    unfold TcpConnection.connectDestroyed
    rw [if_neg (by rw [hState]; decide)]
  rw [hClosed]
  refine ⟨TcpConnection.leavePoller_detached hConn hWriting, ?_⟩
  rw [TcpConnection.leavePoller_state]
  exact hState

end ConnPhase

namespace ServerPool

variable {κ ω : Type*} [DecidableEq κ] {home : κ → ω} {threads : List ω}

/-! ## Places -/

/-- Where a connection occurs in a state. -/
def view (home : κ → ω) (s : ServerPool κ ω) (conn : κ) : ConnView ω where
  created := s.created conn
  listed := s.server.connections.count conn
  establishing := (s.workers (home conn)).jobs.count (.connectEstablished conn)
  closing := (s.workers (home conn)).closing == some conn
  removing := s.mainQueue.count (.removeConnection conn)
  destroying := (s.workers (home conn)).jobs.count (.connectDestroyed conn)
  closes := s.closes conn
  destroyedOn := s.destroyedOn conn

/-- The connection is in this phase. -/
structure At (home : κ → ω) (s : ServerPool κ ω) (conn : κ) (phase : ConnPhase) : Prop where
  view_eq : s.view home conn = phase.view (home conn)
  fits : phase.Fits (s.conns conn)

/-- Every connection is in one of the phases. -/
def Placed (home : κ → ω) (s : ServerPool κ ω) : Prop := ∀ conn, ∃ phase, At home s conn phase

section Phase

variable {s : ServerPool κ ω} {conn : κ} {phase : ConnPhase}

theorem At.fresh_of_created (hAt : At home s conn phase) (hCreated : s.created conn = false) :
    phase = .fresh := by
  have hView : (phase.view (home conn)).created = false := by
    rw [← hAt.view_eq]
    exact hCreated
  cases phase with
  | fresh => rfl
  | _ => cases hView

theorem At.assigned_of_mem (hAt : At home s conn phase)
    (hMem : .connectEstablished conn ∈ (s.workers (home conn)).jobs) : phase = .assigned := by
  have hView : 0 < (phase.view (home conn)).establishing := by
    rw [← hAt.view_eq]
    exact List.count_pos_iff.mpr hMem
  cases phase with
  | assigned => rfl
  | _ => cases hView

theorem At.removed_of_mem (hAt : At home s conn phase)
    (hMem : .connectDestroyed conn ∈ (s.workers (home conn)).jobs) : phase = .removed := by
  have hView : 0 < (phase.view (home conn)).destroying := by
    rw [← hAt.view_eq]
    exact List.count_pos_iff.mpr hMem
  cases phase with
  | removed => rfl
  | _ => cases hView

theorem At.closing_of_eq (hAt : At home s conn phase)
    (hClosing : (s.workers (home conn)).closing = some conn) : phase = .closing := by
  have hView : (phase.view (home conn)).closing = true := by
    rw [← hAt.view_eq]
    simp [view, hClosing]
  cases phase with
  | closing => rfl
  | _ => cases hView

theorem At.reported_of_mem (hAt : At home s conn phase)
    (hMem : .removeConnection conn ∈ s.mainQueue) : phase = .reported := by
  have hView : 0 < (phase.view (home conn)).removing := by
    rw [← hAt.view_eq]
    exact List.count_pos_iff.mpr hMem
  cases phase with
  | reported => rfl
  | _ => cases hView

/-- The first `HandleClose` of an established connection. -/
theorem At.opened_of_closes (hAt : At home s conn phase) (hCloses : s.closes conn = 0)
    (hState : (s.conns conn).state ≠ .kConnecting) : phase = .opened := by
  have hView : (phase.view (home conn)).closes = 0 := by
    rw [← hAt.view_eq]
    exact hCloses
  cases phase with
  | opened => rfl
  | fresh | assigned => exact absurd hAt.fits.2 hState
  | _ => cases hView

theorem At.opened_of_live (hAt : At home s conn phase)
    (hLive : (s.conns conn).state.live = true) : phase = .opened := by
  have hClosed : ∀ state, (s.conns conn).state = state → state.live = false → phase = .opened := by
    intro state hState hNotLive
    rw [hState, hNotLive] at hLive
    cases hLive
  cases phase with
  | opened => rfl
  | fresh | assigned | destroyed => exact hClosed _ hAt.fits.2 rfl
  | closing | reported | removed => exact hClosed _ hAt.fits.2.1 rfl

/-- A created connection that has left the table, and whose `ConnectDestroyed` does not
wait, is destroyed. -/
theorem At.destroyed_of_empty (hAt : At home s conn phase) (hCreated : s.created conn = true)
    (hTable : s.server.connections = [])
    (hJobs : .connectDestroyed conn ∉ (s.workers (home conn)).jobs) : phase = .destroyed := by
  have hView := hAt.view_eq
  have hListed : (phase.view (home conn)).listed = 0 := by
    rw [← hView]
    simp [view, hTable]
  have hDestroying : (phase.view (home conn)).destroying = 0 := by
    rw [← hView]
    exact List.count_eq_zero.mpr hJobs
  have hExists : (phase.view (home conn)).created = true := by
    rw [← hView]
    exact hCreated
  cases phase with
  | destroyed => rfl
  | fresh => cases hExists
  | removed => cases hDestroying
  | _ => cases hListed

end Phase

/-- A step that leaves every connection where it is. -/
theorem Placed.same {s s' : ServerPool κ ω} (hPlaced : Placed home s)
    (hView : ∀ conn, s'.view home conn = s.view home conn) (hConns : s'.conns = s.conns) :
    Placed home s' := by
  intro conn
  obtain ⟨phase, hAt⟩ := hPlaced conn
  refine ⟨phase, (hView conn).trans hAt.view_eq, ?_⟩
  rw [hConns]
  exact hAt.fits

/-- A step that moves one connection. -/
theorem Placed.move {s s' : ServerPool κ ω} (hPlaced : Placed home s) (conn : κ)
    (phase : ConnPhase) (hAt : At home s' conn phase)
    (hView : ∀ other, other ≠ conn → s'.view home other = s.view home other)
    (hConns : ∀ other, other ≠ conn → s'.conns other = s.conns other) : Placed home s' := by
  intro other
  by_cases hOther : other = conn
  · rw [hOther]
    exact ⟨phase, hAt⟩
  · obtain ⟨phase', hAt'⟩ := hPlaced other
    refine ⟨phase', (hView other hOther).trans hAt'.view_eq, ?_⟩
    rw [hConns other hOther]
    exact hAt'.fits

theorem running_placed (threadNum : Nat) (callbacks : κ → ConnCallbacks)
    (highWaterMark : κ → Nat) :
    Placed home (running threadNum callbacks highWaterMark : ServerPool κ ω) := by
  intro conn
  exact ⟨.fresh, rfl, TcpConnection.new_detached _ _, rfl⟩

/-! ## The steps of a worker -/

section Moves

variable [DecidableEq ω]

/-- A worker changes without touching the functors of the connection that count. -/
theorem view_setWorker (s : ServerPool κ ω) {worker : ω} {next : PoolWorker κ} {conn : κ}
    (hEst : next.jobs.count (.connectEstablished conn) =
      (s.workers worker).jobs.count (.connectEstablished conn))
    (hDes : next.jobs.count (.connectDestroyed conn) =
      (s.workers worker).jobs.count (.connectDestroyed conn))
    (hClosing : (next.closing == some conn) = ((s.workers worker).closing == some conn)) :
    (s.setWorker worker next).view home conn = s.view home conn := by
  by_cases hHome : home conn = worker
  · subst hHome
    simp [view, setWorker, hEst, hDes, hClosing]
  · simp [view, setWorker, hHome]

/-- A functor that is posted counts for its own connection only. -/
theorem view_post (s : ServerPool κ ω) (worker : ω) {functor : PoolFunctor κ} {conn : κ}
    (hEst : functor ≠ .connectEstablished conn) (hDes : functor ≠ .connectDestroyed conn) :
    (s.post worker functor).view home conn = s.view home conn := by
  refine view_setWorker s ?_ ?_ rfl
  · simp [PoolWorker.jobs, List.count_cons_of_ne hEst]
  · simp [PoolWorker.jobs, List.count_cons_of_ne hDes]

/-- The functor counts for its connection. -/
theorem view_post_home (s : ServerPool κ ω) (functor : PoolFunctor κ) (conn : κ) :
    (s.post (home conn) functor).view home conn =
      { s.view home conn with
        establishing := (s.view home conn).establishing +
          [functor].count (.connectEstablished conn)
        destroying := (s.view home conn).destroying +
          [functor].count (.connectDestroyed conn) } := by
  simp [view, post, setWorker, PoolWorker.jobs, Nat.add_assoc]

theorem Placed.post {s : ServerPool κ ω} (hPlaced : Placed home s) (worker : ω)
    {functor : PoolFunctor κ} (hEst : ∀ conn, functor ≠ .connectEstablished conn)
    (hDes : ∀ conn, functor ≠ .connectDestroyed conn) :
    Placed home (s.post worker functor) :=
  hPlaced.same (fun conn => view_post s worker (hEst conn) (hDes conn)) rfl

section Pop

variable {s : ServerPool κ ω} {worker : ω} {functor : PoolFunctor κ}
  {rest : List (PoolFunctor κ)}

omit [DecidableEq κ] in
@[simp] theorem pop_conns : (s.pop worker rest).conns = s.conns := rfl

omit [DecidableEq κ] in
theorem pop_jobs (hBatch : (s.workers worker).phase = .functors (functor :: rest)) :
    (s.workers worker).jobs = functor :: ((s.pop worker rest).workers worker).jobs := by
  simp [pop, setWorker, PoolWorker.jobs, WorkerPhase.batch, hBatch]

theorem view_pop (hBatch : (s.workers worker).phase = .functors (functor :: rest)) {conn : κ}
    (hEst : functor ≠ .connectEstablished conn) (hDes : functor ≠ .connectDestroyed conn) :
    (s.pop worker rest).view home conn = s.view home conn := by
  refine view_setWorker s ?_ ?_ rfl
  · simp [PoolWorker.jobs, WorkerPhase.batch, hBatch, List.count_cons_of_ne hEst]
  · simp [PoolWorker.jobs, WorkerPhase.batch, hBatch, List.count_cons_of_ne hDes]

/-- The functor counts no more for its connection. -/
theorem view_pop_home {conn : κ}
    (hBatch : (s.workers (home conn)).phase = .functors (functor :: rest)) :
    (s.pop (home conn) rest).view home conn =
      { s.view home conn with
        establishing := (s.view home conn).establishing -
          [functor].count (.connectEstablished conn)
        destroying := (s.view home conn).destroying -
          [functor].count (.connectDestroyed conn) } := by
  simp [view, pop, setWorker, PoolWorker.jobs, WorkerPhase.batch, hBatch, List.count_cons]

theorem Placed.pop (hPlaced : Placed home s)
    (hBatch : (s.workers worker).phase = .functors (functor :: rest))
    (hEst : ∀ conn, functor ≠ .connectEstablished conn)
    (hDes : ∀ conn, functor ≠ .connectDestroyed conn) : Placed home (s.pop worker rest) :=
  hPlaced.same (fun conn => view_pop hBatch (hEst conn) (hDes conn)) rfl

end Pop

/-! ## What moves a connection -/

/-- `NewConnection`. -/
theorem Placed.newConnection {s : ServerPool κ ω} (hPlaced : Placed home s) {conn : κ}
    (hCreated : s.created conn = false) : Placed home (s.newConnection home conn) := by
  obtain ⟨phase, hAt⟩ := hPlaced conn
  obtain rfl := hAt.fresh_of_created hCreated
  refine hPlaced.move conn .assigned ⟨?_, hAt.fits⟩ ?_ fun _ _ => rfl
  · have hEnroll : (s.enroll conn).view home conn =
        { s.view home conn with created := true, listed := (s.view home conn).listed + 1 } := by
      simp [view, enroll]
    calc (s.newConnection home conn).view home conn
      _ = ((s.enroll conn).post (home conn) (.connectEstablished conn)).view home conn := rfl
      _ = ConnPhase.assigned.view (home conn) := by
          rw [view_post_home, hEnroll, hAt.view_eq]
          simp [ConnPhase.view]
  · intro other hOther
    calc (s.newConnection home conn).view home other
      _ = (s.enroll conn).view home other :=
          view_post _ _ (by simpa using Ne.symm hOther) (by simp)
      _ = s.view home other := by simp [view, enroll, hOther, Ne.symm hOther]

/-- `RemoveConnectionInLoop`, the next functor of the main loop. -/
theorem Placed.removeConnection {s : ServerPool κ ω} (hPlaced : Placed home s) {conn : κ}
    {rest : List (MainFunctor κ)} (hQueue : s.mainQueue = .removeConnection conn :: rest) :
    Placed home ({ s with mainQueue := rest }.removeConnection home threads conn) := by
  obtain ⟨phase, hAt⟩ := hPlaced conn
  obtain rfl := hAt.reported_of_mem (by rw [hQueue]; exact List.mem_cons_self)
  have hSame : ∀ other,
      ({ s with mainQueue := rest }.removeConnection home threads conn).view home other =
        (({ s with mainQueue := rest }.erase conn).post (home conn)
          (.connectDestroyed conn)).view home other := by
    intro other
    unfold ServerPool.removeConnection
    split
    · rfl
    · rfl
  refine hPlaced.move conn .removed ⟨?_, ?_⟩ ?_ ?_
  · have hErase : ({ s with mainQueue := rest }.erase conn).view home conn =
        { s.view home conn with
          listed := (s.view home conn).listed - 1
          removing := (s.view home conn).removing - 1 } := by
      simp [view, ServerPool.erase, hQueue]
    rw [hSame, view_post_home, hErase, hAt.view_eq]
    simp [ConnPhase.view]
  · unfold ServerPool.removeConnection
    split
    · exact hAt.fits
    · exact hAt.fits
  · intro other hOther
    rw [hSame, view_post _ _ (by simp) (by simpa using Ne.symm hOther)]
    simp [view, ServerPool.erase, hQueue, hOther, Ne.symm hOther]
  · intro other _
    unfold ServerPool.removeConnection
    split
    · rfl
    · rfl

/-- `ConnectEstablished` runs on the loop of the connection. -/
theorem Placed.runEstablished {s : ServerPool κ ω} (hPlaced : Placed home s) {conn : κ}
    {rest : List (PoolFunctor κ)}
    (hBatch : (s.workers (home conn)).phase = .functors (.connectEstablished conn :: rest)) :
    Placed home ((s.pop (home conn) rest).runFunctor (home conn) (.connectEstablished conn)) := by
  obtain ⟨phase, hAt⟩ := hPlaced conn
  obtain rfl := hAt.assigned_of_mem (by rw [pop_jobs hBatch]; exact List.mem_cons_self)
  refine hPlaced.move conn .opened ⟨?_, ?_⟩ ?_ ?_
  · calc ((s.pop (home conn) rest).runFunctor (home conn) (.connectEstablished conn)).view home conn
      _ = (s.pop (home conn) rest).view home conn := rfl
      _ = ConnPhase.opened.view (home conn) := by
          rw [view_pop_home hBatch, hAt.view_eq]
          simp [ConnPhase.view]
  · simpa [runFunctor, setConn] using hAt.fits.connectEstablished
  · intro other hOther
    exact view_pop hBatch (by simpa using Ne.symm hOther) (by simp)
  · intro other hOther
    simp [runFunctor, setConn, hOther]

/-- `ConnectDestroyed` runs on the loop of the connection. -/
theorem Placed.runDestroyed {s : ServerPool κ ω} (hPlaced : Placed home s) {conn : κ}
    {rest : List (PoolFunctor κ)}
    (hBatch : (s.workers (home conn)).phase = .functors (.connectDestroyed conn :: rest)) :
    Placed home ((s.pop (home conn) rest).runFunctor (home conn) (.connectDestroyed conn)) := by
  obtain ⟨phase, hAt⟩ := hPlaced conn
  obtain rfl := hAt.removed_of_mem (by rw [pop_jobs hBatch]; exact List.mem_cons_self)
  refine hPlaced.move conn .destroyed ⟨?_, ?_⟩ ?_ ?_
  · have hRun : ((s.pop (home conn) rest).runFunctor (home conn)
        (.connectDestroyed conn)).view home conn =
        { (s.pop (home conn) rest).view home conn with
          destroyedOn := (s.view home conn).destroyedOn ++ [home conn] } := by
      simp [view, runFunctor, setConn, ServerPool.pop, setWorker]
    rw [hRun, view_pop_home hBatch, hAt.view_eq]
    simp [ConnPhase.view]
  · simpa [runFunctor, setConn] using hAt.fits.connectDestroyed
  · intro other hOther
    calc ((s.pop (home conn) rest).runFunctor (home conn) (.connectDestroyed conn)).view home other
      _ = (s.pop (home conn) rest).view home other := by simp [view, runFunctor, setConn, hOther]
      _ = s.view home other := view_pop hBatch (by simp) (by simpa using Ne.symm hOther)
  · intro other hOther
    simp [runFunctor, setConn, hOther]

/-- `HandleClose` begins on the loop of the connection. -/
theorem Placed.beginClose {s : ServerPool κ ω} (hPlaced : Placed home s) {conn : κ}
    (hAt : At home s conn .opened) (hFree : (s.workers (home conn)).closing = none) :
    Placed home (s.beginClose (home conn) conn) := by
  refine hPlaced.move conn .closing ⟨?_, ?_⟩ ?_ ?_
  · have hView : (s.beginClose (home conn) conn).view home conn =
        { s.view home conn with
          closing := true
          closes := (s.view home conn).closes + 1 } := by
      simp [view, ServerPool.beginClose, setConn, setWorker, PoolWorker.jobs]
    rw [hView, hAt.view_eq]
    simp [ConnPhase.view]
  · simpa [ServerPool.beginClose, setConn, setWorker] using hAt.fits.beginClose
  · intro other hOther
    calc (s.beginClose (home conn) conn).view home other
      _ = (s.setWorker (home conn) { s.workers (home conn) with closing := some conn }).view
          home other := by simp [view, ServerPool.beginClose, setConn, setWorker, hOther]
      _ = s.view home other := by
          refine view_setWorker s rfl rfl ?_
          simp [hFree, Ne.symm hOther]
  · intro other hOther
    simp [ServerPool.beginClose, setConn, setWorker, hOther]

theorem Placed.endClose {s : ServerPool κ ω} (hPlaced : Placed home s) {conn : κ}
    (hClosing : (s.workers (home conn)).closing = some conn) :
    Placed home (s.endClose (home conn) conn) := by
  obtain ⟨phase, hAt⟩ := hPlaced conn
  obtain rfl := hAt.closing_of_eq hClosing
  refine hPlaced.move conn .reported ⟨?_, ?_⟩ ?_ ?_
  · have hView : (s.endClose (home conn) conn).view home conn =
        { s.view home conn with
          closing := false
          removing := (s.view home conn).removing + 1 } := by
      simp [view, ServerPool.endClose, setConn, setWorker, PoolWorker.jobs]
    rw [hView, hAt.view_eq]
    simp [ConnPhase.view]
  · simpa [ServerPool.endClose, setConn, setWorker] using hAt.fits.report
  · intro other hOther
    calc (s.endClose (home conn) conn).view home other
      _ = (s.setWorker (home conn) { s.workers (home conn) with closing := none }).view
          home other := by
          simp [view, ServerPool.endClose, setConn, setWorker, Ne.symm hOther]
      _ = s.view home other := by
          refine view_setWorker s rfl rfl ?_
          simp [hClosing, Ne.symm hOther]
  · intro other hOther
    simp [ServerPool.endClose, setConn, setWorker, hOther]

omit [DecidableEq ω] in
theorem Placed.perform {s : ServerPool κ ω} (hPlaced : Placed home s) (conn : κ)
    (act : ConnAct) : Placed home (s.setConn conn ((s.conns conn).perform act)) := by
  obtain ⟨phase, hAt⟩ := hPlaced conn
  refine hPlaced.move conn phase ⟨hAt.view_eq, ?_⟩ (fun _ _ => rfl) ?_
  · simpa [setConn] using hAt.fits.perform act
  · intro other hOther
    simp [setConn, hOther]

end Moves

end ServerPool
end SolarNet
