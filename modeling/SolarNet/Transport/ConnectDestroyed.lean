import SolarNet.Transport.Lifecycle
import SolarNet.Transport.WriteInterest

/-!
# The end of a connection

`ConnectDestroyed` with the assertions that it runs into: those of
`EpollPoller::UpdateChannel`, of `Channel::Remove` and of
`EpollPoller::RemoveChannel`.  A failed assertion ends the program, and so it ends a
run here.

The function turns off the events of a `kConnected` connection itself, and those of a
`kDisconnected` one were turned off by `HandleClose`.  A connection that is
`kDisconnecting` still reads, and nothing turns that off.  And `HandleClose` calls the
close callback before it reports the disconnection, so an owner that answers the close
callback with `ConnectDestroyed`, as `TcpServer` does on a single loop, is back before the
report.  The result of this file is that `ConnectDestroyed` completes from every state but
these two.
-/

namespace SolarNet

open Lib

namespace Channel

/-- The assertion of `UpdateChannel`. -/
def UpdateAsserts (c : Channel) : Prop := c.index = .kNew → c.mapped = false

/-- The assertions of `Channel::Remove` and of `RemoveChannel`. -/
def RemoveAsserts (c : Channel) : Prop := c.isNoneEvent = true ∧ c.mapped = true

instance (c : Channel) : Decidable c.UpdateAsserts := inferInstanceAs (Decidable (_ → _))

instance (c : Channel) : Decidable c.RemoveAsserts := inferInstanceAs (Decidable (_ ∧ _))

end Channel

namespace TcpConnection

/-! ## The functions with their assertions -/

/-- The end of `ConnectDestroyed`, unless an assertion fails. -/
def leavePollerChecked (c : TcpConnection) : Option TcpConnection :=
  if c.channel.index = .kNew then some c
  else if c.channel.RemoveAsserts then some { c with channel := c.channel.removeChannel }
  else none

/-- `ConnectDestroyed`, unless an assertion fails. -/
def connectDestroyedChecked (c : TcpConnection) : Option TcpConnection :=
  if c.state = .kConnected then
    if ({ c.channel with events := Channel.kNoneEvent } : Channel).UpdateAsserts then
      c.beginDestroy.leavePollerChecked
    else none
  else c.leavePollerChecked

/-- Without a failed assertion it is the function that the rest of the development
uses. -/
theorem connectDestroyedChecked_eq {c c' : TcpConnection}
    (hChecked : c.connectDestroyedChecked = some c') :
    c' = c.connectDestroyed.leavePoller := by
  have hLeave : ∀ d : TcpConnection, d.leavePollerChecked = some c' → c' = d.leavePoller := by
    intro d hSome
    unfold leavePollerChecked at hSome
    unfold leavePoller
    split at hSome
    · next hNew => rw [if_pos hNew, Option.some.inj hSome]
    split at hSome
    · next hOld _ => rw [if_neg hOld, Option.some.inj hSome]
    · cases hSome
  unfold connectDestroyedChecked at hChecked
  unfold connectDestroyed
  split at hChecked
  · next hState =>
    rw [if_pos hState]
    obtain ⟨-, hRest⟩ := Option.ite_none_right_eq_some.mp hChecked
    exact hLeave _ hRest
  · next hState =>
    rw [if_neg hState]
    exact hLeave _ hChecked

end TcpConnection

/-- A connection in a build with assertions. -/
structure CheckedConn where
  conn : TcpConnection
  /-- `HandleClose` has called the close callback, which has not returned. -/
  closing : Bool
  deriving DecidableEq, Repr

/-- What the loop runs on a connection after `ConnectEstablished`. -/
inductive CheckedLabel where
  | sendInLoop (message : List Byte) (call : SysWrite)
  | shutdownInLoop
  | forceCloseInLoop
  | handleRead (call : SysRead)
  | handleWrite (call : SysWrite)
  | handleClose
  /-- The close callback returns, and `HandleClose` goes on. -/
  | closeReturn
  /-- `ConnectDestroyed` of a `kConnected` connection, up to and with the connection
  callback. -/
  | beginDestroy
  /-- The end of `ConnectDestroyed`. -/
  | leavePoller
  deriving DecidableEq, Repr

namespace CheckedConn

def new (callbacks : ConnCallbacks) (highWaterMark : Nat) : CheckedConn where
  conn := (TcpConnection.new callbacks highWaterMark).connectEstablished
  closing := false

/-- `HandleClose` asserts that the connection is live. -/
def handleClose (s : CheckedConn) : Option CheckedConn :=
  if s.conn.state.live then some ⟨s.conn.beginClose, true⟩ else none

def setConn (s : CheckedConn) (conn : TcpConnection) : CheckedConn := { s with conn := conn }

/-- One step, unless an assertion fails.  What a callback does to the connection are steps
between the two halves of the function that called it. -/
def step (s : CheckedConn) : CheckedLabel → Option CheckedConn
  | .sendInLoop message call => some (s.setConn (s.conn.sendInLoop message call))
  | .shutdownInLoop => some (s.setConn s.conn.shutdownInLoop)
  | .forceCloseInLoop => if s.conn.state.live then s.handleClose else some s
  | .handleRead call =>
      match (s.conn.receive call).2 with
      | .ok 0 => (s.setConn (s.conn.receive call).1).handleClose
      | _ => some (s.setConn (s.conn.handleRead call))
  | .handleWrite call => some (s.setConn (s.conn.handleWrite call))
  | .handleClose => s.handleClose
  | .closeReturn => if s.closing then some ⟨s.conn.report, false⟩ else none
  | .beginDestroy =>
      if s.conn.state = .kConnected ∧
          ({ s.conn.channel with events := Channel.kNoneEvent } : Channel).UpdateAsserts then
        some (s.setConn s.conn.beginDestroy)
      else none
  | .leavePoller => s.conn.leavePollerChecked.map s.setConn

end CheckedConn

namespace TcpConnection

/-! ## Between the two -/

/-- The channel of a live connection is in the epoll set and reads; a closed connection has
no events, and `closing` says whether its disconnection is still to be reported. -/
structure Established (c : TcpConnection) (closing : Bool) : Prop where
  registered : c.channel.Registered
  unmapped : c.channel.index = .kNew → c.channel.mapped = false
  started : c.state ≠ .kConnecting
  watched : c.state.live = true → closing = false ∧ c.channel.index = .kAdded ∧
    c.channel.events.pollin = true ∧ reports c.log = c.connectedReport
  closed : c.state = .kDisconnected → c.channel.index ≠ .kAdded ∧
    c.channel.events = Channel.kNoneEvent ∧
    reports c.log = c.connectedReport ++ if closing then [] else c.disconnectedReport

end TcpConnection

namespace Channel

/-- A change of the mask of a channel in the epoll set that keeps it reading. -/
theorem updateChannel_index_of_pollin {c : Channel} (hIndex : c.index = .kAdded)
    (hReads : c.events.pollin = true) : c.updateChannel.index = .kAdded := by
  have hSome : c.isNoneEvent = false := by
    rw [isNoneEvent, beq_eq_false_iff_ne]
    intro hNone
    simp [hNone, kNoneEvent] at hReads
  simp [updateChannel, hIndex, hSome]

theorem disableAll_index {c : Channel} (hIndex : c.index = .kAdded) :
    c.disableAll.index = .kDeleted := by
  simp [disableAll, updateChannel, hIndex, isNoneEvent]

end Channel

namespace TcpConnection

theorem reports_report (c : TcpConnection) :
    reports c.report.log = reports c.log ++
      if c.callbacks.connection then [c.state] else [] := by
  obtain ⟨more, hLog, -, -, -, hReports⟩ := report_log c
  rw [hLog, reports_append, hReports]

theorem established_new (callbacks : ConnCallbacks) (highWaterMark : Nat) :
    Established (new callbacks highWaterMark).connectEstablished false where
  registered := by
    have hNew : Channel.new.setTie.Registered := ⟨rfl, fun hIndex => absurd rfl hIndex⟩
    rw [connectEstablished, report_channel]
    exact Channel.updateChannel_registered hNew (Channel.new.events.union Channel.kReadEvent)
  unmapped := fun hNew => by
    rw [connectEstablished, report_channel, Channel.enableReading_index] at hNew
    cases hNew
  started := by simp [connectEstablished]
  watched := fun _ => by
    refine ⟨rfl, ?_, ?_, ?_⟩
    · rw [connectEstablished, report_channel]
      exact Channel.enableReading_index _
    · rw [connectEstablished, report_channel, Channel.enableReading,
        Channel.updateChannel_events]
      rfl
    · rw [connectEstablished, reports_report]
      simp [new, reports, connectedReport]
      rfl
  closed := by simp [connectEstablished]

variable {c c' : TcpConnection} {closing : Bool}

/-- What does not show in the state, the channel and the reports. -/
theorem Established.of_same (hInv : Established c closing) (hState : c'.state = c.state)
    (hChannel : c'.channel = c.channel) (hCallbacks : c'.callbacks = c.callbacks)
    (hReports : reports c'.log = reports c.log) : Established c' closing := by
  have hConnected : c'.connectedReport = c.connectedReport := by
    simp [connectedReport, hCallbacks]
  have hDisconnected : c'.disconnectedReport = c.disconnectedReport := by
    simp [disconnectedReport, hCallbacks]
  refine ⟨?_, ?_, ?_, ?_, ?_⟩
  · rw [hChannel]
    exact hInv.registered
  · rw [hChannel]
    exact hInv.unmapped
  · rw [hState]
    exact hInv.started
  · rw [hState, hChannel, hReports, hConnected]
    exact hInv.watched
  · rw [hState, hChannel, hReports, hConnected, hDisconnected]
    exact hInv.closed

/-- The output functions keep a connection live or closed, and they may change the events of
a live one as long as it reads. -/
theorem Established.onlyOutput (hInv : Established c closing) (hOnly : OnlyOutput c c')
    (hChannel : c'.channel = c.channel ∨ (c.state.live = true ∧ c'.channel.Registered ∧
      c'.channel.index = .kAdded ∧ c'.channel.events.pollin = true)) :
    Established c' closing := by
  obtain ⟨hCallbacks, hState, notes, hLog, hNotes⟩ := hOnly
  have hReports : reports c'.log = reports c.log := by
    rw [hLog, reports_append, reports_notes hNotes, List.append_nil]
  have hConnected : c'.connectedReport = c.connectedReport := by
    simp [connectedReport, hCallbacks]
  have hLive : c'.state.live = c.state.live := by
    rcases hState with hSame | ⟨hOld, hNew⟩
    · rw [hSame]
    · rw [hOld, hNew]
      rfl
  rcases hChannel with hSame | ⟨hLiveBefore, hRegistered, hIndex, hReads⟩
  · by_cases hStateSame : c'.state = c.state
    · exact hInv.of_same hStateSame hSame hCallbacks hReports
    · obtain ⟨hOld, hNew⟩ := hState.resolve_left hStateSame
      refine ⟨hSame ▸ hInv.registered, hSame ▸ hInv.unmapped, by simp [hNew], fun hNow => ?_,
        fun hClosed => by rw [hNew] at hClosed; cases hClosed⟩
      rw [hSame, hReports, hConnected]
      exact hInv.watched (hLive ▸ hNow)
  · obtain ⟨hClosing, -, -, hReported⟩ := hInv.watched hLiveBefore
    refine ⟨hRegistered, fun hNew => ?_, ConnState.ne_connecting_of_live (hLive.trans hLiveBefore),
      fun _ => ⟨hClosing, hIndex, hReads, ?_⟩, fun hClosed => ?_⟩
    · rw [hIndex] at hNew
      cases hNew
    · rw [hReports, hReported, hConnected]
    · rw [hLiveBefore, hClosed] at hLive
      cases hLive

theorem Established.sendInLoop (hInv : Established c closing) (message : List Byte)
    (call : SysWrite) : Established (c.sendInLoop message call) closing := by
  refine hInv.onlyOutput (OnlyOutput.sendInLoop c message call) ?_
  rcases sendInLoop_channel c message call with hSame | ⟨hState, hEnabled⟩
  · exact .inl hSame
  · have hLive : c.state.live = true := by simp [hState, ConnState.live]
    obtain ⟨-, hIndex, hReads, -⟩ := hInv.watched hLive
    rw [hEnabled]
    refine .inr ⟨hLive, Channel.updateChannel_registered hInv.registered _, ?_, ?_⟩
    · exact Channel.updateChannel_index_of_pollin hIndex
        (by simp [PollEvents.union, hReads])
    · simp [Channel.enableWriting, PollEvents.union, hReads]

theorem Established.handleWrite (hInv : Established c closing) (call : SysWrite) :
    Established (c.handleWrite call) closing := by
  refine hInv.onlyOutput (OnlyOutput.handleWrite c call) ?_
  rcases handleWrite_channel c call with hSame | ⟨hWriting, hDisabled⟩
  · exact .inl hSame
  · have hLive : c.state.live = true := by
      refine ConnState.live_of_ne hInv.started fun hClosed => ?_
      rw [Channel.isWriting, (hInv.closed hClosed).2.1] at hWriting
      cases hWriting
    obtain ⟨-, hIndex, hReads, -⟩ := hInv.watched hLive
    rw [hDisabled]
    refine .inr ⟨hLive, Channel.updateChannel_registered hInv.registered _, ?_, ?_⟩
    · exact Channel.updateChannel_index_of_pollin hIndex
        (by simp [PollEvents.without, Channel.kWriteEvent, hReads])
    · simp [Channel.disableWriting, PollEvents.without, Channel.kWriteEvent, hReads]

theorem Established.shutdownInLoop (hInv : Established c closing) :
    Established c.shutdownInLoop closing :=
  hInv.onlyOutput (OnlyOutput.shutdownInLoop c) (.inl (shutdownInLoop_channel c))

/-- The connection closes; `more` are the reports so far. -/
theorem Established.close (hInv : Established c closing) (hLive : c.state.live = true)
    {pending : Bool} (hState : c'.state = .kDisconnected)
    (hChannel : c'.channel = c.channel.disableAll)
    (hReports : reports c'.log = c.connectedReport ++
      if pending then [] else c.disconnectedReport)
    (hCallbacks : c'.callbacks = c.callbacks) : Established c' pending := by
  obtain ⟨-, hIndex, -, -⟩ := hInv.watched hLive
  have hDeleted : c'.channel.index = .kDeleted := by
    rw [hChannel]
    exact Channel.disableAll_index hIndex
  refine ⟨?_, fun hNew => ?_, by simp [hState], fun hStill => ?_, fun _ => ⟨?_, ?_, ?_⟩⟩
  · rw [hChannel]
    exact Channel.updateChannel_registered hInv.registered _
  · rw [hDeleted] at hNew
    cases hNew
  · rw [hState] at hStill
    cases hStill
  · simp [hDeleted]
  · simp [hChannel, Channel.disableAll]
  · rw [hReports]
    simp [connectedReport, disconnectedReport, hCallbacks]

theorem Established.beginClose (hInv : Established c closing) (hLive : c.state.live = true) :
    Established c.beginClose true := by
  refine hInv.close hLive rfl rfl ?_ rfl
  rw [if_pos rfl, List.append_nil, ← (hInv.watched hLive).2.2.2]
  simp [TcpConnection.beginClose, record, reports]

theorem Established.beginDestroy (hInv : Established c closing) (hState : c.state = .kConnected) :
    Established c.beginDestroy false := by
  have hLive : c.state.live = true := by simp [hState, ConnState.live]
  refine hInv.close hLive (report_state _) (report_channel _) ?_ (report_callbacks _)
  rw [TcpConnection.beginDestroy, reports_report, (hInv.watched hLive).2.2.2]
  simp [disconnectedReport]

/-- `HandleClose` reports the disconnection. -/
theorem Established.report (hInv : Established c true) : Established c.report false := by
  have hClosed : c.state = .kDisconnected := by
    refine ConnState.closed_of_not_live hInv.started fun hLive => ?_
    cases (hInv.watched hLive).1
  obtain ⟨hIndex, hEvents, hReports⟩ := hInv.closed hClosed
  refine ⟨?_, ?_, by simp [hClosed], fun hLive => ?_, fun _ => ⟨?_, ?_, ?_⟩⟩
  · rw [report_channel]
    exact hInv.registered
  · rw [report_channel]
    exact hInv.unmapped
  · rw [report_state, hClosed] at hLive
    cases hLive
  · rwa [report_channel]
  · rwa [report_channel]
  · rw [reports_report, hReports]
    simp [connectedReport, disconnectedReport, hClosed]

theorem Established.receive (hInv : Established c closing) (call : SysRead) :
    Established (c.receive call).1 closing :=
  hInv.of_same rfl rfl rfl rfl

theorem Established.handleRead (hInv : Established c closing) {call : SysRead}
    (hMore : (c.receive call).2 ≠ .ok 0) : Established (c.handleRead call) closing := by
  unfold TcpConnection.handleRead
  split
  case h_1 => exact hInv.receive call
  case h_2 hEnd => exact absurd hEnd hMore
  case h_3 =>
    split
    · exact (hInv.receive call).of_same rfl rfl rfl (by simp [record, reports])
    · exact hInv.receive call

theorem leavePollerChecked_eq_some (hSome : c.leavePollerChecked = some c') :
    c.channel.index = .kNew ∧ c' = c ∨
      c.channel.index ≠ .kNew ∧ c.channel.isNoneEvent = true ∧ c.channel.mapped = true ∧
        c' = { c with channel := c.channel.removeChannel } := by
  unfold leavePollerChecked at hSome
  split at hSome
  · next hNew => exact Or.inl ⟨hNew, (Option.some.inj hSome).symm⟩
  · next hOld =>
    obtain ⟨⟨hNone, hMapped⟩, hNext⟩ := Option.ite_none_right_eq_some.mp hSome
    exact Or.inr ⟨hOld, hNone, hMapped, (Option.some.inj hNext).symm⟩

/-- Only a closed connection has no events, so only a closed one leaves the poller. -/
theorem Established.leavePoller (hInv : Established c closing)
    (hSome : c.leavePollerChecked = some c') : Established c' closing := by
  rcases leavePollerChecked_eq_some hSome with ⟨-, rfl⟩ | ⟨-, hNone, -, rfl⟩
  · exact hInv
  have hEvents : c.channel.events = Channel.kNoneEvent := by
    simpa [Channel.isNoneEvent] using hNone
  -- A live connection reads, so this one is not live.
  have hDead : ¬c.state.live = true := fun hLive => by
    have hReads := (hInv.watched hLive).2.2.1
    rw [hEvents] at hReads
    cases hReads
  have hClosed := ConnState.closed_of_not_live hInv.started hDead
  obtain ⟨hIndex, -, hReports⟩ := hInv.closed hClosed
  refine ⟨Channel.removeChannel_registered hInv.registered, fun _ => ?_, hInv.started,
    fun hLive => absurd hLive hDead, fun _ => ⟨?_, ?_, hReports⟩⟩
  · simp [Channel.removeChannel, hIndex]
  · simp
  · simp [Channel.removeChannel, hIndex, hEvents]

end TcpConnection

namespace CheckedConn

/-- The invariant of the runs. -/
def Inv (s : CheckedConn) : Prop := s.conn.Established s.closing

theorem handleClose_inv {s s' : CheckedConn} (hInv : s.Inv) (hStep : s.handleClose = some s') :
    s'.Inv := by
  obtain ⟨hLive, hNext⟩ := Option.ite_none_right_eq_some.mp hStep
  rw [← Option.some.inj hNext]
  exact TcpConnection.Established.beginClose hInv hLive

theorem step_inv (s : CheckedConn) (label : CheckedLabel) (s' : CheckedConn) (hInv : s.Inv)
    (hStep : s.step label = some s') : s'.Inv := by
  cases label with
  | sendInLoop message call =>
      obtain rfl := Option.some.inj hStep
      exact TcpConnection.Established.sendInLoop hInv message call
  | shutdownInLoop =>
      obtain rfl := Option.some.inj hStep
      exact TcpConnection.Established.shutdownInLoop hInv
  | forceCloseInLoop =>
      simp only [step] at hStep
      split at hStep
      · exact handleClose_inv hInv hStep
      · obtain rfl := Option.some.inj hStep
        exact hInv
  | handleRead call =>
      simp only [step] at hStep
      split at hStep
      case h_1 hEnd =>
        have hReceived : (s.setConn (s.conn.receive call).1).Inv :=
          TcpConnection.Established.receive hInv call
        exact handleClose_inv hReceived hStep
      case h_2 hMore =>
        obtain rfl := Option.some.inj hStep
        exact TcpConnection.Established.handleRead hInv hMore
  | handleWrite call =>
      obtain rfl := Option.some.inj hStep
      exact TcpConnection.Established.handleWrite hInv call
  | handleClose => exact handleClose_inv hInv hStep
  | closeReturn =>
      obtain ⟨hClosing, hNext⟩ := Option.ite_none_right_eq_some.mp hStep
      rw [Inv, hClosing] at hInv
      rw [← Option.some.inj hNext]
      exact hInv.report
  | beginDestroy =>
      obtain ⟨⟨hState, -⟩, hNext⟩ := Option.ite_none_right_eq_some.mp hStep
      have hLive : s.conn.state.live = true := by simp [hState, ConnState.live]
      rw [← Option.some.inj hNext, Inv, setConn, (TcpConnection.Established.watched hInv hLive).1]
      exact TcpConnection.Established.beginDestroy hInv hState
  | leavePoller =>
      obtain ⟨conn, hSome, rfl⟩ := Option.map_eq_some_iff.mp hStep
      exact TcpConnection.Established.leavePoller hInv hSome

end CheckedConn

namespace TcpConnection

/-! ## The call -/

/-- What the destructor accepts, and more: closed, without events, unknown to the poller
and to the kernel, and reported as disconnected once if anybody listens; another
`ConnectDestroyed` changes nothing. -/
structure TornDown (c : TcpConnection) : Prop where
  state : c.state = .kDisconnected
  noEvents : c.channel.isNoneEvent = true
  index : c.channel.index = .kNew
  unmapped : c.channel.mapped = false
  noInterest : c.channel.interest = none
  reportedOnce : (reports c.log).count .kDisconnected = if c.callbacks.connection then 1 else 0
  again : c.connectDestroyedChecked = some c

/-- `ConnectDestroyed` fails no assertion and completes the teardown. -/
def Completes (c : TcpConnection) : Prop :=
  ∃ c', c.connectDestroyedChecked = some c' ∧ TornDown c'

variable {c c' : TcpConnection} {closing : Bool}

/-- The end of the function, for a connection that is closed and reported. -/
theorem leavePollerChecked_of_closed (hInv : Established c closing)
    (hState : c.state = .kDisconnected)
    (hReported : closing = true → c.callbacks.connection = false) :
    ∃ c', c.leavePollerChecked = some c' ∧ TornDown c' := by
  obtain ⟨hIndex, hEvents, hReports⟩ := hInv.closed hState
  have hInterest : c.channel.interest = none := by
    rw [hInv.registered.interest_eq, if_neg hIndex]
  have hOnce : (reports c.log).count .kDisconnected =
      if c.callbacks.connection then 1 else 0 := by
    rw [hReports]
    by_cases hSet : c.callbacks.connection = true
    · have hDone : closing = false := by
        by_contra hClosing
        rw [hReported (by simpa using hClosing)] at hSet
        cases hSet
      simp [connectedReport, disconnectedReport, hSet, hDone]
    · cases closing <;> simp [connectedReport, disconnectedReport, hSet]
  by_cases hNew : c.channel.index = .kNew
  -- An earlier call has taken the channel out already.
  · refine ⟨c, if_pos hNew, hState, ?_, hNew, hInv.unmapped hNew, hInterest, hOnce, ?_⟩
    · simp [Channel.isNoneEvent, hEvents]
    · rw [connectDestroyedChecked, if_neg (by simp [hState]), leavePollerChecked, if_pos hNew]
  · have hAsserts : c.channel.RemoveAsserts :=
      ⟨by simp [Channel.isNoneEvent, hEvents], hInv.registered.mapped_of_index hNew⟩
    refine ⟨{ c with channel := c.channel.removeChannel }, ?_, hState, ?_, rfl, ?_, ?_, hOnce, ?_⟩
    · rw [leavePollerChecked, if_neg hNew, if_pos hAsserts]
    · simp [Channel.removeChannel, Channel.isNoneEvent, hIndex, hEvents]
    · simp [Channel.removeChannel, hIndex]
    · simp [Channel.removeChannel, hIndex, hInterest]
    · simp [connectDestroyedChecked, leavePollerChecked, hState]

theorem Established.completes (hInv : Established c closing) (hState : c.state ≠ .kDisconnecting)
    (hReported : closing = true → c.callbacks.connection = false) : Completes c := by
  unfold Completes connectDestroyedChecked
  by_cases hConnected : c.state = .kConnected
  · obtain ⟨-, hIndex, -, -⟩ := hInv.watched (by simp [hConnected, ConnState.live])
    have hAsserts : ({ c.channel with events := Channel.kNoneEvent } : Channel).UpdateAsserts :=
      fun hNew => absurd (hIndex.symm.trans hNew) (by simp)
    rw [if_pos hConnected, if_pos hAsserts]
    exact leavePollerChecked_of_closed (hInv.beginDestroy hConnected) (report_state _) (by simp)
  · have hClosed : c.state = .kDisconnected := by
      refine ConnState.closed_of_not_live hInv.started fun hLive => ?_
      rcases ConnState.live_iff.mp hLive with hOne | hTwo
      · exact hConnected hOne
      · exact hState hTwo
    rw [if_neg hConnected]
    exact leavePollerChecked_of_closed hInv hClosed hReported

/-- A connection that is shutting down still reads, and `Channel::Remove` refuses it. -/
theorem Established.connectDestroyedChecked_eq_none (hInv : Established c closing)
    (hState : c.state = .kDisconnecting) : c.connectDestroyedChecked = none := by
  obtain ⟨-, hIndex, hReads, -⟩ := hInv.watched (by simp [hState, ConnState.live])
  have hAsserts : ¬c.channel.RemoveAsserts := by
    rintro ⟨hNone, -⟩
    rw [Channel.isNoneEvent, beq_iff_eq] at hNone
    rw [hNone] at hReads
    cases hReads
  rw [connectDestroyedChecked, if_neg (by simp [hState]), leavePollerChecked,
    if_neg (by simp [hIndex]), if_neg hAsserts]

/-- While `HandleClose` is in its close callback, `ConnectDestroyed` comes back before the
connection callback has been called. -/
theorem Established.not_completes_of_closing (hInv : Established c true)
    (hSet : c.callbacks.connection = true) : ¬Completes c := by
  have hClosed : c.state = .kDisconnected := by
    refine ConnState.closed_of_not_live hInv.started fun hLive => ?_
    cases (hInv.watched hLive).1
  obtain ⟨-, -, hReports⟩ := hInv.closed hClosed
  rintro ⟨c', hSome, hDown⟩
  rw [connectDestroyedChecked, if_neg (by simp [hClosed])] at hSome
  -- The rest of the function reports nothing.
  have hSame : c'.log = c.log ∧ c'.callbacks = c.callbacks := by
    rcases leavePollerChecked_eq_some hSome with ⟨-, rfl⟩ | ⟨-, -, -, rfl⟩ <;> exact ⟨rfl, rfl⟩
  have hOnce := hDown.reportedOnce
  rw [hSame.1, hSame.2, hReports, if_pos hSet] at hOnce
  simp [connectedReport, hSet] at hOnce

end TcpConnection

namespace CheckedConn

/-- In every state that a connection reaches after `ConnectEstablished`,
`ConnectDestroyed` completes the teardown exactly when the connection is not
`kDisconnecting` and no `HandleClose` has still to report to a connection callback. -/
theorem connectDestroyed_completes_iff (callbacks : ConnCallbacks) (highWaterMark : Nat)
    (labels : List CheckedLabel) (s : CheckedConn)
    (hRun : exec step (new callbacks highWaterMark) labels = some s) :
    s.conn.Completes ↔ s.conn.state ≠ .kDisconnecting ∧
      (s.closing = true → s.conn.callbacks.connection = false) := by
  have hNew : (new callbacks highWaterMark).Inv :=
    TcpConnection.established_new callbacks highWaterMark
  have hInv : s.Inv := exec_invariant Inv step_inv hNew hRun
  refine ⟨fun hCompletes => ⟨fun hState => ?_, fun hClosing => ?_⟩, fun hMay =>
    TcpConnection.Established.completes hInv hMay.1 hMay.2⟩
  · obtain ⟨c', hSome, -⟩ := hCompletes
    rw [TcpConnection.Established.connectDestroyedChecked_eq_none hInv hState] at hSome
    cases hSome
  · by_contra hSet
    rw [Inv, hClosing] at hInv
    exact hInv.not_completes_of_closing (by simpa using hSet) hCompletes

/-- A connection with pending output, and one whose `HandleClose` is over. -/
theorem connectDestroyed_completes_iff_pending :
    (∃ s, exec step (new ⟨true, true, true, true, .server⟩ 65536)
        [.sendInLoop [7, 8, 9] (.room 1)] = some s ∧
      s.conn.outputBuffer.readableBytes = 2 ∧ s.conn.Completes) ∧
    ∃ s, exec step (new ⟨true, true, true, true, .user⟩ 65536)
        [.shutdownInLoop, .handleClose, .closeReturn] = some s ∧
      s.conn.state = .kDisconnected ∧ s.conn.Completes := by
  refine ⟨⟨_, rfl, by decide +kernel, ?_⟩, ⟨_, rfl, by decide +kernel, ?_⟩⟩
  · exact (connectDestroyed_completes_iff ⟨true, true, true, true, .server⟩ 65536
      [.sendInLoop [7, 8, 9] (.room 1)] _ rfl).mpr (by decide +kernel)
  · exact (connectDestroyed_completes_iff ⟨true, true, true, true, .user⟩ 65536
      [.shutdownInLoop, .handleClose, .closeReturn] _ rfl).mpr (by decide +kernel)

/-- After `Shutdown` the assertion of `Channel::Remove` fails; with assertions compiled
out the connection stays `kDisconnecting`, and the destructor's would fail.  In the close
callback no assertion fails, but nothing has been reported when the function returns. -/
theorem not_completes_after_shutdown :
    (∃ s, exec step (new ⟨true, true, true, true, .server⟩ 65536) [.shutdownInLoop] = some s ∧
      s.conn.state = .kDisconnecting ∧ s.conn.connectDestroyedChecked = none ∧
      s.conn.connectDestroyed.leavePoller.state = .kDisconnecting ∧ ¬s.conn.Completes) ∧
    ∃ s, exec step (new ⟨true, true, true, true, .server⟩ 65536) [.handleClose] = some s ∧
      (s.conn.connectDestroyedChecked.map fun c =>
        (reports c.log).count .kDisconnected) = some 0 ∧ ¬s.conn.Completes := by
  have hNew := TcpConnection.established_new ⟨true, true, true, true, .server⟩ 65536
  have hShutdown := hNew.shutdownInLoop.connectDestroyedChecked_eq_none (by decide +kernel)
  refine ⟨⟨_, rfl, by decide +kernel, hShutdown, by decide +kernel, ?_⟩,
    ⟨_, rfl, by decide +kernel, ?_⟩⟩
  · rintro ⟨c', hSome, -⟩
    exact absurd (hShutdown.symm.trans hSome) (by simp)
  · exact (hNew.beginClose (by decide +kernel)).not_completes_of_closing (by decide +kernel)

end CheckedConn

end SolarNet
