import SolarNet.Lib.Run
import SolarNet.Transport.ConnectionLoop

/-!
# The reported life of a connection

A connection should report that it is connected once and that it is disconnected
at most once, run the body of `HandleClose` at most once and in a live state, and
deliver no message after the report of the disconnection.

`HandleEventWithGuard` does not look at the state of the connection.  Events that
`Poll` collected before a handler of the same batch closed the connection, and the
read event that comes together with a hangup, reach a connection that is already
`kDisconnected`; there the close callback runs `HandleClose` again, and a read that
does not fail delivers data or runs `HandleClose` again.  The result of this file is
that the reported life is right in all states of a run exactly when no step of the
run does that.
-/

namespace SolarNet

open Lib

/-! ## The history of a connection -/

/-- The states in which the body of `HandleClose` began. -/
def closeStates (log : List ConnEvent) : List ConnState :=
  log.filterMap fun event =>
    match event with
    | .handleClose state => some state
    | _ => none

/-- The states that the connection callback was called with. -/
def reports (log : List ConnEvent) : List ConnState :=
  log.filterMap fun event =>
    match event with
    | .connectionCallback state => some state
    | _ => none

/-- No message callback follows the report of the disconnection. -/
def Quiet (log : List ConnEvent) : Prop :=
  log.Pairwise fun earlier later =>
    earlier = .connectionCallback .kDisconnected → later ≠ .messageCallback

theorem closeStates_append (log more : List ConnEvent) :
    closeStates (log ++ more) = closeStates log ++ closeStates more :=
  List.filterMap_append

theorem reports_append (log more : List ConnEvent) :
    reports (log ++ more) = reports log ++ reports more :=
  List.filterMap_append

theorem mem_of_mem_reports {log : List ConnEvent} {state : ConnState}
    (hMem : state ∈ reports log) : ConnEvent.connectionCallback state ∈ log := by
  obtain ⟨event, hEvent, hState⟩ := List.mem_filterMap.mp hMem
  cases event <;> simp at hState
  rw [← hState]
  exact hEvent

/-- Events outside the lifecycle do not show. -/
theorem closeStates_notes {notes : List ConnEvent}
    (hNotes : ∀ event ∈ notes, event.lifecycle = false) : closeStates notes = [] := by
  refine List.filterMap_eq_nil_iff.mpr fun event hEvent => ?_
  have hEvent := hNotes event hEvent
  cases event <;> simp_all [ConnEvent.lifecycle]

theorem reports_notes {notes : List ConnEvent}
    (hNotes : ∀ event ∈ notes, event.lifecycle = false) : reports notes = [] := by
  refine List.filterMap_eq_nil_iff.mpr fun event hEvent => ?_
  have hEvent := hNotes event hEvent
  cases event <;> simp_all [ConnEvent.lifecycle]

/-- The log stays quiet unless a message follows the disconnection. -/
theorem Quiet.append {log more : List ConnEvent} (hQuiet : Quiet log) (hMore : Quiet more)
    (hBoth : ConnEvent.connectionCallback .kDisconnected ∈ log →
      ConnEvent.messageCallback ∉ more) : Quiet (log ++ more) := by
  refine List.pairwise_append.mpr ⟨hQuiet, hMore, ?_⟩
  rintro earlier hEarlier later hLater rfl rfl
  exact hBoth hEarlier hLater

theorem quiet_singleton (event : ConnEvent) : Quiet [event] := List.pairwise_singleton _ _

theorem quiet_notes {notes : List ConnEvent}
    (hNotes : ∀ event ∈ notes, event.lifecycle = false) :
    Quiet notes ∧ ConnEvent.messageCallback ∉ notes := by
  have hMessage : ConnEvent.messageCallback ∉ notes := by
    intro hMem
    have hFalse := hNotes _ hMem
    cases hFalse
  refine ⟨?_, hMessage⟩
  refine List.pairwise_iff_forall_sublist.mpr ?_
  rintro earlier later hSub - rfl
  exact hMessage (hSub.subset (by simp))

namespace TcpConnection

/-- The report of `ConnectEstablished`, if the connection callback is set. -/
def connectedReport (c : TcpConnection) : List ConnState :=
  if c.callbacks.connection then [.kConnected] else []

/-- The report of the disconnection. -/
def disconnectedReport (c : TcpConnection) : List ConnState :=
  if c.callbacks.connection then [.kDisconnected] else []

/-- What a connection may have reported: the body of `HandleClose` ran at most
once, in a live state; the connection callback was called as connected once and then
at most once as disconnected; no message came after that. -/
structure LifecycleOk (c : TcpConnection) : Prop where
  close_once : (closeStates c.log).length ≤ 1
  close_live : ∀ state ∈ closeStates c.log, state.live = true
  reports_eq : (c.state = .kConnecting ∧ reports c.log = []) ∨
    (c.state ≠ .kConnecting ∧ (reports c.log = c.connectedReport ∨
      reports c.log = c.connectedReport ++ c.disconnectedReport))
  quiet : Quiet c.log

/-- The phases of a connection.  The index counts the calls of `HandleClose` that
are waiting to report the disconnection. -/
inductive Phase (c : TcpConnection) : Nat → Prop
  | connecting (hState : c.state = .kConnecting) (hCloses : closeStates c.log = [])
      (hReports : reports c.log = []) : Phase c 0
  | live (hState : c.state.live = true) (hCloses : closeStates c.log = [])
      (hReports : reports c.log = c.connectedReport) : Phase c 0
  | closing (hState : c.state = .kDisconnected) (hOnce : (closeStates c.log).length ≤ 1)
      (hLive : ∀ state ∈ closeStates c.log, state.live = true)
      (hReports : reports c.log = c.connectedReport) : Phase c 1
  | closed (hState : c.state = .kDisconnected) (hOnce : (closeStates c.log).length ≤ 1)
      (hLive : ∀ state ∈ closeStates c.log, state.live = true)
      (hReports : reports c.log = c.connectedReport ++ c.disconnectedReport) : Phase c 0

/-- The invariant of one connection. -/
structure LifeInv (c : TcpConnection) (pending : Nat) : Prop where
  phase : Phase c pending
  quiet : Quiet c.log

theorem LifeInv.lifecycleOk {c : TcpConnection} {pending : Nat} (hInv : LifeInv c pending) :
    LifecycleOk c := by
  obtain ⟨hPhase, hQuiet⟩ := hInv
  cases hPhase with
  | connecting hState hCloses hReports =>
      exact ⟨by simp [hCloses], by simp [hCloses], Or.inl ⟨hState, hReports⟩, hQuiet⟩
  | live hState hCloses hReports =>
      refine ⟨by simp [hCloses], by simp [hCloses], Or.inr ⟨?_, Or.inl hReports⟩, hQuiet⟩
      intro hConnecting
      rw [hConnecting] at hState
      cases hState
  | closing hState hOnce hLive hReports =>
      exact ⟨hOnce, hLive, Or.inr ⟨by simp [hState], Or.inl hReports⟩, hQuiet⟩
  | closed hState hOnce hLive hReports =>
      exact ⟨hOnce, hLive, Or.inr ⟨by simp [hState], Or.inr hReports⟩, hQuiet⟩

theorem new_lifeInv (callbacks : ConnCallbacks) (highWaterMark : Nat) :
    LifeInv (new callbacks highWaterMark) 0 :=
  ⟨.connecting rfl rfl rfl, List.Pairwise.nil⟩

/-- Output functions do not show in the reported life. -/
theorem LifeInv.onlyOutput {c c' : TcpConnection} {pending : Nat} (hInv : LifeInv c pending)
    (hOutput : OnlyOutput c c') : LifeInv c' pending := by
  obtain ⟨hPhase, hQuiet⟩ := hInv
  obtain ⟨hCallbacks, hState, notes, hLog, hNotes⟩ := hOutput
  have hCloses : closeStates c'.log = closeStates c.log := by
    rw [hLog, closeStates_append, closeStates_notes hNotes, List.append_nil]
  have hReports : reports c'.log = reports c.log := by
    rw [hLog, reports_append, reports_notes hNotes, List.append_nil]
  have hConnected : c'.connectedReport = c.connectedReport := by
    simp [connectedReport, hCallbacks]
  have hDisconnected : c'.disconnectedReport = c.disconnectedReport := by
    simp [disconnectedReport, hCallbacks]
  have hSame : c.state ≠ .kConnected → c'.state = c.state := by
    intro hNot
    rcases hState with hState | ⟨hState, -⟩
    · exact hState
    · exact absurd hState hNot
  refine ⟨?_, ?_⟩
  · cases hPhase with
    | connecting hOld hNoClose hNoReport =>
        refine .connecting ?_ (hCloses.trans hNoClose) (hReports.trans hNoReport)
        rw [hSame (by simp [hOld]), hOld]
    | live hOld hNoClose hReport =>
        refine .live ?_ (hCloses.trans hNoClose) ?_
        · rcases hState with hState | ⟨-, hState⟩
          · rw [hState, hOld]
          · rw [hState]
            rfl
        · rw [hReports, hReport, hConnected]
    | closing hOld hOnce hLive hReport =>
        refine .closing ?_ (by rwa [hCloses]) (by rwa [hCloses]) ?_
        · rw [hSame (by simp [hOld]), hOld]
        · rw [hReports, hReport, hConnected]
    | closed hOld hOnce hLive hReport =>
        refine .closed ?_ (by rwa [hCloses]) (by rwa [hCloses]) ?_
        · rw [hSame (by simp [hOld]), hOld]
        · rw [hReports, hReport, hConnected, hDisconnected]
  · rw [hLog]
    obtain ⟨hNotesQuiet, hNoMessage⟩ := quiet_notes hNotes
    exact hQuiet.append hNotesQuiet fun _ => hNoMessage

/-- What `report` appends to the log. -/
theorem report_log (c : TcpConnection) :
    ∃ more, c.report.log = c.log ++ more ∧ closeStates more = [] ∧ Quiet more ∧
      ConnEvent.messageCallback ∉ more ∧
      reports more = if c.callbacks.connection then [c.state] else [] := by
  unfold report
  by_cases hSet : c.callbacks.connection = true
  · exact ⟨[.connectionCallback c.state], by simp [hSet, record], rfl, quiet_singleton _,
      by simp, by simp [hSet, reports]⟩
  · exact ⟨[], by simp [hSet], rfl, List.Pairwise.nil, by simp, by simp [hSet, reports]⟩

/-- A phase reads only the state, the callbacks, and the history. -/
theorem LifeInv.of_same {c c' : TcpConnection} {pending : Nat} (hInv : LifeInv c pending)
    (hCallbacks : c'.callbacks = c.callbacks) (hState : c'.state = c.state)
    (hLog : c'.log = c.log) : LifeInv c' pending :=
  hInv.onlyOutput (OnlyOutput.of_same hCallbacks hState hLog)

theorem LifeInv.connectEstablished {c : TcpConnection} {pending : Nat}
    (hInv : LifeInv c pending) (hState : c.state = .kConnecting) :
    LifeInv c.connectEstablished pending := by
  obtain ⟨hPhase, hQuiet⟩ := hInv
  obtain ⟨more, hLog, hCloses, hMoreQuiet, hNoMessage, hReports⟩ := report_log
    { c with state := .kConnected, channel := c.channel.setTie.enableReading }
  cases hPhase with
  | connecting _ hNoClose hNoReport =>
      refine ⟨.live (by simp [TcpConnection.connectEstablished, ConnState.live]) ?_ ?_, ?_⟩
      · rw [TcpConnection.connectEstablished, hLog, closeStates_append, hCloses]
        simpa using hNoClose
      · rw [TcpConnection.connectEstablished, hLog, reports_append, hReports]
        simp [hNoReport, connectedReport]
      · rw [TcpConnection.connectEstablished, hLog]
        exact hQuiet.append hMoreQuiet fun _ => hNoMessage
  | live hLive => rw [hState] at hLive; cases hLive
  | closing hClosed => rw [hState] at hClosed; cases hClosed
  | closed hClosed => rw [hState] at hClosed; cases hClosed

/-- A live connection begins to close; its `HandleClose` is now waiting. -/
theorem LifeInv.beginClose {c : TcpConnection} {pending : Nat} (hInv : LifeInv c pending)
    (hLive : c.state.live = true) : LifeInv c.beginClose (pending + 1) := by
  obtain ⟨hPhase, hQuiet⟩ := hInv
  have hCloses : closeStates c.beginClose.log = closeStates c.log ++ [c.state] :=
    closeStates_append c.log [.handleClose c.state]
  have hReports : reports c.beginClose.log = reports c.log := by
    show reports (c.log ++ [.handleClose c.state]) = reports c.log
    rw [reports_append]
    exact List.append_nil _
  cases hPhase with
  | live _ hNoClose hReport =>
      refine ⟨.closing rfl ?_ ?_ (hReports.trans hReport), ?_⟩
      · rw [hCloses, hNoClose]
        simp
      · rw [hCloses, hNoClose]
        simpa using hLive
      · exact hQuiet.append (quiet_singleton _) (by simp)
  | connecting hState => rw [hState] at hLive; cases hLive
  | closing hState => rw [hState] at hLive; cases hLive
  | closed hState => rw [hState] at hLive; cases hLive

/-- The waiting `HandleClose` reports the disconnection. -/
theorem LifeInv.report {c : TcpConnection} {pending : Nat}
    (hInv : LifeInv c (pending + 1)) : LifeInv c.report pending := by
  obtain ⟨hPhase, hQuiet⟩ := hInv
  obtain ⟨more, hLog, hCloses, hMoreQuiet, hNoMessage, hReports⟩ := report_log c
  have hSame : closeStates c.report.log = closeStates c.log := by
    rw [hLog, closeStates_append, hCloses, List.append_nil]
  cases hPhase with
  | closing hState hOnce hLive hReport =>
      refine ⟨.closed (by simp [hState]) (by rwa [hSame]) (by rwa [hSame]) ?_, ?_⟩
      · rw [hLog, reports_append, hReports, hReport]
        simp [connectedReport, disconnectedReport, hState]
      · rw [hLog]
        exact hQuiet.append hMoreQuiet fun _ => hNoMessage

/-- `ConnectDestroyed` reports the disconnection itself. -/
theorem LifeInv.beginDestroy {c : TcpConnection} {pending : Nat} (hInv : LifeInv c pending)
    (hState : c.state = .kConnected) : LifeInv c.beginDestroy pending := by
  obtain ⟨hPhase, hQuiet⟩ := hInv
  obtain ⟨more, hLog, hCloses, hMoreQuiet, hNoMessage, hReports⟩ := report_log
    { c with state := .kDisconnected, channel := c.channel.disableAll }
  have hSame : closeStates c.beginDestroy.log = closeStates c.log := by
    rw [TcpConnection.beginDestroy, hLog, closeStates_append, hCloses]
    exact List.append_nil _
  cases hPhase with
  | live _ hNoClose hReport =>
      refine ⟨.closed (by simp [TcpConnection.beginDestroy]) ?_ ?_ ?_, ?_⟩
      · simp [hSame, hNoClose]
      · simp [hSame, hNoClose]
      · rw [TcpConnection.beginDestroy, hLog, reports_append, hReports]
        simp [hReport, connectedReport, disconnectedReport]
      · rw [TcpConnection.beginDestroy, hLog]
        exact hQuiet.append hMoreQuiet fun _ => hNoMessage
  | connecting hOther => rw [hState] at hOther; cases hOther
  | closing hOther => rw [hState] at hOther; cases hOther
  | closed hOther => rw [hState] at hOther; cases hOther

theorem LifeInv.leavePoller {c : TcpConnection} {pending : Nat} (hInv : LifeInv c pending) :
    LifeInv c.leavePoller pending := by
  unfold TcpConnection.leavePoller
  split
  · exact hInv
  · exact hInv.of_same rfl rfl rfl

/-- As long as the disconnection is not reported, a message may come. -/
theorem LifeInv.message {c : TcpConnection} {pending : Nat} (hInv : LifeInv c pending)
    (hMay : c.state = .kDisconnected → c.callbacks.connection = false) :
    LifeInv (c.record .messageCallback) pending := by
  obtain ⟨hPhase, hQuiet⟩ := hInv
  have hCloses : closeStates (c.record .messageCallback).log = closeStates c.log := by
    show closeStates (c.log ++ [.messageCallback]) = closeStates c.log
    rw [closeStates_append]
    exact List.append_nil _
  have hReports : reports (c.record .messageCallback).log = reports c.log := by
    show reports (c.log ++ [.messageCallback]) = reports c.log
    rw [reports_append]
    exact List.append_nil _
  have hNotReported : ConnState.kDisconnected ∉ reports c.log := by
    cases hPhase with
    | connecting _ _ hReport => simp [hReport]
    | live _ _ hReport => simp [hReport, connectedReport]
    | closing hState _ _ hReport => simp [hReport, connectedReport, hMay hState]
    | closed hState _ _ hReport =>
        simp [hReport, connectedReport, disconnectedReport, hMay hState]
  refine ⟨?_, ?_⟩
  · cases hPhase with
    | connecting hState hNoClose hReport =>
        exact .connecting hState (hCloses.trans hNoClose) (hReports.trans hReport)
    | live hState hNoClose hReport =>
        exact .live hState (hCloses.trans hNoClose) (hReports.trans hReport)
    | closing hState hOnce hLive hReport =>
        exact .closing hState (by rwa [hCloses]) (by rwa [hCloses]) (hReports.trans hReport)
    | closed hState hOnce hLive hReport =>
        exact .closed hState (by rwa [hCloses]) (by rwa [hCloses]) (hReports.trans hReport)
  · refine hQuiet.append (quiet_singleton _) fun hMem => absurd ?_ hNotReported
    exact List.mem_filterMap.mpr ⟨_, hMem, rfl⟩

/-! ## Where a stale event breaks it -/

/-- The body of `HandleClose` in a state that is not live. -/
theorem not_lifecycleOk_of_close {c : TcpConnection} {log : List ConnEvent}
    {state : ConnState} (hLog : c.log = log ++ [.handleClose state])
    (hState : state.live = false) : ¬ LifecycleOk c := by
  intro hOk
  have hMem : state ∈ closeStates c.log := by
    rw [hLog, closeStates_append]
    exact List.mem_append_right _ (by simp [closeStates])
  rw [hOk.close_live state hMem] at hState
  cases hState

/-- A message after the report of the disconnection. -/
theorem not_lifecycleOk_of_message {c c' : TcpConnection} (hInv : LifeInv c 0)
    (hState : c.state = .kDisconnected) (hSet : c.callbacks.connection = true)
    (hLog : c'.log = c.log ++ [.messageCallback]) : ¬ LifecycleOk c' := by
  intro hOk
  have hReport : ConnState.kDisconnected ∈ reports c.log := by
    cases hInv.phase with
    | connecting hOther => rw [hState] at hOther; cases hOther
    | live hOther => rw [hState] at hOther; cases hOther
    | closed _ _ _ hReports => simp [hReports, connectedReport, disconnectedReport, hSet]
  have hQuiet := hOk.quiet
  rw [hLog] at hQuiet
  exact (List.pairwise_append.mp hQuiet).2.2 _ (mem_of_mem_reports hReport) _
    (List.mem_singleton_self _) rfl rfl

end TcpConnection
end SolarNet
