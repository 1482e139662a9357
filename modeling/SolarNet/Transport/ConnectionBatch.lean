import SolarNet.Transport.LifecycleRuns

/-!
# The connections that wait in a batch

`Loop()` iterates over raw pointers to the channels that `Poll` returned.  This file is
about the connections among them.  On a single-loop `TcpServer` the close of a connection
removes its channel from the poller in place and drops the entry of `m_connections`, which
may be the last pointer to the connection.  A connection of user code leaves the poller in
`ConnectDestroyed`, and lives as long as user code holds it.

`DispatchInv` says that a connection that waits is registered and has an owner.  Every
step keeps it that does not itself take a waiting connection away (`KeepsConnections`).
-/

namespace SolarNet
namespace ConnectionLoop

open Lib TcpConnection

variable {ι : Type*}

/-- The connection belongs to the server. -/
def ofServer (w : ConnectionLoop ι) (i : ι) : Prop :=
  (w.conns i).callbacks.close = .server

/-- The channel stays registered as it should be, and in the poller if it was there. -/
structure StaysInPoller (c c' : TcpConnection) : Prop where
  registered : c.channel.Registered → c'.channel.Registered
  index_ne : c.channel.index ≠ .kNew → c'.channel.index ≠ .kNew

theorem StaysInPoller.of_same {c c' : TcpConnection} (hChannel : c'.channel = c.channel) :
    StaysInPoller c c' := by
  constructor <;> (rw [hChannel]; exact id)

/-- The mask changes. -/
theorem StaysInPoller.update {c c' : TcpConnection} {events : PollEvents}
    (hChannel : c'.channel = { c.channel with events := events }.updateChannel) :
    StaysInPoller c c' := by
  constructor
  · intro hRegistered
    rw [hChannel]
    exact Channel.updateChannel_registered hRegistered events
  · intro hIndex
    rw [hChannel]
    exact Channel.updateChannel_index hIndex

theorem StaysInPoller.sendInLoop (c : TcpConnection) (message : List Byte) (call : SysWrite) :
    StaysInPoller c (c.sendInLoop message call) := by
  rcases sendInLoop_channel c message call with hSame | ⟨-, hEnabled⟩
  · exact .of_same hSame
  · exact .update hEnabled

theorem StaysInPoller.handleWrite (c : TcpConnection) (call : SysWrite) :
    StaysInPoller c (c.handleWrite call) := by
  rcases handleWrite_channel c call with hSame | ⟨-, hDisabled⟩
  · exact .of_same hSame
  · exact .update hDisabled

theorem StaysInPoller.connectEstablished (c : TcpConnection) :
    StaysInPoller c c.connectEstablished := by
  have hChannel : c.connectEstablished.channel = c.channel.setTie.enableReading := by
    simp [TcpConnection.connectEstablished]
  constructor
  · rintro ⟨hInterest, hMapped⟩
    rw [hChannel]
    refine Channel.updateChannel_registered ?_ _
    exact ⟨hInterest, hMapped⟩
  · intro _
    rw [hChannel, Channel.enableReading_index]
    simp

theorem leavePoller_registered {c : TcpConnection} (hRegistered : c.channel.Registered) :
    c.leavePoller.channel.Registered := by
  unfold TcpConnection.leavePoller
  split
  · exact hRegistered
  · exact Channel.removeChannel_registered hRegistered

/-- The invariant of a connection of the server; `owned` says whether it is in
`m_connections`. -/
structure ServerConn (c : TcpConnection) (owned : Bool) : Prop where
  writing_live : c.channel.isWriting = true → c.state.live = true
  live_index : c.state.live = true → c.channel.index ≠ .kNew
  owned_of_index : c.channel.index ≠ .kNew → owned = true

/-- The invariant of the loop thread behind safe dispatch. -/
structure DispatchInv (w : ConnectionLoop ι) : Prop where
  registered : ∀ i, (w.conns i).channel.Registered
  conn : ∀ i, w.ofServer i → ServerConn (w.conns i) (w.connections i)
  foreign : ∀ i, ¬ w.ofServer i → w.connections i = false
  nodup : w.active.Nodup
  waiting : ∀ i ∈ w.active, (w.conns i).channel.index ≠ .kNew
  held : ∀ i ∈ w.active, ¬ w.ofServer i → w.held i = true
  working : ∀ frame ∈ w.stack, ∀ i, frame.conn? = some i → w.ofServer i → i ∉ w.active
  leaving : ∀ i, .leave i ∈ w.stack → ¬ w.ofServer i ∧ i ∉ w.active

theorem new_dispatchInv (callbacks : ι → ConnCallbacks) (highWaterMark : ι → Nat) :
    DispatchInv (new callbacks highWaterMark) where
  registered _ := Channel.new_registered
  conn _ _ := by
    constructor
    · intro hWriting
      cases hWriting
    · intro hLive
      cases hLive
    · intro hIndex
      exact absurd rfl hIndex
  foreign _ _ := rfl
  nodup := List.nodup_nil
  waiting := by simp [new]
  held := by simp [new]
  working := by simp [new]
  leaving := by simp [new]

/-! ## Connections of the server -/

/-- The mask changes while the connection is live. -/
theorem ServerConn.update {c c' : TcpConnection} {owned : Bool} (hConn : ServerConn c owned)
    {events : PollEvents} (hLive : c.state.live = true) (hLive' : c'.state.live = true)
    (hChannel : c'.channel = { c.channel with events := events }.updateChannel) :
    ServerConn c' owned := by
  have hIndex : c'.channel.index ≠ .kNew :=
    (StaysInPoller.update hChannel).index_ne (hConn.live_index hLive)
  exact ⟨fun _ => hLive', fun _ => hIndex, fun _ => hConn.owned_of_index (hConn.live_index hLive)⟩

/-- The channel is kept, and the state stays live or stays not live. -/
theorem ServerConn.of_same {c c' : TcpConnection} {owned : Bool} (hConn : ServerConn c owned)
    (hChannel : c'.channel = c.channel) (hLive : c'.state.live = c.state.live) :
    ServerConn c' owned := by
  refine ⟨?_, ?_, ?_⟩
  · rw [hChannel, hLive]
    exact hConn.writing_live
  · rw [hChannel, hLive]
    exact hConn.live_index
  · rw [hChannel]
    exact hConn.owned_of_index

theorem OnlyOutput_live {c c' : TcpConnection} (hOutput : OnlyOutput c c') :
    c'.state.live = c.state.live := by
  rcases hOutput.state_eq with hSame | ⟨hOld, hNew⟩
  · rw [hSame]
  · rw [hOld, hNew]
    rfl

theorem ServerConn.sendInLoop {c : TcpConnection} {owned : Bool} (hConn : ServerConn c owned)
    (message : List Byte) (call : SysWrite) : ServerConn (c.sendInLoop message call) owned := by
  have hLive := OnlyOutput_live (OnlyOutput.sendInLoop c message call)
  rcases sendInLoop_channel c message call with hSame | ⟨hState, hEnabled⟩
  · exact hConn.of_same hSame hLive
  · have hConnected : c.state.live = true := by
      rw [hState]
      rfl
    exact hConn.update hConnected (hLive.trans hConnected) hEnabled

theorem ServerConn.handleWrite {c : TcpConnection} {owned : Bool} (hConn : ServerConn c owned)
    (call : SysWrite) : ServerConn (c.handleWrite call) owned := by
  have hLive := OnlyOutput_live (OnlyOutput.handleWrite c call)
  rcases handleWrite_channel c call with hSame | ⟨hWriting, hDisabled⟩
  · exact hConn.of_same hSame hLive
  · have hOpen := hConn.writing_live hWriting
    exact hConn.update hOpen (hLive.trans hOpen) hDisabled

theorem serverConn_connectEstablished (c : TcpConnection) :
    ServerConn c.connectEstablished true := by
  have hIndex : c.connectEstablished.channel.index = .kAdded := by
    rw [show c.connectEstablished.channel = c.channel.setTie.enableReading by
      simp [TcpConnection.connectEstablished], Channel.enableReading_index]
  have hState : c.connectEstablished.state.live = true := by
    simp [TcpConnection.connectEstablished, ConnState.live]
  exact ⟨fun _ => hState, fun _ => by simp [hIndex], fun _ => rfl⟩

/-- A connection of the server after `HandleClose` and `RemoveConnection`: it is in
no poller, so nobody has to own it. -/
theorem serverConn_closed (c : TcpConnection) : ServerConn c.beginClose.leavePoller false := by
  have hWriting : c.beginClose.channel.isWriting = false := by simp [TcpConnection.beginClose]
  have hState : c.beginClose.leavePoller.state = .kDisconnected := by
    rw [TcpConnection.leavePoller_state]
    rfl
  have hChannel : c.beginClose.leavePoller.channel.isWriting = false ∧
      c.beginClose.leavePoller.channel.index = .kNew := by
    unfold TcpConnection.leavePoller
    split
    · next hIndex => exact ⟨hWriting, hIndex⟩
    · exact ⟨by simpa using hWriting, rfl⟩
  refine ⟨?_, ?_, ?_⟩
  · simp [hChannel.1]
  · simp [hState, ConnState.live]
  · simp [hChannel.2]

/-! ## The loop thread -/

/-- A step that keeps the batch. -/
theorem DispatchInv.change {w w' : ConnectionLoop ι} (hInv : DispatchInv w)
    (hCallbacks : ∀ i, (w'.conns i).callbacks = (w.conns i).callbacks)
    (hActive : w'.active = w.active)
    (hRegistered : ∀ i, (w'.conns i).channel.Registered)
    (hConn : ∀ i, w.ofServer i → ServerConn (w'.conns i) (w'.connections i))
    (hForeign : ∀ i, ¬ w.ofServer i → w'.connections i = false)
    (hWaiting : ∀ i ∈ w.active, (w'.conns i).channel.index ≠ .kNew)
    (hHeld : ∀ i ∈ w.active, ¬ w.ofServer i → w'.held i = true)
    (hWorking : ∀ frame ∈ w'.stack, ∀ i, frame.conn? = some i → w.ofServer i → i ∉ w.active)
    (hLeaving : ∀ i, .leave i ∈ w'.stack → ¬ w.ofServer i ∧ i ∉ w.active) :
    DispatchInv w' := by
  have hServer : ∀ i, w'.ofServer i ↔ w.ofServer i := by
    intro i
    unfold ofServer
    rw [hCallbacks]
  constructor
  · exact hRegistered
  · exact fun i hi => hConn i ((hServer i).mp hi)
  · exact fun i hi => hForeign i (mt (hServer i).mpr hi)
  · rw [hActive]
    exact hInv.nodup
  · rw [hActive]
    exact hWaiting
  · rw [hActive]
    exact fun i hMem hi => hHeld i hMem (mt (hServer i).mpr hi)
  · rw [hActive]
    exact fun frame hFrame i hConn' hi => hWorking frame hFrame i hConn' ((hServer i).mp hi)
  · rw [hActive]
    exact fun i hMem => ⟨mt (hServer i).mp (hLeaving i hMem).1, (hLeaving i hMem).2⟩

theorem DispatchInv.setStack {w : ConnectionLoop ι} (hInv : DispatchInv w)
    {stack : List (Frame ι)}
    (hWorking : ∀ frame ∈ stack, ∀ i, frame.conn? = some i → w.ofServer i → i ∉ w.active)
    (hLeaving : ∀ i, .leave i ∈ stack → ¬ w.ofServer i ∧ i ∉ w.active) :
    DispatchInv { w with stack := stack } :=
  hInv.change (fun _ => rfl) rfl hInv.registered hInv.conn hInv.foreign hInv.waiting hInv.held
    hWorking hLeaving

theorem DispatchInv.push {w : ConnectionLoop ι} (hInv : DispatchInv w) {frame : Frame ι}
    (hFrame : ∀ i, frame.conn? = some i → w.ofServer i → i ∉ w.active)
    (hLeave : ∀ i, frame = .leave i → ¬ w.ofServer i ∧ i ∉ w.active) :
    DispatchInv (w.push frame) := by
  refine hInv.setStack ?_ ?_
  · intro other hOther
    rcases List.mem_cons.mp hOther with rfl | hOld
    · exact hFrame
    · exact hInv.working other hOld
  · intro i hMem
    rcases List.mem_cons.mp hMem with hNew | hOld
    · exact hLeave i hNew.symm
    · exact hInv.leaving i hOld

theorem DispatchInv.push_user {w : ConnectionLoop ι} (hInv : DispatchInv w) :
    DispatchInv (w.push .user) :=
  hInv.push (by simp [Frame.conn?]) (by simp)

theorem DispatchInv.callUser {w : ConnectionLoop ι} (hInv : DispatchInv w) (present : Bool) :
    DispatchInv (w.callUser present) := by
  unfold ConnectionLoop.callUser
  split
  · exact hInv.push_user
  · exact hInv

/-- The innermost frame returns. -/
theorem DispatchInv.pop {w : ConnectionLoop ι} (hInv : DispatchInv w) {frame : Frame ι}
    {rest : List (Frame ι)} (hStack : w.stack = frame :: rest) :
    DispatchInv { w with stack := rest } := by
  refine hInv.setStack ?_ ?_
  · intro other hOther
    exact hInv.working other (by simp [hStack, hOther])
  · intro i hMem
    exact hInv.leaving i (by simp [hStack, hMem])

/-- The connection whose event is being handled is not in the batch any more. -/
theorem DispatchInv.not_waiting {w : ConnectionLoop ι} (hInv : DispatchInv w)
    {frame : Frame ι} {rest : List (Frame ι)} (hStack : w.stack = frame :: rest) {i : ι}
    (hConn : frame.conn? = some i) : w.ofServer i → i ∉ w.active :=
  hInv.working frame (by simp [hStack]) i hConn

theorem DispatchInv.nextPhase {w : ConnectionLoop ι} (hInv : DispatchInv w) {i : ι}
    {phase : EventPhase} {rest : List (Frame ι)} (hStack : w.stack = .event i phase :: rest)
    (next : EventPhase) : DispatchInv { w with stack := .event i next :: rest } := by
  refine DispatchInv.push (hInv.pop hStack) ?_ (by simp)
  intro j hj
  obtain rfl : i = j := by simpa [Frame.conn?] using hj
  exact hInv.not_waiting hStack rfl

variable [DecidableEq ι]

theorem DispatchInv.setConn {w : ConnectionLoop ι} (hInv : DispatchInv w) {i : ι}
    {c : TcpConnection} (hCallbacks : c.callbacks = (w.conns i).callbacks)
    (hRegistered : c.channel.Registered) (hIndex : i ∈ w.active → c.channel.index ≠ .kNew)
    (hServer : w.ofServer i → ServerConn c (w.connections i)) : DispatchInv (w.setConn i c) := by
  refine hInv.change ?_ rfl ?_ ?_ hInv.foreign ?_ hInv.held hInv.working hInv.leaving
  · intro j
    by_cases hj : j = i
    · subst hj
      simpa [ConnectionLoop.setConn] using hCallbacks
    · simp [ConnectionLoop.setConn, hj]
  · intro j
    by_cases hj : j = i
    · subst hj
      simpa [ConnectionLoop.setConn] using hRegistered
    · simpa [ConnectionLoop.setConn, hj] using hInv.registered j
  · intro j hOf
    by_cases hj : j = i
    · subst hj
      simpa [ConnectionLoop.setConn] using hServer hOf
    · simpa [ConnectionLoop.setConn, hj] using hInv.conn j hOf
  · intro j hMem
    by_cases hj : j = i
    · subst hj
      simpa [ConnectionLoop.setConn] using hIndex hMem
    · simpa [ConnectionLoop.setConn, hj] using hInv.waiting j hMem

/-- A function that leaves the channel where it is. -/
theorem DispatchInv.setConn_stays {w : ConnectionLoop ι} (hInv : DispatchInv w) {i : ι}
    {c : TcpConnection} (hCallbacks : c.callbacks = (w.conns i).callbacks)
    (hStays : StaysInPoller (w.conns i) c)
    (hServer : w.ofServer i → ServerConn c (w.connections i)) : DispatchInv (w.setConn i c) :=
  hInv.setConn hCallbacks (hStays.registered (hInv.registered i))
    (fun hMem => hStays.index_ne (hInv.waiting i hMem)) hServer

/-- An output function that keeps the channel. -/
theorem DispatchInv.setConn_same {w : ConnectionLoop ι} (hInv : DispatchInv w) {i : ι}
    {c : TcpConnection} (hCallbacks : c.callbacks = (w.conns i).callbacks)
    (hChannel : c.channel = (w.conns i).channel)
    (hLive : c.state.live = (w.conns i).state.live) : DispatchInv (w.setConn i c) :=
  hInv.setConn_stays hCallbacks (.of_same hChannel)
    fun hServer => (hInv.conn i hServer).of_same hChannel hLive

/-! ## Closing -/

theorem DispatchInv.leavePoller {w : ConnectionLoop ι} (hInv : DispatchInv w) {i : ι}
    (hNot : ¬ w.ofServer i) (hWaits : i ∉ w.active) :
    DispatchInv (w.setConn i (w.conns i).leavePoller) := by
  refine hInv.setConn ?_ (leavePoller_registered (hInv.registered i))
    (fun hMem => absurd hMem hWaits) fun hServer => absurd hServer hNot
  unfold TcpConnection.leavePoller
  split <;> rfl

theorem DispatchInv.connectDestroyed {w : ConnectionLoop ι} (hInv : DispatchInv w) {i : ι}
    (hNot : ¬ w.ofServer i) (hWaits : i ∉ w.active) : DispatchInv (w.connectDestroyed i) := by
  unfold ConnectionLoop.connectDestroyed
  split
  · have hStays : StaysInPoller (w.conns i) (w.conns i).beginDestroy :=
      .update (by simp only [TcpConnection.beginDestroy, report_channel]; rfl)
    have hBegun : DispatchInv (w.setConn i (w.conns i).beginDestroy) :=
      hInv.setConn_stays (by simp [TcpConnection.beginDestroy]) hStays
        fun hServer => absurd hServer hNot
    have hStill : ¬ (w.setConn i (w.conns i).beginDestroy).ofServer i := by
      simpa [ofServer, ConnectionLoop.setConn, TcpConnection.beginDestroy] using hNot
    refine (hBegun.push ?_ ?_).callUser _
    · intro j hj hServer
      obtain rfl : i = j := by simpa [Frame.conn?] using hj
      exact absurd hServer hStill
    · intro j hj
      obtain rfl : i = j := by simpa using hj
      exact ⟨hStill, hWaits⟩
  · exact hInv.leavePoller hNot hWaits

/-- On a single loop the close of a connection of the server removes its channel
and its entry of `m_connections` in place. -/
theorem handleClose_server {w : ConnectionLoop ι} {i : ι} (hServer : w.ofServer i) :
    w.handleClose i =
      { w with
        conns := Function.update w.conns i (w.conns i).beginClose.leavePoller
        connections := Function.update w.connections i false
        stack := .closeReport i :: w.stack } := by
  have hClose : (w.conns i).callbacks.close = .server := hServer
  simp [ConnectionLoop.handleClose, hClose, ConnectionLoop.removeConnection,
    ConnectionLoop.connectDestroyed, ConnectionLoop.setConn, ConnectionLoop.push,
    TcpConnection.beginClose]

theorem DispatchInv.handleClose {w : ConnectionLoop ι} (hInv : DispatchInv w) {i : ι}
    (hNot : w.ofServer i → i ∉ w.active) : DispatchInv (w.handleClose i) := by
  have hFrame : ∀ j, (Frame.closeReport i).conn? = some j → w.ofServer j → j ∉ w.active := by
    intro j hj
    obtain rfl : i = j := by simpa [Frame.conn?] using hj
    exact hNot
  have hStays : StaysInPoller (w.conns i) (w.conns i).beginClose :=
    .update (by simp only [TcpConnection.beginClose]; rfl)
  by_cases hServer : w.ofServer i
  · rw [handleClose_server hServer]
    refine hInv.change ?_ rfl ?_ ?_ ?_ ?_ hInv.held ?_ ?_
    · intro j
      by_cases hj : j = i
      · subst hj
        simp only [Function.update_self]
        unfold TcpConnection.leavePoller
        split <;> rfl
      · simp [hj]
    · intro j
      by_cases hj : j = i
      · subst hj
        simpa using leavePoller_registered (hStays.registered (hInv.registered j))
      · simpa [hj] using hInv.registered j
    · intro j hOf
      by_cases hj : j = i
      · subst hj
        simpa using serverConn_closed (w.conns j)
      · simpa [hj] using hInv.conn j hOf
    · intro j hOf
      by_cases hj : j = i
      · simp [hj]
      · simpa [hj] using hInv.foreign j hOf
    · intro j hMem
      by_cases hj : j = i
      · -- Its channel is removed here, and must not wait in the batch.
        subst hj
        exact absurd hMem (hNot hServer)
      · simpa [hj] using hInv.waiting j hMem
    · intro frame hMem
      rcases List.mem_cons.mp hMem with rfl | hOld
      · exact hFrame
      · exact hInv.working frame hOld
    · intro j hMem
      exact hInv.leaving j (by simpa using hMem)
  · -- A connection without a server stays in the poller.
    have hBegun : DispatchInv (w.setConn i (w.conns i).beginClose) :=
      hInv.setConn_stays rfl hStays fun hOf => absurd hOf hServer
    have hStill : ¬ (w.setConn i (w.conns i).beginClose).ofServer i := by
      simpa [ofServer, ConnectionLoop.setConn, TcpConnection.beginClose, record] using hServer
    have hPushed :
        DispatchInv ((w.setConn i (w.conns i).beginClose).push (.closeReport i)) := by
      refine hBegun.push ?_ (by simp)
      intro j hj hOf
      obtain rfl : i = j := by simpa [Frame.conn?] using hj
      exact absurd hOf hStill
    unfold ConnectionLoop.handleClose
    split
    · exact hPushed
    · next hClose => exact absurd hClose hServer
    · exact hPushed.push_user

/-! ## Events -/

theorem DispatchInv.handleRead {w : ConnectionLoop ι} (hInv : DispatchInv w) {i : ι}
    (hNot : w.ofServer i → i ∉ w.active) (call : SysRead) :
    DispatchInv (w.handleRead i call) := by
  have hReceived : DispatchInv (w.setConn i ((w.conns i).receive call).1) :=
    hInv.setConn_same rfl rfl rfl
  unfold ConnectionLoop.handleRead
  cases ((w.conns i).receive call).2 with
  | error errno => exact hReceived
  | ok n =>
      cases n with
      | zero =>
          refine hReceived.handleClose fun hServer => hNot ?_
          simpa [ofServer, ConnectionLoop.setConn, receive] using hServer
      | succ n =>
          show DispatchInv (if (w.conns i).callbacks.message = true then _ else _)
          split
          · exact DispatchInv.push_user (hInv.setConn_same rfl rfl rfl)
          · exact hReceived

theorem DispatchInv.proceed {w w' : ConnectionLoop ι} (hInv : DispatchInv w)
    {read : SysRead} {write : SysWrite} (hStep : w.proceed read write = some w') :
    DispatchInv w' := by
  unfold ConnectionLoop.proceed at hStep
  split at hStep
  · next i rest hStack =>
    -- The test for the close callback, before the other events.
    have hNext := hInv.nextPhase hStack .error
    obtain rfl := Option.some.inj hStep
    split
    · exact hNext.handleClose (hInv.not_waiting hStack rfl)
    · exact hNext
  · next i rest hStack =>
    obtain rfl := Option.some.inj hStep
    exact hInv.nextPhase hStack .read
  · next i rest hStack =>
    have hNext := hInv.nextPhase hStack .write
    obtain rfl := Option.some.inj hStep
    split
    · exact hNext.handleRead (hInv.not_waiting hStack rfl) read
    · exact hNext
  · next i rest hStack =>
    -- The write callback may turn the interest off, never the registration.
    have hNext : DispatchInv { w with stack := rest } := hInv.pop hStack
    obtain rfl := Option.some.inj hStep
    split
    · exact hNext.setConn_stays (OnlyOutput.handleWrite _ _).callbacks_eq (.handleWrite _ write)
        fun hServer => (hInv.conn i hServer).handleWrite write
    · exact hNext
  · next i rest hStack =>
    obtain rfl := Option.some.inj hStep
    exact DispatchInv.callUser (DispatchInv.setConn_same (hInv.pop hStack)
      (report_callbacks _) (report_channel _) (by simp)) _
  · next i rest hStack =>
    obtain ⟨hNot, hWaits⟩ := hInv.leaving i (by simp [hStack])
    obtain rfl := Option.some.inj hStep
    exact DispatchInv.leavePoller (hInv.pop hStack) hNot hWaits
  · cases hStep
  · cases hStep

theorem DispatchInv.poll {w : ConnectionLoop ι} (hInv : DispatchInv w)
    {ready : List (ι × PollEvents)} (hCan : w.canPoll ready = true) :
    DispatchInv (w.poll ready) := by
  obtain ⟨hEmpty, -, hNodup, hReady⟩ := canPoll_spec hCan
  obtain ⟨hStack, hConnections, hHeld, hConns⟩ := foldl_setRevents_frame ready w
  have hNil : (w.poll ready).stack = [] := hStack.trans hEmpty
  have hConn : ∀ i, ∃ revents, (w.poll ready).conns i =
      { w.conns i with channel := { (w.conns i).channel with revents := revents } } := hConns
  have hServer : ∀ i, (w.poll ready).ofServer i ↔ w.ofServer i := by
    intro i
    obtain ⟨revents, hEq⟩ := hConn i
    unfold ofServer
    rw [hEq]
  constructor
  · intro i
    obtain ⟨revents, hEq⟩ := hConn i
    rw [hEq]
    exact ⟨(hInv.registered i).interest_eq, (hInv.registered i).mapped_of_index⟩
  · intro i hOf
    obtain ⟨revents, hEq⟩ := hConn i
    have hOld := hInv.conn i ((hServer i).mp hOf)
    rw [hEq, show (w.poll ready).connections i = w.connections i from congrFun hConnections i]
    exact ⟨hOld.writing_live, hOld.live_index, hOld.owned_of_index⟩
  · intro i hOf
    rw [show (w.poll ready).connections i = w.connections i from congrFun hConnections i]
    exact hInv.foreign i (mt (hServer i).mpr hOf)
  · exact hNodup
  · intro i hMem
    obtain ⟨revents, hEq⟩ := hConn i
    rw [hEq]
    -- A channel that `Poll` returns is in the epoll set, so its index is `kAdded`.
    have hSome := (hReady i hMem).1
    rw [(hInv.registered i).interest_eq] at hSome
    intro hNew
    have hNew : (w.conns i).channel.index = .kNew := hNew
    simp [hNew] at hSome
  · intro i hMem hOf
    have hAlive := (hReady i hMem).2
    rw [alive, hEmpty, hInv.foreign i (mt (hServer i).mpr hOf)] at hAlive
    rw [show (w.poll ready).held i = w.held i from congrFun hHeld i]
    simpa using hAlive
  · simp [hNil]
  · simp [hNil]

theorem DispatchInv.dispatch {w w' : ConnectionLoop ι} (hInv : DispatchInv w)
    (hStep : w.dispatch = some w') : DispatchInv w' := by
  unfold ConnectionLoop.dispatch at hStep
  split at hStep
  · next i rest hStack hActive =>
    simp only [Option.ite_none_right_eq_some, Option.some.injEq] at hStep
    obtain ⟨-, rfl⟩ := hStep
    have hSub : ∀ j ∈ rest, j ∈ w.active := fun j hMem => by simp [hActive, hMem]
    have hNodup := hInv.nodup
    rw [hActive, List.nodup_cons] at hNodup
    refine ⟨hInv.registered, hInv.conn, hInv.foreign, hNodup.2,
      fun j hMem => hInv.waiting j (hSub j hMem), fun j hMem => hInv.held j (hSub j hMem), ?_, ?_⟩
    · intro frame hFrame j hj _
      -- The batch names every channel once.
      have hOnly : frame = .event i .close := by
        simpa [ConnectionLoop.push, hStack] using hFrame
      rw [hOnly] at hj
      obtain rfl : i = j := by simpa [Frame.conn?] using hj
      exact hNodup.1
    · simp [ConnectionLoop.push, hStack]
  · cases hStep

/-! ## Steps of the connections -/

/-- The step takes no connection that waits in the batch out of the poller, and does not
destroy it. -/
def KeepsConnections (w : ConnectionLoop ι) : ConnectionLabel ι → Prop
  | .forceClose i => w.ofServer i → (w.conns i).state.live = true → i ∉ w.active
  | .connectDestroyed i => i ∉ w.active
  | .release i => ¬ w.ofServer i → i ∉ w.active
  | _ => True

instance (w : ConnectionLoop ι) (label : ConnectionLabel ι) :
    Decidable (KeepsConnections w label) :=
  match label with
  | .forceClose i =>
      inferInstanceAs (Decidable ((w.conns i).callbacks.close = .server →
        (w.conns i).state.live = true → i ∉ w.active))
  | .connectDestroyed i => inferInstanceAs (Decidable (i ∉ w.active))
  | .release i =>
      inferInstanceAs (Decidable (¬ (w.conns i).callbacks.close = .server → i ∉ w.active))
  | .poll _ | .dispatch | .enter | .leave | .proceed _ _ | .newConnection _
  | .connectEstablished _ | .send _ _ _ | .shutdown _ | .shutdownInLoop _ | .hold _ =>
      isTrue trivial

theorem step_dispatchInv (w : ConnectionLoop ι) (label : ConnectionLabel ι)
    (w' : ConnectionLoop ι) (hInv : DispatchInv w) (hKeeps : KeepsConnections w label)
    (hStep : step w label = some w') : DispatchInv w' := by
  cases label with
  | poll ready =>
      simp only [step, Option.ite_none_right_eq_some, Option.some.injEq] at hStep
      obtain ⟨hCan, rfl⟩ := hStep
      exact hInv.poll hCan
  | dispatch => exact hInv.dispatch hStep
  | enter =>
      simp only [step, Option.ite_none_right_eq_some, Option.some.injEq] at hStep
      obtain ⟨-, rfl⟩ := hStep
      exact hInv.push_user
  | leave =>
      simp only [step] at hStep
      split at hStep
      · next rest hStack =>
        obtain rfl := Option.some.inj hStep
        exact hInv.pop hStack
      · cases hStep
  | proceed read write => exact hInv.proceed hStep
  | newConnection i =>
      simp only [step, Option.ite_none_right_eq_some, Option.some.injEq] at hStep
      obtain ⟨⟨-, hServer, -⟩, rfl⟩ := hStep
      -- The table owns the connection before its channel is registered.
      have hInserted :
          DispatchInv { w with connections := Function.update w.connections i true } := by
        refine hInv.change (fun _ => rfl) rfl hInv.registered ?_ ?_ hInv.waiting hInv.held
          hInv.working hInv.leaving
        · intro j hOf
          obtain ⟨hWriting, hLive, hOwned⟩ := hInv.conn j hOf
          refine ⟨hWriting, hLive, fun hIndex => ?_⟩
          by_cases hj : j = i
          · simp [hj]
          · simpa [hj] using hOwned hIndex
        · intro j hOf
          have hj : j ≠ i := by
            rintro rfl
            exact hOf hServer
          simpa [hj] using hInv.foreign j hOf
      refine (hInserted.setConn_stays ?_ (.connectEstablished _) fun _ => ?_).callUser _
      · simp [TcpConnection.connectEstablished]
      · simpa using serverConn_connectEstablished (w.conns i)
  | connectEstablished i =>
      simp only [step, Option.ite_none_right_eq_some, Option.some.injEq] at hStep
      obtain ⟨⟨-, hNot, -⟩, rfl⟩ := hStep
      refine (hInv.setConn_stays ?_ (.connectEstablished _) fun hOf => absurd hOf hNot).callUser _
      simp [TcpConnection.connectEstablished]
  | connectDestroyed i =>
      simp only [step, Option.ite_none_right_eq_some, Option.some.injEq] at hStep
      obtain ⟨⟨-, hNot⟩, rfl⟩ := hStep
      exact hInv.connectDestroyed hNot hKeeps
  | send i message call =>
      simp only [step, Option.ite_none_right_eq_some, Option.some.injEq] at hStep
      obtain ⟨-, rfl⟩ := hStep
      exact hInv.setConn_stays (OnlyOutput.sendInLoop _ _ _).callbacks_eq (.sendInLoop _ _ _)
        fun hOf => (hInv.conn i hOf).sendInLoop message call
  | shutdown i =>
      simp only [step, Option.ite_none_right_eq_some, Option.some.injEq] at hStep
      obtain ⟨-, rfl⟩ := hStep
      have hOutput := OnlyOutput.shutdown (w.conns i)
      exact hInv.setConn_same hOutput.callbacks_eq (by simp) (OnlyOutput_live hOutput)
  | shutdownInLoop i =>
      simp only [step, Option.ite_none_right_eq_some, Option.some.injEq] at hStep
      obtain ⟨-, rfl⟩ := hStep
      have hOutput := OnlyOutput.shutdownInLoop (w.conns i)
      exact hInv.setConn_same hOutput.callbacks_eq (by simp) (OnlyOutput_live hOutput)
  | forceClose i =>
      simp only [step, Option.ite_none_right_eq_some, Option.some.injEq] at hStep
      obtain ⟨-, rfl⟩ := hStep
      unfold forceClose
      split
      · next hLive => exact hInv.handleClose fun hOf => hKeeps hOf hLive
      · exact hInv
  | hold i =>
      simp only [step, Option.ite_none_right_eq_some, Option.some.injEq] at hStep
      obtain ⟨-, rfl⟩ := hStep
      refine hInv.change (fun _ => rfl) rfl hInv.registered hInv.conn hInv.foreign hInv.waiting ?_
        hInv.working hInv.leaving
      intro j hMem hOf
      by_cases hj : j = i
      · simp [hj]
      · simpa [hj] using hInv.held j hMem hOf
  | release i =>
      simp only [step, Option.ite_none_right_eq_some, Option.some.injEq] at hStep
      obtain ⟨-, rfl⟩ := hStep
      refine hInv.change (fun _ => rfl) rfl hInv.registered hInv.conn hInv.foreign hInv.waiting ?_
        hInv.working hInv.leaving
      intro j hMem hOf
      -- What user code lets go of is not waiting.
      have hj : j ≠ i := by
        rintro rfl
        exact hKeeps hOf hMem
      simpa [hj] using hInv.held j hMem hOf

/-! ## The batch -/

omit [DecidableEq ι] in
@[simp] theorem callUser_active (w : ConnectionLoop ι) (present : Bool) :
    (w.callUser present).active = w.active := by
  unfold callUser
  split <;> rfl

@[simp] theorem connectDestroyed_active (w : ConnectionLoop ι) (i : ι) :
    (w.connectDestroyed i).active = w.active := by
  unfold connectDestroyed
  split <;> simp [push, setConn]

@[simp] theorem handleClose_active (w : ConnectionLoop ι) (i : ι) :
    (w.handleClose i).active = w.active := by
  unfold handleClose
  split <;> simp [push, setConn, removeConnection]

@[simp] theorem handleRead_active (w : ConnectionLoop ι) (i : ι) (call : SysRead) :
    (w.handleRead i call).active = w.active := by
  unfold handleRead
  split
  · rfl
  · simp [setConn]
  · split <;> rfl

theorem proceed_active {w w' : ConnectionLoop ι} {read : SysRead} {write : SysWrite}
    (hStep : w.proceed read write = some w') : w'.active = w.active := by
  unfold proceed at hStep
  split at hStep
  · obtain rfl := Option.some.inj hStep
    split <;> simp
  · obtain rfl := Option.some.inj hStep
    rfl
  · obtain rfl := Option.some.inj hStep
    split <;> simp
  · obtain rfl := Option.some.inj hStep
    split <;> rfl
  · obtain rfl := Option.some.inj hStep
    simp [setConn]
  · obtain rfl := Option.some.inj hStep
    rfl
  · cases hStep
  · cases hStep

/-- Only `Poll` and the iteration itself change the batch. -/
theorem step_active {w w' : ConnectionLoop ι} {label : ConnectionLabel ι}
    (hStep : step w label = some w') (hPoll : ∀ ready, label ≠ .poll ready)
    (hDispatch : label ≠ .dispatch) : w'.active = w.active := by
  cases label with
  | poll ready => exact absurd rfl (hPoll ready)
  | dispatch => exact absurd rfl hDispatch
  | proceed read write => exact proceed_active hStep
  | leave =>
      simp only [step] at hStep
      split at hStep
      · obtain rfl := Option.some.inj hStep
        rfl
      · cases hStep
  | forceClose i =>
      simp only [step, Option.ite_none_right_eq_some, Option.some.injEq] at hStep
      obtain ⟨-, rfl⟩ := hStep
      unfold forceClose
      split <;> simp
  | newConnection i | connectEstablished i =>
      simp only [step, Option.ite_none_right_eq_some, Option.some.injEq] at hStep
      obtain ⟨-, rfl⟩ := hStep
      simp [newConnection, connectEstablished, setConn]
  | connectDestroyed i =>
      simp only [step, Option.ite_none_right_eq_some, Option.some.injEq] at hStep
      obtain ⟨-, rfl⟩ := hStep
      simp
  | enter | send | shutdown | shutdownInLoop | hold | release =>
      simp only [step, Option.ite_none_right_eq_some, Option.some.injEq] at hStep
      obtain ⟨-, rfl⟩ := hStep
      rfl

end ConnectionLoop
end SolarNet
