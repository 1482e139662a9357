import SolarNet.Transport.Lifecycle

/-!
# Runs of the loop and the life of its connections

The invariant of one connection is lifted to the loop thread: the number of waiting
calls of `HandleClose` is read off the stack, an event is handled only at the
bottom of the stack, and a connection that is not established has no events.
-/

namespace SolarNet
namespace ConnectionLoop

open Lib TcpConnection

variable {ι : Type*} [DecidableEq ι]

/-- `HandleEvent` is called by `Loop()` and never by user code. -/
def EventsAtBottom : List (Frame ι) → Prop
  | [] => True
  | .event _ _ :: rest => rest = []
  | _ :: rest => EventsAtBottom rest

/-- The invariant of the loop thread behind the reported lives. -/
structure LifeWorld (w : ConnectionLoop ι) : Prop where
  life : ∀ i, LifeInv (w.conns i) (w.stack.count (.closeReport i))
  bottom : EventsAtBottom w.stack
  fresh : ∀ i, (w.conns i).state = .kConnecting →
    i ∉ w.active ∧ (∀ phase, .event i phase ∉ w.stack) ∧ (w.conns i).channel.interest = none

theorem new_lifeWorld (callbacks : ι → ConnCallbacks) (highWaterMark : ι → Nat) :
    LifeWorld (new callbacks highWaterMark) where
  life := fun i => new_lifeInv (callbacks i) (highWaterMark i)
  bottom := trivial
  fresh := fun i _ => ⟨by simp [new], by simp [new], rfl⟩

/-! ## Changes of one connection and of the stack -/

theorem LifeWorld.setConn {w : ConnectionLoop ι} (hInv : LifeWorld w) {i : ι}
    {c : TcpConnection} (hLife : LifeInv c (w.stack.count (.closeReport i)))
    (hFresh : c.state = .kConnecting →
      (w.conns i).state = .kConnecting ∧ c.channel.interest = none) :
    LifeWorld (w.setConn i c) where
  life := by
    intro j
    by_cases hj : j = i
    · subst hj
      simpa [ConnectionLoop.setConn] using hLife
    · simpa [ConnectionLoop.setConn, hj] using hInv.life j
  bottom := hInv.bottom
  fresh := by
    intro j
    by_cases hj : j = i
    · subst hj
      intro hState
      have hConn : (w.setConn j c).conns j = c := by simp [ConnectionLoop.setConn]
      rw [hConn] at hState ⊢
      obtain ⟨hOld, hInterest⟩ := hFresh hState
      obtain ⟨hActive, hEvents, -⟩ := hInv.fresh j hOld
      exact ⟨hActive, hEvents, hInterest⟩
    · simpa [ConnectionLoop.setConn, hj] using hInv.fresh j

/-- An output function is applied to a connection. -/
theorem LifeWorld.setConn_onlyOutput {w : ConnectionLoop ι} (hInv : LifeWorld w) {i : ι}
    {c : TcpConnection} (hOutput : OnlyOutput (w.conns i) c)
    (hChannel : (w.conns i).state = .kConnecting →
      c.channel.interest = (w.conns i).channel.interest) :
    LifeWorld (w.setConn i c) := by
  refine hInv.setConn ((hInv.life i).onlyOutput hOutput) fun hState => ?_
  have hOld : (w.conns i).state = .kConnecting := by
    rcases hOutput.state_eq with hSame | ⟨-, hOther⟩
    · rw [← hSame, hState]
    · rw [hState] at hOther
      cases hOther
  exact ⟨hOld, by rw [hChannel hOld, (hInv.fresh i hOld).2.2]⟩

/-- The stack changes in user code and in the phase of an event. -/
theorem LifeWorld.setStack {w : ConnectionLoop ι} (hInv : LifeWorld w)
    {stack : List (Frame ι)}
    (hCount : ∀ i, stack.count (.closeReport i) = w.stack.count (.closeReport i))
    (hBottom : EventsAtBottom stack)
    (hEvents : ∀ i phase, .event i phase ∈ stack → ∃ phase', .event i phase' ∈ w.stack) :
    LifeWorld { w with stack := stack } where
  life := fun i => by
    show LifeInv (w.conns i) (stack.count (.closeReport i))
    rw [hCount]
    exact hInv.life i
  bottom := hBottom
  fresh := by
    intro i hState
    obtain ⟨hActive, hOld, hInterest⟩ := hInv.fresh i hState
    refine ⟨hActive, fun phase hMem => ?_, hInterest⟩
    obtain ⟨phase', hMem'⟩ := hEvents i phase hMem
    exact hOld phase' hMem'

theorem LifeWorld.push_user {w : ConnectionLoop ι} (hInv : LifeWorld w) :
    LifeWorld (w.push .user) := by
  refine hInv.setStack ?_ hInv.bottom ?_
  · simp
  · intro i phase hMem
    exact ⟨phase, by simpa using hMem⟩

theorem LifeWorld.callUser {w : ConnectionLoop ι} (hInv : LifeWorld w) (present : Bool) :
    LifeWorld (w.callUser present) := by
  unfold ConnectionLoop.callUser
  split
  · exact hInv.push_user
  · exact hInv

theorem LifeWorld.push_leave {w : ConnectionLoop ι} (hInv : LifeWorld w) (i : ι) :
    LifeWorld (w.push (.leave i)) := by
  refine hInv.setStack ?_ hInv.bottom ?_
  · simp
  · intro j phase hMem
    exact ⟨phase, by simpa using hMem⟩

/-- A frame that is neither an event nor a waiting `HandleClose` returns. -/
theorem LifeWorld.pop {w : ConnectionLoop ι} (hInv : LifeWorld w) {frame : Frame ι}
    {rest : List (Frame ι)} (hStack : w.stack = frame :: rest)
    (hFrame : ∀ i, frame ≠ .closeReport i) : LifeWorld { w with stack := rest } := by
  refine hInv.setStack ?_ ?_ ?_
  · intro i
    rw [hStack, List.count_cons_of_ne (hFrame i)]
  · have hBottom := hInv.bottom
    rw [hStack] at hBottom
    cases frame with
    | event i phase =>
        obtain rfl : rest = [] := hBottom
        trivial
    | user => exact hBottom
    | closeReport i => exact hBottom
    | leave i => exact hBottom
  · intro i phase hMem
    exact ⟨phase, by simp [hStack, hMem]⟩

/-- `HandleEventWithGuard` goes on to its next test. -/
theorem LifeWorld.nextPhase {w : ConnectionLoop ι} (hInv : LifeWorld w) {i : ι}
    {phase : EventPhase} {rest : List (Frame ι)} (hStack : w.stack = .event i phase :: rest)
    (next : EventPhase) : LifeWorld { w with stack := .event i next :: rest } := by
  have hBottom := hInv.bottom
  rw [hStack] at hBottom
  refine hInv.setStack ?_ hBottom ?_
  · intro j
    rw [hStack, List.count_cons_of_ne (by simp), List.count_cons_of_ne (by simp)]
  · intro j phase' hMem
    rw [hStack]
    rcases List.mem_cons.mp hMem with hEq | hRest
    · obtain ⟨rfl, rfl⟩ : j = i ∧ phase' = next := by simpa using hEq
      exact ⟨phase, by simp⟩
    · exact ⟨phase', List.mem_cons_of_mem _ hRest⟩

/-! ## The lifecycle functions -/

theorem LifeWorld.connectEstablished {w : ConnectionLoop ι} (hInv : LifeWorld w) {i : ι}
    (hState : (w.conns i).state = .kConnecting) : LifeWorld (w.connectEstablished i) := by
  refine (hInv.setConn ((hInv.life i).connectEstablished hState) ?_).callUser _
  intro hConnecting
  simp [TcpConnection.connectEstablished] at hConnecting

/-- `leavePoller` only takes a descriptor out of the epoll set. -/
theorem leavePoller_interest {c : TcpConnection} (hInterest : c.channel.interest = none) :
    c.leavePoller.channel.interest = none := by
  unfold leavePoller
  split
  · exact hInterest
  · simp only [Channel.removeChannel, Channel.epollCtl]
    split <;> simp [hInterest]

theorem LifeWorld.leavePoller {w : ConnectionLoop ι} (hInv : LifeWorld w) (i : ι) :
    LifeWorld (w.setConn i (w.conns i).leavePoller) := by
  refine hInv.setConn (hInv.life i).leavePoller fun hState => ?_
  rw [TcpConnection.leavePoller_state] at hState
  exact ⟨hState, leavePoller_interest (hInv.fresh i hState).2.2⟩

theorem LifeWorld.connectDestroyed {w : ConnectionLoop ι} (hInv : LifeWorld w) (i : ι) :
    LifeWorld (w.connectDestroyed i) := by
  unfold ConnectionLoop.connectDestroyed
  split
  · next hState =>
    refine LifeWorld.callUser (LifeWorld.push_leave (hInv.setConn
      ((hInv.life i).beginDestroy hState) ?_) i) _
    intro hConnecting
    simp [TcpConnection.beginDestroy] at hConnecting
  · exact hInv.leavePoller i

/-- A live connection begins to close. -/
theorem LifeWorld.beginClose {w : ConnectionLoop ι} (hInv : LifeWorld w) {i : ι}
    (hLive : (w.conns i).state.live = true) :
    LifeWorld ((w.setConn i (w.conns i).beginClose).push (.closeReport i)) where
  life := by
    intro j
    by_cases hj : j = i
    · subst hj
      simpa [ConnectionLoop.setConn, push] using (hInv.life j).beginClose hLive
    · have hNe : Frame.closeReport i ≠ Frame.closeReport j := by
        simpa using Ne.symm hj
      simpa [ConnectionLoop.setConn, push, hj, List.count_cons_of_ne hNe] using hInv.life j
  bottom := hInv.bottom
  fresh := by
    intro j
    by_cases hj : j = i
    · subst hj
      simp [ConnectionLoop.setConn, push, TcpConnection.beginClose]
    · simpa [ConnectionLoop.setConn, push, hj] using hInv.fresh j

theorem LifeWorld.removeConnection {w : ConnectionLoop ι} (hInv : LifeWorld w) (i : ι) :
    LifeWorld (w.removeConnection i) := by
  have hErased : LifeWorld { w with connections := Function.update w.connections i false } :=
    ⟨hInv.life, hInv.bottom, hInv.fresh⟩
  exact hErased.connectDestroyed i

theorem LifeWorld.handleClose {w : ConnectionLoop ι} (hInv : LifeWorld w) {i : ι}
    (hLive : (w.conns i).state.live = true) : LifeWorld (w.handleClose i) := by
  have hClosing := hInv.beginClose hLive
  unfold ConnectionLoop.handleClose
  split
  · exact hClosing
  · exact hClosing.removeConnection i
  · exact hClosing.push_user

/-- The waiting `HandleClose` calls the connection callback. -/
theorem LifeWorld.closeReport {w : ConnectionLoop ι} (hInv : LifeWorld w) {i : ι}
    {rest : List (Frame ι)} (hStack : w.stack = .closeReport i :: rest) :
    LifeWorld ({ w with stack := rest }.setConn i (w.conns i).report) where
  life := by
    intro j
    have hLife := hInv.life j
    rw [hStack] at hLife
    by_cases hj : j = i
    · subst hj
      rw [List.count_cons_self] at hLife
      simpa [ConnectionLoop.setConn] using hLife.report
    · have hNe : Frame.closeReport i ≠ Frame.closeReport j := by
        simpa using Ne.symm hj
      rw [List.count_cons_of_ne hNe] at hLife
      simpa [ConnectionLoop.setConn, hj] using hLife
  bottom := by
    have hBottom := hInv.bottom
    rw [hStack] at hBottom
    exact hBottom
  fresh := by
    intro j
    have hFresh := hInv.fresh j
    rw [hStack] at hFresh
    by_cases hj : j = i
    · subst hj
      simpa [ConnectionLoop.setConn] using hFresh
    · simpa [ConnectionLoop.setConn, hj] using hFresh

/-! ## Events -/

theorem receive_eof (c : TcpConnection) : (c.receive (.data [])).2 = .ok 0 := by
  have hResult := CheckedBuffer.readFd_data_result c.inputBuffer []
  rw [List.take_nil] at hResult
  exact hResult

/-- A read that finds a byte returns a positive number: `readv` has room. -/
theorem receive_data (c : TcpConnection) (byte : Byte) (stream : List Byte) :
    ∃ n, (c.receive (.data (byte :: stream))).2 = .ok (n + 1) := by
  have hCapacity : c.inputBuffer.1.readvCapacity ≠ 0 := by
    unfold Buffer.readvCapacity Buffer.extrabufSize
    split <;> omega
  obtain ⟨room, hRoom⟩ := Nat.exists_eq_succ_of_ne_zero hCapacity
  refine ⟨(stream.take room).length, ?_⟩
  have hResult := CheckedBuffer.readFd_data_result c.inputBuffer (byte :: stream)
  rw [hRoom, List.take_succ_cons] at hResult
  exact hResult

/-- What a read of a connection that is already `kDisconnected` may find: an error,
or data that no callback can tell from data before the disconnection. -/
def ReadHarmless (c : TcpConnection) : SysRead → Prop
  | .error _ => True
  | .data [] => False
  | .data (_ :: _) => ¬ (c.callbacks.message = true ∧ c.callbacks.connection = true)

/-- The step does not run the close callback of a connection that is already
`kDisconnected`, and does not read from it with success. -/
def NotStale (w : ConnectionLoop ι) : ConnectionLabel ι → Prop
  | .proceed read _ =>
      match w.stack with
      | .event i .close :: _ =>
          (w.conns i).channel.revents.closes = true → (w.conns i).state ≠ .kDisconnected
      | .event i .read :: _ =>
          (w.conns i).channel.revents.reads = true → (w.conns i).state = .kDisconnected →
            ReadHarmless (w.conns i) read
      | _ => True
  | _ => True

theorem LifeWorld.handleRead {w : ConnectionLoop ι} (hInv : LifeWorld w) {i : ι}
    {call : SysRead} (hStarted : (w.conns i).state ≠ .kConnecting)
    (hHarmless : (w.conns i).state = .kDisconnected → ReadHarmless (w.conns i) call) :
    LifeWorld (w.handleRead i call) := by
  have hReceived : LifeWorld (w.setConn i ((w.conns i).receive call).1) :=
    hInv.setConn_onlyOutput (OnlyOutput.of_same rfl rfl rfl) fun _ => rfl
  unfold ConnectionLoop.handleRead
  cases call with
  | error errno => exact hReceived
  | data stream =>
      cases stream with
      | nil =>
          -- End of file: `HandleClose`.
          have hOpen : (w.conns i).state ≠ .kDisconnected := fun hClosed => hHarmless hClosed
          rw [receive_eof]
          refine hReceived.handleClose ?_
          simpa [ConnectionLoop.setConn, receive] using ConnState.live_of_ne hStarted hOpen
      | cons byte stream =>
          obtain ⟨n, hResult⟩ := receive_data (w.conns i) byte stream
          rw [hResult]
          show LifeWorld (if (w.conns i).callbacks.message = true then _ else _)
          split
          · next hMessage =>
            have hMay : (w.conns i).state = .kDisconnected →
                (w.conns i).callbacks.connection = false := by
              intro hClosed
              by_contra hSet
              exact hHarmless hClosed ⟨hMessage, by simpa using hSet⟩
            have hLife : LifeInv ((w.conns i).receive (.data (byte :: stream))).1
                (w.stack.count (.closeReport i)) := (hInv.life i).of_same rfl rfl rfl
            refine LifeWorld.push_user (hInv.setConn (hLife.message hMay) ?_)
            intro hConnecting
            exact absurd hConnecting hStarted
          · exact hReceived

/-- The log of a connection when its `HandleClose` begins. -/
theorem handleClose_log (w : ConnectionLoop ι) (i : ι) :
    ((w.handleClose i).conns i).log =
      (w.conns i).log ++ [.handleClose (w.conns i).state] := by
  have hLeave : ∀ c : TcpConnection, c.leavePoller.log = c.log := by
    intro c
    unfold TcpConnection.leavePoller
    split <;> rfl
  unfold ConnectionLoop.handleClose
  split
  · simp [ConnectionLoop.setConn, push, TcpConnection.beginClose, record]
  · simp [ConnectionLoop.removeConnection, ConnectionLoop.connectDestroyed,
      ConnectionLoop.setConn, push, TcpConnection.beginClose, record, hLeave]
  · simp [ConnectionLoop.setConn, push, TcpConnection.beginClose, record]

/-- The connection whose event is being handled is established. -/
theorem LifeWorld.event_started {w : ConnectionLoop ι} (hInv : LifeWorld w) {i : ι}
    {phase : EventPhase} {rest : List (Frame ι)} (hStack : w.stack = .event i phase :: rest) :
    (w.conns i).state ≠ .kConnecting := by
  intro hConnecting
  refine (hInv.fresh i hConnecting).2.1 phase ?_
  rw [hStack]
  exact List.mem_cons_self

theorem LifeWorld.proceed {w w' : ConnectionLoop ι} (hInv : LifeWorld w) {read : SysRead}
    {write : SysWrite} (hStep : w.proceed read write = some w')
    (hNotStale : NotStale w (.proceed read write)) : LifeWorld w' := by
  simp only [NotStale] at hNotStale
  unfold ConnectionLoop.proceed at hStep
  split at hStep
  · next i rest hStack =>
    -- The test for the close callback, before the other events.
    have hStarted := hInv.event_started hStack
    have hNext := hInv.nextPhase hStack .error
    obtain rfl := Option.some.inj hStep
    simp only [hStack] at hNotStale
    split
    · next hCloses => exact hNext.handleClose (ConnState.live_of_ne hStarted (hNotStale hCloses))
    · exact hNext
  · next i rest hStack =>
    obtain rfl := Option.some.inj hStep
    exact hInv.nextPhase hStack .read
  · next i rest hStack =>
    -- The test for the read callback; the connection may have closed since `Poll`.
    have hStarted := hInv.event_started hStack
    have hNext := hInv.nextPhase hStack .write
    obtain rfl := Option.some.inj hStep
    simp only [hStack] at hNotStale
    split
    · next hReads => exact hNext.handleRead hStarted (hNotStale hReads)
    · exact hNext
  · next i rest hStack =>
    have hStarted := hInv.event_started hStack
    have hNext : LifeWorld { w with stack := rest } := hInv.pop hStack (by simp)
    obtain rfl := Option.some.inj hStep
    split
    · exact hNext.setConn_onlyOutput (OnlyOutput.handleWrite _ _)
        fun hConnecting => absurd hConnecting hStarted
    · exact hNext
  · next i rest hStack =>
    -- `HandleClose` reports the disconnection.
    obtain rfl := Option.some.inj hStep
    exact (hInv.closeReport hStack).callUser _
  · next i rest hStack =>
    obtain rfl := Option.some.inj hStep
    exact (hInv.pop hStack (by simp)).leavePoller i
  · cases hStep
  · cases hStep

/-! ## Polling -/

/-- `Poll` changes a connection only in the events that it reports. -/
theorem foldl_setRevents_frame (ready : List (ι × PollEvents)) (w : ConnectionLoop ι) :
    (ready.foldl setRevents w).stack = w.stack ∧
      (ready.foldl setRevents w).connections = w.connections ∧
      (ready.foldl setRevents w).held = w.held ∧
      ∀ j, ∃ revents, (ready.foldl setRevents w).conns j =
        { w.conns j with channel := { (w.conns j).channel with revents := revents } } := by
  induction ready generalizing w with
  | nil => exact ⟨rfl, rfl, rfl, fun j => ⟨(w.conns j).channel.revents, rfl⟩⟩
  | cons event ready ih =>
      obtain ⟨hStack, hConnections, hHeld, hConns⟩ := ih (w.setRevents event)
      refine ⟨hStack, hConnections, hHeld, fun j => ?_⟩
      obtain ⟨revents, hConn⟩ := hConns j
      refine ⟨revents, ?_⟩
      rw [List.foldl_cons, hConn]
      by_cases hj : j = event.1
      · subst hj
        simp [setRevents, ConnectionLoop.setConn, Channel.setRevents]
      · simp [setRevents, ConnectionLoop.setConn, hj]

theorem canPoll_spec {w : ConnectionLoop ι} {ready : List (ι × PollEvents)}
    (hCan : w.canPoll ready = true) :
    w.stack = [] ∧ w.active = [] ∧ (ready.map Prod.fst).Nodup ∧
      ∀ i ∈ ready.map Prod.fst,
        (w.conns i).channel.interest.isSome = true ∧ w.alive i = true := by
  simp only [canPoll, Bool.and_eq_true, List.isEmpty_iff, decide_eq_true_eq,
    List.all_eq_true] at hCan
  obtain ⟨⟨⟨hStack, hActive⟩, hNodup⟩, hReady⟩ := hCan
  refine ⟨hStack, hActive, hNodup, fun i hi => ?_⟩
  obtain ⟨event, hEvent, rfl⟩ := List.mem_map.mp hi
  exact hReady event hEvent

theorem LifeWorld.poll {w : ConnectionLoop ι} (hInv : LifeWorld w)
    {ready : List (ι × PollEvents)} (hCan : w.canPoll ready = true) :
    LifeWorld (w.poll ready) := by
  obtain ⟨-, -, -, hReady⟩ := canPoll_spec hCan
  obtain ⟨hStack, -, -, hConns⟩ := foldl_setRevents_frame ready w
  refine ⟨?_, ?_, ?_⟩
  · intro j
    obtain ⟨revents, hConn⟩ := hConns j
    show LifeInv ((ready.foldl setRevents w).conns j)
      ((ready.foldl setRevents w).stack.count (.closeReport j))
    rw [hConn, hStack]
    exact (hInv.life j).of_same rfl rfl rfl
  · show EventsAtBottom (ready.foldl setRevents w).stack
    rw [hStack]
    exact hInv.bottom
  · intro j
    obtain ⟨revents, hConn⟩ := hConns j
    show ((ready.foldl setRevents w).conns j).state = .kConnecting →
      j ∉ ready.map Prod.fst ∧
      (∀ phase, .event j phase ∉ (ready.foldl setRevents w).stack) ∧
      ((ready.foldl setRevents w).conns j).channel.interest = none
    rw [hConn, hStack]
    intro hConnecting
    obtain ⟨-, hEvents, hInterest⟩ := hInv.fresh j hConnecting
    refine ⟨fun hMem => ?_, hEvents, hInterest⟩
    -- A channel that `Poll` returns is in the epoll set.
    have hSome := (hReady j hMem).1
    rw [hInterest] at hSome
    cases hSome

theorem LifeWorld.dispatch {w w' : ConnectionLoop ι} (hInv : LifeWorld w)
    (hStep : w.dispatch = some w') : LifeWorld w' := by
  unfold ConnectionLoop.dispatch at hStep
  split at hStep
  · next i rest hStack hActive =>
    simp only [Option.ite_none_right_eq_some, Option.some.injEq] at hStep
    obtain ⟨-, rfl⟩ := hStep
    refine ⟨?_, ?_, ?_⟩
    · intro j
      simpa [push, hStack] using hInv.life j
    · simp [push, hStack, EventsAtBottom]
    · intro j hConnecting
      obtain ⟨hNotActive, -, hInterest⟩ := hInv.fresh j hConnecting
      rw [hActive, List.mem_cons, not_or] at hNotActive
      refine ⟨hNotActive.2, fun phase => ?_, hInterest⟩
      simp [push, hStack, hNotActive.1]
  · cases hStep

/-! ## Runs -/

theorem step_lifeWorld (w : ConnectionLoop ι) (label : ConnectionLabel ι)
    (w' : ConnectionLoop ι) (hInv : LifeWorld w) (hStep : step w label = some w')
    (hNotStale : NotStale w label) : LifeWorld w' := by
  cases label with
  | poll ready =>
      simp only [step, Option.ite_none_right_eq_some, Option.some.injEq] at hStep
      obtain ⟨hCan, rfl⟩ := hStep
      exact hInv.poll hCan
  | dispatch => exact hInv.dispatch hStep
  | enter =>
      simp only [step, Option.ite_none_right_eq_some, Option.some.injEq] at hStep
      obtain ⟨-, rfl⟩ := hStep
      exact hInv.push_user
  | leave =>
      simp only [step] at hStep
      split at hStep
      · next rest hStack =>
        obtain rfl := Option.some.inj hStep
        exact hInv.pop hStack (by simp)
      · cases hStep
  | proceed read write => exact hInv.proceed hStep hNotStale
  | newConnection i =>
      simp only [step, Option.ite_none_right_eq_some, Option.some.injEq] at hStep
      obtain ⟨⟨-, -, hState⟩, rfl⟩ := hStep
      have hInserted :
          LifeWorld { w with connections := Function.update w.connections i true } :=
        ⟨hInv.life, hInv.bottom, hInv.fresh⟩
      exact hInserted.connectEstablished hState
  | connectEstablished i =>
      simp only [step, Option.ite_none_right_eq_some, Option.some.injEq] at hStep
      obtain ⟨⟨-, -, hState⟩, rfl⟩ := hStep
      exact hInv.connectEstablished hState
  | connectDestroyed i =>
      simp only [step, Option.ite_none_right_eq_some, Option.some.injEq] at hStep
      obtain ⟨-, rfl⟩ := hStep
      exact hInv.connectDestroyed i
  | send i message call =>
      simp only [step, Option.ite_none_right_eq_some, Option.some.injEq] at hStep
      obtain ⟨-, rfl⟩ := hStep
      refine hInv.setConn_onlyOutput (OnlyOutput.sendInLoop _ _ _) fun hConnecting => ?_
      rcases sendInLoop_channel (w.conns i) message call with hSame | ⟨hState, -⟩
      · rw [hSame]
      · rw [hConnecting] at hState
        cases hState
  | shutdown i =>
      simp only [step, Option.ite_none_right_eq_some, Option.some.injEq] at hStep
      obtain ⟨-, rfl⟩ := hStep
      exact hInv.setConn_onlyOutput (OnlyOutput.shutdown _) fun _ => by simp
  | shutdownInLoop i =>
      simp only [step, Option.ite_none_right_eq_some, Option.some.injEq] at hStep
      obtain ⟨-, rfl⟩ := hStep
      exact hInv.setConn_onlyOutput (OnlyOutput.shutdownInLoop _) fun _ => by simp
  | forceClose i =>
      simp only [step, Option.ite_none_right_eq_some, Option.some.injEq] at hStep
      obtain ⟨-, rfl⟩ := hStep
      unfold forceClose
      split
      · next hLive => exact hInv.handleClose hLive
      · exact hInv
  | hold i =>
      simp only [step, Option.ite_none_right_eq_some, Option.some.injEq] at hStep
      obtain ⟨-, rfl⟩ := hStep
      exact ⟨hInv.life, hInv.bottom, hInv.fresh⟩
  | release i =>
      simp only [step, Option.ite_none_right_eq_some, Option.some.injEq] at hStep
      obtain ⟨-, rfl⟩ := hStep
      exact ⟨hInv.life, hInv.bottom, hInv.fresh⟩

/-- At the end of file of a closed connection `HandleClose` runs again. -/
theorem handleRead_eof_log (w : ConnectionLoop ι) (i : ι) :
    ((w.handleRead i (.data [])).conns i).log =
      (w.conns i).log ++ [.handleClose (w.conns i).state] := by
  simp only [ConnectionLoop.handleRead, receive_eof]
  rw [handleClose_log]
  simp [ConnectionLoop.setConn, receive]

/-- Data is delivered whatever the state of the connection is. -/
theorem handleRead_data_log {w : ConnectionLoop ι} {i : ι} (byte : Byte)
    (stream : List Byte) (hMessage : (w.conns i).callbacks.message = true) :
    ((w.handleRead i (.data (byte :: stream))).conns i).log =
      (w.conns i).log ++ [.messageCallback] := by
  obtain ⟨n, hResult⟩ := receive_data (w.conns i) byte stream
  simp only [ConnectionLoop.handleRead, hResult, hMessage, if_true]
  simp [push, ConnectionLoop.setConn, record, receive]

/-- A stale step is visible in the history of the connection at once. -/
theorem notStale_of_lifecycleOk (w : ConnectionLoop ι) (label : ConnectionLabel ι)
    (w' : ConnectionLoop ι) (hInv : LifeWorld w) (hStep : step w label = some w')
    (hGood : ∀ i, LifecycleOk (w'.conns i)) : NotStale w label := by
  cases label with
  | proceed read write =>
      simp only [step, ConnectionLoop.proceed] at hStep
      simp only [NotStale]
      split
      · next i rest hStack =>
        intro hCloses hState
        simp only [hStack, hCloses, if_true, Option.some.injEq] at hStep
        obtain rfl := hStep
        refine not_lifecycleOk_of_close (handleClose_log _ i) ?_ (hGood i)
        rw [hState]
        rfl
      · next i rest hStack =>
        intro hReads hState
        simp only [hStack, hReads, if_true, Option.some.injEq] at hStep
        obtain rfl := hStep
        cases read with
        | error errno => trivial
        | data stream =>
            cases stream with
            | nil =>
                refine not_lifecycleOk_of_close (handleRead_eof_log _ i) ?_ (hGood i)
                rw [hState]
                rfl
            | cons byte stream =>
                rintro ⟨hMessage, hSet⟩
                -- The event is the whole stack, so no `HandleClose` is waiting.
                have hBottom := hInv.bottom
                rw [hStack] at hBottom
                obtain rfl : rest = [] := hBottom
                have hLife := hInv.life i
                rw [hStack] at hLife
                refine not_lifecycleOk_of_message (by simpa using hLife) hState hSet ?_ (hGood i)
                exact handleRead_data_log byte stream hMessage
      · trivial
  | _ => trivial

/-- The reported lives are right in all states of a run exactly when no step of the
run handles a stale event. -/
theorem lifecycleOk_iff_notStale (callbacks : ι → ConnCallbacks) (highWaterMark : ι → Nat)
    (labels : List (ConnectionLabel ι)) :
    (∀ pre w, pre <+: labels → exec step (new callbacks highWaterMark) pre = some w →
      ∀ i, LifecycleOk (w.conns i)) ↔
    Meets step NotStale (new callbacks highWaterMark) labels := by
  refine forall_prefix_iff_meets LifeWorld (fun w => ∀ i, LifecycleOk (w.conns i)) ?_ ?_
    step_lifeWorld notStale_of_lifecycleOk (new_lifeWorld callbacks highWaterMark) labels
  · intro w hInv i
    exact (hInv.life i).lifecycleOk
  · -- A step that handles an event is always possible.
    intro w label _ hStep
    cases label with
    | proceed read write =>
        simp only [step, ConnectionLoop.proceed] at hStep
        simp only [NotStale]
        split
        · next hStack => simp [hStack] at hStep
        · next hStack => simp [hStack] at hStep
        · trivial
    | _ => trivial

/-- Two connections of a server become readable together.  The message callback of
the first one closes the second one, of which user code holds a pointer. -/
def closeOtherInBatch : List (ConnectionLabel Bool) :=
  let step := ConnectionLabel.proceed (.error EAGAIN) (.error EAGAIN EAGAIN)
  let data := ConnectionLabel.proceed (.data [1]) (.error EAGAIN EAGAIN)
  [.enter, .newConnection false, .leave, .newConnection true, .hold true, .leave, .leave,
    .poll [(false, Channel.kReadEvent), (true, Channel.kReadEvent)],
    .dispatch, step, step, data, .forceClose true, step, .leave, .leave, step,
    .dispatch, step, step, data]

/-- The second connection delivers a message after it reported its disconnection. -/
theorem not_lifecycleOk_closeOtherInBatch :
    ∃ w, exec step (new (fun _ : Bool => ⟨true, true, false, false, .server⟩) fun _ => 65536)
        closeOtherInBatch = some w ∧
      (w.conns true).log = [.connectionCallback .kConnected, .handleClose .kConnected,
        .connectionCallback .kDisconnected, .messageCallback] ∧
      ¬ LifecycleOk (w.conns true) := by
  have hLog : (exec step
      (new (fun _ : Bool => ⟨true, true, false, false, .server⟩) fun _ => 65536)
      closeOtherInBatch).map (fun w => (w.conns true).log) =
      some [.connectionCallback .kConnected, .handleClose .kConnected,
        .connectionCallback .kDisconnected, .messageCallback] := by
    decide +kernel
  obtain ⟨w, hRun, hLog⟩ := Option.map_eq_some_iff.mp hLog
  refine ⟨w, hRun, hLog, fun hOk => ?_⟩
  have hQuiet := hOk.quiet
  rw [hLog] at hQuiet
  simp [Quiet] at hQuiet

end ConnectionLoop
end SolarNet
