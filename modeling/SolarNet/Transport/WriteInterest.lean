import SolarNet.Transport.ConnectionOutput

/-!
# Write interest and pending output

The functions that the loop runs on one connection, in any order: functors that any
thread queued at any earlier time, events, and the calls of the owner.

`SendInLoop` turns the write interest on when it leaves bytes in the output buffer,
`HandleWrite` turns it off when it finds the buffer empty.  The result of this file is
that a live connection has write interest exactly when its output buffer has readable
bytes, whatever the writes return.
-/

namespace SolarNet

open Lib

/-- What the loop executes on a connection. -/
inductive ConnLabel where
  | connectEstablished
  | sendInLoop (message : List Byte) (call : SysWrite)
  | shutdownInLoop
  | forceCloseInLoop
  | handleRead (call : SysRead)
  | handleWrite (call : SysWrite)
  | handleClose
  /-- `ConnectDestroyed` up to the return of the connection callback. -/
  | connectDestroyed
  /-- The end of `ConnectDestroyed`. -/
  | leavePoller
  deriving DecidableEq, Repr

namespace TcpConnection

def connStep (c : TcpConnection) : ConnLabel → Option TcpConnection
  -- The owner calls it once, on a connection that has done nothing yet.
  | .connectEstablished =>
      if c.state = .kConnecting then some c.connectEstablished else none
  | .sendInLoop message call => some (c.sendInLoop message call)
  -- `Shutdown` queues its functor when it sees `kConnected` or `kDisconnecting`.
  | .shutdownInLoop => if c.state = .kConnecting then none else some c.shutdownInLoop
  | .forceCloseInLoop => some c.forceCloseInLoop
  -- The channel is first registered by `ConnectEstablished`.
  | .handleRead call => if c.state = .kConnecting then none else some (c.handleRead call)
  | .handleWrite call => if c.state = .kConnecting then none else some (c.handleWrite call)
  | .handleClose => if c.state = .kConnecting then none else some c.handleClose
  | .connectDestroyed => some c.connectDestroyed
  | .leavePoller => some c.leavePoller

/-! ## The output side

What the functions do to the state, the write interest, the bytes and the number of
calls of `ShutdownWrite`, in terms of these alone. -/

/-- How often `ShutdownWrite` was called. -/
def shutdowns (c : TcpConnection) : Nat := c.log.count .shutdownWrite

structure OutputSide where
  state : ConnState
  writing : Bool
  buffered : List Byte
  sent : List Byte
  shutdowns : Nat

/-- The part of a connection that has to do with its output. -/
def outputSide (c : TcpConnection) : OutputSide where
  state := c.state
  writing := c.channel.isWriting
  buffered := c.outputBuffer.readable
  sent := c.sent
  shutdowns := c.shutdowns

namespace OutputSide

/-- Bytes that were not sent are buffered. -/
def buffer (o : OutputSide) (rest : List Byte) : OutputSide :=
  { o with writing := o.writing || !rest.isEmpty, buffered := o.buffered ++ rest }

def shutdown (o : OutputSide) : OutputSide :=
  { o with
    state := if o.state = .kConnected then .kDisconnecting else o.state
    shutdowns := o.shutdowns + if o.writing then 0 else 1 }

def close (o : OutputSide) : OutputSide :=
  { o with state := .kDisconnected, writing := false }

/-- The buffer has become empty. -/
def drain (o : OutputSide) : OutputSide :=
  if o.state = .kDisconnecting then { o with writing := false }.shutdown
  else { o with writing := false }

end OutputSide

theorem record_outputSide (c : TcpConnection) {event : ConnEvent}
    (hEvent : event ≠ .shutdownWrite) : (c.record event).outputSide = c.outputSide := by
  simp [outputSide, shutdowns, record, List.count_append, hEvent]

theorem report_outputSide (c : TcpConnection) : c.report.outputSide = c.outputSide := by
  unfold report
  split
  · exact record_outputSide c (by simp)
  · rfl

theorem queueWriteComplete_outputSide (c : TcpConnection) :
    c.queueWriteComplete.outputSide = c.outputSide := by
  unfold queueWriteComplete
  split
  · exact record_outputSide c (by simp)
  · rfl

theorem queueHighWaterMark_outputSide (c : TcpConnection) (oldLen newLen : Nat) :
    (c.queueHighWaterMark oldLen newLen).outputSide = c.outputSide := by
  unfold queueHighWaterMark
  split
  · exact record_outputSide c (by simp)
  · rfl

theorem wantWrite_outputSide (c : TcpConnection) :
    c.wantWrite.outputSide = { c.outputSide with writing := true } := by
  unfold wantWrite
  split
  · next hWriting => simp [outputSide, hWriting]
  · simp [outputSide, shutdowns]

theorem bufferRest_outputSide (c : TcpConnection) (rest : List Byte) :
    (c.bufferRest rest).outputSide = c.outputSide.buffer rest := by
  unfold bufferRest
  cases rest with
  | nil => simp [OutputSide.buffer]
  | cons byte rest =>
      rw [if_neg (by simp), wantWrite_outputSide, queueHighWaterMark_outputSide]
      simp [outputSide, shutdowns, OutputSide.buffer]

theorem handOver_outputSide (c : TcpConnection) (message : List Byte) (nwrote : Nat) :
    (c.handOver message nwrote).outputSide =
      { c.outputSide with sent := c.sent ++ message.take nwrote } := rfl

/-- `SendInLoop` of a `kConnected` connection: some bytes may be sent, and the rest is
buffered. -/
theorem sendInLoop_outputSide {c : TcpConnection} (hState : c.state = .kConnected)
    (message : List Byte) (call : SysWrite) :
    ∃ rest sent, (c.sendInLoop message call).outputSide =
      { c.outputSide with sent := sent }.buffer rest := by
  have hRest : ∀ nwrote rest, ((c.handOver message nwrote).bufferRest rest).outputSide =
      { c.outputSide with sent := c.sent ++ message.take nwrote }.buffer rest := by
    intro nwrote rest
    rw [bufferRest_outputSide, handOver_outputSide]
  unfold sendInLoop
  rw [if_neg (not_not.mpr hState)]
  split
  · cases call.result message.length with
    | error errno =>
        by_cases hFault : isFault errno call.logged = true
        · simp only [if_pos hFault]
          exact ⟨[], c.sent, by simp [outputSide, OutputSide.buffer]⟩
        · simp only [if_neg hFault]
          exact ⟨message, _, hRest 0 message⟩
    | ok nwrote =>
        by_cases hAll : message.length - nwrote = 0
        · simp only [if_pos hAll]
          refine ⟨message.drop nwrote, c.sent ++ message.take nwrote, ?_⟩
          rw [bufferRest_outputSide, queueWriteComplete_outputSide, handOver_outputSide]
        · simp only [if_neg hAll]
          exact ⟨message.drop nwrote, _, hRest nwrote _⟩
  · exact ⟨message, _, hRest 0 message⟩

theorem shutdownInLoop_outputSide (c : TcpConnection) :
    c.shutdownInLoop.outputSide = c.outputSide.shutdown := by
  unfold shutdownInLoop beginShutdown
  by_cases hWriting : c.channel.isWriting = true <;>
    by_cases hState : c.state = .kConnected <;>
      simp [outputSide, OutputSide.shutdown, shutdowns, record, hWriting, hState]

theorem handleClose_outputSide (c : TcpConnection) :
    c.handleClose.outputSide = c.outputSide.close := by
  unfold handleClose
  rw [report_outputSide]
  simp [outputSide, OutputSide.close, shutdowns, beginClose, record]

theorem handleRead_outputSide (c : TcpConnection) (call : SysRead) :
    (c.handleRead call).outputSide = c.outputSide ∨
      (c.handleRead call).outputSide = c.outputSide.close := by
  unfold handleRead
  split
  · exact Or.inl rfl
  · exact Or.inr (handleClose_outputSide _)
  · split
    · exact Or.inl (record_outputSide _ (by simp))
    · exact Or.inl rfl

theorem connectDestroyed_outputSide (c : TcpConnection) :
    c.connectDestroyed.outputSide =
      if c.state = .kConnected then c.outputSide.close else c.outputSide := by
  unfold connectDestroyed
  split
  · unfold beginDestroy
    rw [report_outputSide]
    simp [outputSide, OutputSide.close, shutdowns]
  · rfl

theorem leavePoller_outputSide (c : TcpConnection) :
    c.leavePoller.outputSide = c.outputSide := by
  unfold leavePoller
  split
  · rfl
  · simp [outputSide, shutdowns]

theorem connectEstablished_outputSide (c : TcpConnection) :
    c.connectEstablished.outputSide = { c.outputSide with state := .kConnected } := by
  unfold connectEstablished
  rw [report_outputSide]
  simp [outputSide, shutdowns]
  rfl

/-- The end of `HandleWrite` with an empty buffer. -/
theorem drained_outputSide (c : TcpConnection) : c.drained.outputSide = c.outputSide.drain := by
  have hQueued :
      ({ c with channel := c.channel.disableWriting }.queueWriteComplete).outputSide =
        { c.outputSide with writing := false } := by
    rw [queueWriteComplete_outputSide]
    simp [outputSide, shutdowns]
  have hState : ({ c with channel := c.channel.disableWriting }.queueWriteComplete).state =
      c.state := congrArg OutputSide.state hQueued
  have hSide : c.outputSide.state = c.state := rfl
  unfold drained shutdownIfDisconnecting OutputSide.drain
  rw [hState, hSide]
  by_cases hDisconnecting : c.state = .kDisconnecting
  · rw [if_pos hDisconnecting, if_pos hDisconnecting, shutdownInLoop_outputSide,
      record_outputSide _ (by simp), hQueued]
    rfl
  · rw [if_neg hDisconnecting, if_neg hDisconnecting, hQueued]
    rfl

theorem retrieveOutput_outputSide (c : TcpConnection) (n : Nat) :
    (c.retrieveOutput n).outputSide =
      if c.outputBuffer.readable.drop n = [] then
        { c.outputSide with buffered := [] }.drain
      else { c.outputSide with buffered := c.outputBuffer.readable.drop n } := by
  have hEmpty : (c.outputBuffer.retrieve n).readableBytes = 0 ↔
      c.outputBuffer.readable.drop n = [] := by
    rw [← CheckedBuffer.length_readable, CheckedBuffer.readable_retrieve,
      List.length_eq_zero_iff]
  unfold retrieveOutput
  by_cases hDrop : c.outputBuffer.readable.drop n = []
  · rw [if_pos (hEmpty.mpr hDrop), if_pos hDrop, drained_outputSide]
    simp [outputSide, shutdowns, hDrop]
  · rw [if_neg (fun hZero => hDrop (hEmpty.mp hZero)), if_neg hDrop]
    simp [outputSide, shutdowns]

/-- `HandleWrite` of a connection with write interest: it may send some bytes, and it
leaves bytes in the buffer or goes through its end with an empty one. -/
theorem handleWrite_outputSide {c : TcpConnection} (hWriting : c.channel.isWriting = true)
    (call : SysWrite) :
    (c.handleWrite call).outputSide = c.outputSide ∨
      ∃ rest sent, (c.handleWrite call).outputSide =
        if rest = [] then { c.outputSide with buffered := [], sent := sent }.drain
        else { c.outputSide with buffered := rest, sent := sent } := by
  cases hResult : call.result c.outputBuffer.readableBytes with
  | error errno =>
      left
      simp [handleWrite, hWriting, CheckedBuffer.writeFd_error hResult]
  | ok n =>
      by_cases hSome : 0 < n
      · right
        have hEq : c.handleWrite call =
            (c.wrote (c.outputBuffer.retrieve n) n).retrieveOutput n := by
          simp [handleWrite, hWriting, CheckedBuffer.writeFd_ok hResult, hSome]
        refine ⟨(c.outputBuffer.readable.drop n).drop n,
          c.sent ++ c.outputBuffer.readable.take n, ?_⟩
        rw [hEq, retrieveOutput_outputSide]
        simp only [wrote, CheckedBuffer.readable_retrieve]
        rfl
      · left
        obtain rfl : n = 0 := by omega
        simp [handleWrite, hWriting, CheckedBuffer.writeFd_ok hResult, wrote, outputSide,
          shutdowns]

theorem forceCloseInLoop_outputSide (c : TcpConnection) :
    c.forceCloseInLoop.outputSide =
      if c.state.live then c.outputSide.close else c.outputSide := by
  unfold forceCloseInLoop
  split
  · exact handleClose_outputSide c
  · rfl

/-! ## The moves of the output side

Said once: what a step of a connection can do to its output side, and when it writes to
the socket. -/

/-- The test by which `SendInLoop` writes to the socket. -/
def writesDirectly (c : TcpConnection) : Bool :=
  c.state == .kConnected && (!c.channel.isWriting && c.outputBuffer.readableBytes == 0)

theorem bufferRest_sent (c : TcpConnection) (rest : List Byte) :
    (c.bufferRest rest).sent = c.sent :=
  congrArg OutputSide.sent (bufferRest_outputSide c rest)

/-- Without the direct write, `SendInLoop` hands nothing to the kernel and asks nothing
of it. -/
theorem sendInLoop_of_not_writesDirectly {c : TcpConnection} (hDirect : ¬c.writesDirectly = true)
    (message : List Byte) (call : SysWrite) :
    (c.sendInLoop message call).sent = c.sent ∧
      ∀ call', c.sendInLoop message call' = c.sendInLoop message call := by
  by_cases hState : c.state = .kConnected
  · have hBusy : ¬(!c.channel.isWriting && c.outputBuffer.readableBytes == 0) = true := by
      simpa [writesDirectly, hState] using hDirect
    have hEq : ∀ call, c.sendInLoop message call = (c.handOver message 0).bufferRest message := by
      intro call
      rw [sendInLoop, if_neg (not_not.mpr hState), if_neg hBusy]
    refine ⟨?_, fun call' => by rw [hEq, hEq]⟩
    rw [hEq, bufferRest_sent]
    simp [handOver]
  · have hEq : ∀ call, c.sendInLoop message call = c := by
      intro call
      rw [sendInLoop, if_pos hState]
    exact ⟨by rw [hEq], fun call' => by rw [hEq, hEq]⟩

/-- Whether a step calls `::write` on the socket. -/
def performsWrite (c : TcpConnection) : ConnLabel → Bool
  | .sendInLoop _ _ => c.writesDirectly
  | .handleWrite _ => c.channel.isWriting
  | _ => false

/-- A step may change the bytes sent only when it writes. -/
inductive OutputMove (writes : Bool) (o : OutputSide) : OutputSide → Prop where
  | same : OutputMove writes o o
  | establish (hState : o.state = .kConnecting) :
      OutputMove writes o { o with state := .kConnected }
  | buffer (hState : o.state = .kConnected) (rest sent : List Byte)
      (hSent : writes = false → sent = o.sent) :
      OutputMove writes o ({ o with sent := sent }.buffer rest)
  | shutdown (hState : o.state ≠ .kConnecting) : OutputMove writes o o.shutdown
  | close : OutputMove writes o o.close
  | partlyWritten (hWrites : writes = true) (hWriting : o.writing = true)
      (rest sent : List Byte) (hRest : rest ≠ []) :
      OutputMove writes o { o with buffered := rest, sent := sent }
  | drain (hWrites : writes = true) (hWriting : o.writing = true) (sent : List Byte) :
      OutputMove writes o { o with buffered := [], sent := sent }.drain

theorem OutputMove.of_eq {writes : Bool} {o o' : OutputSide} (hEq : o' = o) :
    OutputMove writes o o' := by
  rw [hEq]
  exact .same

theorem sendInLoop_move (c : TcpConnection) (message : List Byte) (call : SysWrite) :
    OutputMove c.writesDirectly c.outputSide (c.sendInLoop message call).outputSide := by
  by_cases hState : c.state = .kConnected
  · obtain ⟨rest, sent, hEq⟩ := sendInLoop_outputSide hState message call
    rw [hEq]
    refine .buffer hState rest sent fun hDirect => ?_
    have hIndirect : ¬c.writesDirectly = true := by simp [hDirect]
    have hSent := (sendInLoop_of_not_writesDirectly hIndirect message call).1
    have hSide : (c.sendInLoop message call).sent = sent := congrArg OutputSide.sent hEq
    exact hSide.symm.trans hSent
  · exact .of_eq (by rw [sendInLoop, if_pos hState])

theorem handleWrite_move (c : TcpConnection) (call : SysWrite) :
    OutputMove c.channel.isWriting c.outputSide (c.handleWrite call).outputSide := by
  by_cases hWriting : c.channel.isWriting = true
  · obtain hSame | ⟨rest, sent, hEq⟩ := handleWrite_outputSide hWriting call
    · exact .of_eq hSame
    · rw [hEq]
      split
      · exact .drain hWriting hWriting sent
      · next hRest => exact .partlyWritten hWriting hWriting rest sent hRest
  · exact .of_eq (by simp [handleWrite, hWriting])

theorem connStep_move {c c' : TcpConnection} {label : ConnLabel}
    (hStep : c.connStep label = some c') :
    OutputMove (c.performsWrite label) c.outputSide c'.outputSide := by
  cases label with
  | connectEstablished =>
      simp only [connStep, Option.ite_none_right_eq_some, Option.some.injEq] at hStep
      obtain ⟨hState, rfl⟩ := hStep
      rw [connectEstablished_outputSide]
      exact .establish hState
  | sendInLoop message call =>
      obtain rfl : c.sendInLoop message call = c' := by simpa [connStep] using hStep
      exact sendInLoop_move c message call
  | shutdownInLoop =>
      simp only [connStep, Option.ite_none_left_eq_some, Option.some.injEq] at hStep
      obtain ⟨hState, rfl⟩ := hStep
      rw [shutdownInLoop_outputSide]
      exact .shutdown hState
  | forceCloseInLoop =>
      obtain rfl : c.forceCloseInLoop = c' := by simpa [connStep] using hStep
      rw [forceCloseInLoop_outputSide]
      split
      · exact .close
      · exact .same
  | handleRead call =>
      simp only [connStep, Option.ite_none_left_eq_some, Option.some.injEq] at hStep
      obtain ⟨-, rfl⟩ := hStep
      rcases handleRead_outputSide c call with hSame | hClosed
      · exact .of_eq hSame
      · rw [hClosed]
        exact .close
  | handleWrite call =>
      simp only [connStep, Option.ite_none_left_eq_some, Option.some.injEq] at hStep
      obtain ⟨-, rfl⟩ := hStep
      exact handleWrite_move c call
  | handleClose =>
      simp only [connStep, Option.ite_none_left_eq_some, Option.some.injEq] at hStep
      obtain ⟨-, rfl⟩ := hStep
      rw [handleClose_outputSide]
      exact .close
  | connectDestroyed =>
      obtain rfl : c.connectDestroyed = c' := by simpa [connStep] using hStep
      rw [connectDestroyed_outputSide]
      split
      · exact .close
      · exact .same
  | leavePoller =>
      obtain rfl : c.leavePoller = c' := by simpa [connStep] using hStep
      exact .of_eq (leavePoller_outputSide c)

/-! ## The invariant -/

namespace OutputSide

/-- Write interest stands for buffered bytes while the connection is live, and only
then; a connection whose `ShutdownWrite` was called waits for no further output. -/
structure Mirrors (o : OutputSide) : Prop where
  live : o.state.live = true → (o.writing = true ↔ o.buffered ≠ [])
  fresh : o.state = .kConnecting → o.writing = false ∧ o.buffered = []
  closed : o.state = .kDisconnected → o.writing = false
  shut : 0 < o.shutdowns → o.writing = false ∧ o.state ≠ .kConnecting ∧ o.state ≠ .kConnected

/-- Only a live connection has write interest. -/
theorem Mirrors.live_of_writing {o : OutputSide} (hInv : o.Mirrors)
    (hWriting : o.writing = true) : o.state.live = true := by
  refine ConnState.live_of_ne (fun hFresh => ?_) (fun hClosed => ?_)
  · simp [(hInv.fresh hFresh).1] at hWriting
  · simp [hInv.closed hClosed] at hWriting

/-- `ShutdownWrite` was not called while there is write interest. -/
theorem Mirrors.not_shut_of_writing {o : OutputSide} (hInv : o.Mirrors)
    (hWriting : o.writing = true) : o.shutdowns = 0 := by
  by_contra hShut
  have hOff := (hInv.shut (Nat.pos_of_ne_zero hShut)).1
  simp [hOff] at hWriting

theorem Mirrors.not_shut_of_open {o : OutputSide} (hInv : o.Mirrors)
    (hOpen : o.state = .kConnecting ∨ o.state = .kConnected) : o.shutdowns = 0 := by
  by_contra hShut
  obtain ⟨-, hFresh, hConnected⟩ := hInv.shut (Nat.pos_of_ne_zero hShut)
  exact hOpen.elim hFresh hConnected

/-- Other bytes may have been sent. -/
theorem Mirrors.withSent {o : OutputSide} (hInv : o.Mirrors) (sent : List Byte) :
    { o with sent := sent }.Mirrors :=
  ⟨hInv.live, hInv.fresh, hInv.closed, hInv.shut⟩

theorem Mirrors.establish {o : OutputSide} (hInv : o.Mirrors)
    (hState : o.state = .kConnecting) : { o with state := .kConnected }.Mirrors where
  live _ := by simp [hInv.fresh hState]
  fresh := nofun
  closed := nofun
  shut hShut := by
    have hNone : o.shutdowns = 0 := hInv.not_shut_of_open (Or.inl hState)
    change 0 < o.shutdowns at hShut
    omega

theorem Mirrors.buffer {o : OutputSide} (hInv : o.Mirrors) (hState : o.state = .kConnected)
    (rest : List Byte) : (o.buffer rest).Mirrors where
  live _ := by
    have hLive := hInv.live (by simp [hState, ConnState.live])
    cases rest with
    | nil => simpa [OutputSide.buffer] using hLive
    | cons byte rest => simp [OutputSide.buffer]
  fresh hFresh := by simp [OutputSide.buffer, hState] at hFresh
  closed hClosed := by simp [OutputSide.buffer, hState] at hClosed
  shut hShut := by
    have hNone : o.shutdowns = 0 := hInv.not_shut_of_open (Or.inr hState)
    change 0 < o.shutdowns at hShut
    omega

theorem close_mirrors (o : OutputSide) : o.close.Mirrors where
  live hLive := by simp [OutputSide.close, ConnState.live] at hLive
  fresh := nofun
  closed _ := rfl
  shut _ := ⟨rfl, nofun, nofun⟩

theorem shutdown_state_ne (o : OutputSide) : o.shutdown.state ≠ .kConnected := by
  unfold OutputSide.shutdown
  by_cases hState : o.state = .kConnected <;> simp [hState]

theorem shutdown_live {o : OutputSide} (hLive : o.shutdown.state.live = true) :
    o.state.live = true := by
  unfold OutputSide.shutdown at hLive
  by_cases hState : o.state = .kConnected
  · simp [hState, ConnState.live]
  · simpa [hState] using hLive

theorem shutdown_state_eq {o : OutputSide} {state : ConnState}
    (hState : o.shutdown.state = state) (hOther : state ≠ .kDisconnecting) :
    o.state = state := by
  unfold OutputSide.shutdown at hState
  by_cases hConnected : o.state = .kConnected
  · simp only [hConnected, if_true] at hState
    exact absurd hState.symm hOther
  · simpa [hConnected] using hState

/-- `ShutdownInLoop` calls `ShutdownWrite` only without write interest. -/
theorem Mirrors.shutdown {o : OutputSide} (hInv : o.Mirrors)
    (hState : o.state ≠ .kConnecting) : o.shutdown.Mirrors where
  live hLive := hInv.live (shutdown_live hLive)
  fresh hFresh := absurd (shutdown_state_eq hFresh nofun) hState
  closed hClosed := hInv.closed (shutdown_state_eq hClosed nofun)
  shut hShut := by
    refine ⟨?_, fun hFresh => hState (shutdown_state_eq hFresh nofun), shutdown_state_ne o⟩
    change o.writing = false
    by_contra hOn
    have hWriting : o.writing = true := by simpa using hOn
    have hNone : o.shutdowns = 0 := hInv.not_shut_of_writing hWriting
    simp [OutputSide.shutdown, hNone, hWriting] at hShut

/-- The end of `HandleWrite` finds write interest and an empty buffer. -/
theorem Mirrors.drain {o : OutputSide} (hInv : o.Mirrors) (hWriting : o.writing = true)
    (sent : List Byte) : { o with buffered := [], sent := sent }.drain.Mirrors := by
  have hLive : o.state.live = true := hInv.live_of_writing hWriting
  have hNone : o.shutdowns = 0 := hInv.not_shut_of_writing hWriting
  have hStarted : o.state ≠ .kConnecting := by
    intro hFresh
    simp [hFresh, ConnState.live] at hLive
  have hIdle : { o with writing := false, buffered := [], sent := sent }.Mirrors :=
    ⟨fun _ => by simp, fun hFresh => absurd hFresh hStarted, fun _ => rfl,
      fun hShut => absurd hNone (Nat.pos_iff_ne_zero.mp hShut)⟩
  unfold OutputSide.drain
  split
  · exact hIdle.shutdown hStarted
  · exact hIdle

theorem Mirrors.partlyWritten {o : OutputSide} (hInv : o.Mirrors) (hWriting : o.writing = true)
    {rest : List Byte} (hRest : rest ≠ []) (sent : List Byte) :
    { o with buffered := rest, sent := sent }.Mirrors where
  live _ := by simp [hWriting, hRest]
  fresh hFresh := by simp [(hInv.fresh hFresh).1] at hWriting
  closed := hInv.closed
  shut := hInv.shut

end OutputSide

theorem new_mirrors (callbacks : ConnCallbacks) (highWaterMark : Nat) :
    (new callbacks highWaterMark).outputSide.Mirrors where
  live hLive := by simp [outputSide, new, ConnState.live] at hLive
  fresh _ := ⟨rfl, CheckedBuffer.readable_new Buffer.kInitialSize⟩
  closed := nofun
  shut hShut := by simp [outputSide, shutdowns, new] at hShut

theorem OutputMove.mirrors {writes : Bool} {o o' : OutputSide} (hMove : OutputMove writes o o')
    (hInv : o.Mirrors) : o'.Mirrors := by
  cases hMove with
  | same => exact hInv
  | establish hState => exact hInv.establish hState
  | buffer hState rest sent _ => exact (hInv.withSent sent).buffer hState rest
  | shutdown hState => exact hInv.shutdown hState
  | close => exact OutputSide.close_mirrors o
  | partlyWritten _ hWriting rest sent hRest => exact hInv.partlyWritten hWriting hRest sent
  | drain _ hWriting sent => exact hInv.drain hWriting sent

/-- Every state of every run of a connection. -/
theorem connRun_mirrors {callbacks : ConnCallbacks} {highWaterMark : Nat}
    {labels : List ConnLabel} {c : TcpConnection}
    (hRun : exec connStep (new callbacks highWaterMark) labels = some c) :
    c.outputSide.Mirrors :=
  exec_invariant (fun c => c.outputSide.Mirrors)
    (fun _ _ _ hInv hStep => (connStep_move hStep).mirrors hInv)
    (new_mirrors callbacks highWaterMark) hRun

/-- In every run of a connection, whatever the writes return: while the connection is
live it has write interest exactly when output is pending, and `SendInLoop` writes to
the socket itself exactly when none is, so that no message overtakes earlier bytes. -/
theorem writeInterest_iff_pending (callbacks : ConnCallbacks) (highWaterMark : Nat)
    (labels : List ConnLabel) (c : TcpConnection)
    (hRun : exec connStep (new callbacks highWaterMark) labels = some c)
    (hLive : c.state = .kConnected ∨ c.state = .kDisconnecting) :
    (c.channel.isWriting = true ↔ 0 < c.outputBuffer.readableBytes) ∧
      (c.state = .kConnected → (c.writesDirectly = true ↔ c.outputBuffer.readableBytes = 0)) ∧
      (0 < c.outputBuffer.readableBytes → ∀ message call,
        (c.sendInLoop message call).sent = c.sent) := by
  have hMirrors := (connRun_mirrors hRun).live (ConnState.live_iff.mpr hLive)
  have hPending : c.outputSide.buffered ≠ [] ↔ 0 < c.outputBuffer.readableBytes := by
    rw [← CheckedBuffer.length_readable, List.length_pos_iff]
    rfl
  have hWriting : c.channel.isWriting = true ↔ 0 < c.outputBuffer.readableBytes :=
    hMirrors.trans hPending
  refine ⟨hWriting, fun hState => ?_, fun hBytes message call => ?_⟩
  · cases hOn : c.channel.isWriting with
    | true =>
        have hBytes := hWriting.mp hOn
        simp [writesDirectly, hOn]
        omega
    | false => simp [writesDirectly, hOn, hState]
  · refine (sendInLoop_of_not_writesDirectly ?_ message call).1
    simp [writesDirectly, hWriting.mpr hBytes]

/-- A message of three bytes of which the socket takes one, and a `Shutdown`. -/
theorem writeInterest_iff_pending_partialSend :
    ∃ c, exec connStep (new ⟨true, true, true, true, .server⟩ 65536)
        [.connectEstablished, .sendInLoop [7, 8, 9] (.room 1), .shutdownInLoop] = some c ∧
      c.state = .kDisconnecting ∧ c.outputBuffer.readable = [8, 9] ∧
      (c.channel.isWriting = true ↔ 0 < c.outputBuffer.readableBytes) := by
  refine ⟨_, rfl, by decide +kernel, by decide +kernel, ?_⟩
  exact (writeInterest_iff_pending ⟨true, true, true, true, .server⟩ 65536
    [.connectEstablished, .sendInLoop [7, 8, 9] (.room 1), .shutdownInLoop] _ rfl
    (Or.inr (by decide +kernel))).1

end TcpConnection
end SolarNet
