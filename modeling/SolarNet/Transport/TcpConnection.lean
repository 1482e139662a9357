import SolarNet.Base.BufferSpec
import SolarNet.Net.Channel

/-!
# `TcpConnection`

The functions of `solar_net/net/transport/tcp_connection.cpp` that run on the
loop thread of the connection.  A system call takes its outcome from an argument
(`SysRead`, `SysWrite`).

A callback that the source queues with `QueueInLoop` runs later, so queueing it
is recorded in the history of the connection.  A callback that the source calls
in place may do anything, also with this connection: such a function is cut at
the call, and the caller puts the parts together.  `HandleClose` is `beginClose`,
the close callback, and `report`; `ConnectDestroyed` is `beginDestroy`, the
connection callback, and `leavePoller`; `HandleRead` is `receive` and what
follows from its result.
-/

namespace SolarNet

/-- `TcpConnection::State`. -/
inductive ConnState where
  | kConnecting
  | kConnected
  | kDisconnecting
  | kDisconnected
  deriving DecidableEq, Repr

/-- `kConnected` or `kDisconnecting`. -/
def ConnState.live : ConnState → Bool
  | .kConnected | .kDisconnecting => true
  | _ => false

/-- The two tests of `ForceClose`. -/
theorem ConnState.live_iff {state : ConnState} :
    state.live = true ↔ state = .kConnected ∨ state = .kDisconnecting := by
  cases state <;> simp [ConnState.live]

theorem ConnState.live_of_ne {state : ConnState} (hStarted : state ≠ .kConnecting)
    (hOpen : state ≠ .kDisconnected) : state.live = true := by
  cases state with
  | kConnecting => exact absurd rfl hStarted
  | kDisconnected => exact absurd rfl hOpen
  | kConnected => rfl
  | kDisconnecting => rfl

theorem ConnState.ne_connecting_of_live {state : ConnState} (hLive : state.live = true) :
    state ≠ .kConnecting := by
  rintro rfl
  cases hLive

theorem ConnState.closed_of_not_live {state : ConnState} (hStarted : state ≠ .kConnecting)
    (hLive : ¬state.live = true) : state = .kDisconnected := by
  by_contra hOpen
  exact hLive (ConnState.live_of_ne hStarted hOpen)

/-- Who is behind `m_close_callback`: nobody, `TcpServer::RemoveConnection`, or
user code. -/
inductive CloseCallback where
  | unset
  | server
  | user
  deriving DecidableEq, Repr

/-- Which callbacks are set. -/
structure ConnCallbacks where
  connection : Bool
  message : Bool
  writeComplete : Bool
  highWaterMark : Bool
  close : CloseCallback
  deriving DecidableEq, Repr

/-- What a connection did, in order.  The write-complete callback and the
shutdown that follows a drained buffer are recorded with the bytes handed to the
kernel and the bytes accepted at that moment. -/
inductive ConnEvent where
  | connectionCallback (state : ConnState)
  | messageCallback
  /-- The body of `HandleClose` begins; the state is what its assertion tests. -/
  | handleClose (state : ConnState)
  | writeCompleteQueued (sent accepted : List Byte)
  | highWaterMarkQueued (size : Nat)
  | deferredShutdown (sent accepted : List Byte)
  | shutdownWrite
  deriving DecidableEq, Repr

/-- The state of a connection, and its history: the bytes handed to the kernel,
the bytes of the accepted messages, and the events. -/
structure TcpConnection where
  state : ConnState
  channel : Channel
  inputBuffer : CheckedBuffer
  outputBuffer : CheckedBuffer
  highWaterMark : Nat
  callbacks : ConnCallbacks
  sent : List Byte
  accepted : List Byte
  log : List ConnEvent
  deriving DecidableEq, Repr

/-- `EAGAIN` and `EWOULDBLOCK`, which are the same number on Linux. -/
def EAGAIN : Errno := 11

def EPIPE : Errno := 32

def ECONNRESET : Errno := 104

namespace TcpConnection

/-- The constructor and the setters that run before `ConnectEstablished`. -/
def new (callbacks : ConnCallbacks) (highWaterMark : Nat) : TcpConnection where
  state := .kConnecting
  channel := Channel.new
  inputBuffer := CheckedBuffer.new Buffer.kInitialSize
  outputBuffer := CheckedBuffer.new Buffer.kInitialSize
  highWaterMark := highWaterMark
  callbacks := callbacks
  sent := []
  accepted := []
  log := []

def record (c : TcpConnection) (event : ConnEvent) : TcpConnection :=
  { c with log := c.log ++ [event] }

/-- Call `m_connection_callback`, if it is set. -/
def report (c : TcpConnection) : TcpConnection :=
  if c.callbacks.connection then c.record (.connectionCallback c.state) else c

/-- Queue `m_write_complete_callback`, if it is set. -/
def queueWriteComplete (c : TcpConnection) : TcpConnection :=
  if c.callbacks.writeComplete then c.record (.writeCompleteQueued c.sent c.accepted) else c

/-! ## Output -/

/-- Whether the errors of the direct write in `SendInLoop` set `fault`.  The second test reads
`errno` again, after `LOG_ERROR`. -/
def isFault (errno logged : Errno) : Bool :=
  errno != EAGAIN && (logged == EPIPE || logged == ECONNRESET)

/-- Queue `m_high_water_mark_callback`, if it is set and the mark is crossed. -/
def queueHighWaterMark (c : TcpConnection) (oldLen newLen : Nat) : TcpConnection :=
  if oldLen < c.highWaterMark ∧ newLen ≥ c.highWaterMark ∧ c.callbacks.highWaterMark = true then
    c.record (.highWaterMarkQueued newLen)
  else c

/-- Turn on the write interest, unless it is on. -/
def wantWrite (c : TcpConnection) : TcpConnection :=
  if c.channel.isWriting then c else { c with channel := c.channel.enableWriting }

/-- The end of `SendInLoop`: buffer what the direct write did not take. -/
def bufferRest (c : TcpConnection) (rest : List Byte) : TcpConnection :=
  if rest.length = 0 then c
  else
    let oldLen := c.outputBuffer.readableBytes
    let newLen := oldLen + rest.length
    ({ c with outputBuffer := c.outputBuffer.append rest }.queueHighWaterMark
      oldLen newLen).wantWrite

/-- The direct write of `SendInLoop` took `nwrote` bytes of an accepted message. -/
def handOver (c : TcpConnection) (message : List Byte) (nwrote : Nat) : TcpConnection :=
  { c with
    sent := c.sent ++ message.take nwrote
    accepted := c.accepted ++ message }

/-- `SendInLoop`.  A message is accepted unless the state is not `kConnected` or
the direct write fails with a fault. -/
def sendInLoop (c : TcpConnection) (message : List Byte) (call : SysWrite) :
    TcpConnection :=
  if c.state ≠ .kConnected then c
  else if !c.channel.isWriting && c.outputBuffer.readableBytes == 0 then
    match call.result message.length with
    | .ok nwrote =>
        let remaining := message.length - nwrote
        if remaining = 0 then
          (c.handOver message nwrote).queueWriteComplete.bufferRest (message.drop nwrote)
        else (c.handOver message nwrote).bufferRest (message.drop nwrote)
    | .error errno =>
        if isFault errno call.logged then c else (c.handOver message 0).bufferRest message
  else (c.handOver message 0).bufferRest message

/-- The change of state in `ShutdownInLoop`. -/
def beginShutdown (c : TcpConnection) : TcpConnection :=
  if c.state = .kConnected then { c with state := .kDisconnecting } else c

def shutdownInLoop (c : TcpConnection) : TcpConnection :=
  if c.channel.isWriting then c.beginShutdown else c.beginShutdown.record .shutdownWrite

/-- `Shutdown`, called on the loop thread. -/
def shutdown (c : TcpConnection) : TcpConnection :=
  if c.state.live then c.shutdownInLoop else c

/-- The shutdown that `HandleWrite` makes up for when a `Shutdown` came earlier. -/
def shutdownIfDisconnecting (c : TcpConnection) : TcpConnection :=
  if c.state = .kDisconnecting then
    (c.record (.deferredShutdown c.sent c.accepted)).shutdownInLoop
  else c

/-- What `HandleWrite` does when its buffer is empty. -/
def drained (c : TcpConnection) : TcpConnection :=
  { c with channel := c.channel.disableWriting }.queueWriteComplete.shutdownIfDisconnecting

/-- `WriteFd` handed `n` bytes to the kernel and left `buffer`. -/
def wrote (c : TcpConnection) (buffer : CheckedBuffer) (n : Nat) : TcpConnection :=
  { c with
    outputBuffer := buffer
    sent := c.sent ++ c.outputBuffer.readable.take n }

/-- `HandleWrite` after a successful write. -/
def retrieveOutput (c : TcpConnection) (n : Nat) : TcpConnection :=
  if (c.outputBuffer.retrieve n).readableBytes = 0 then
    { c with outputBuffer := c.outputBuffer.retrieve n }.drained
  else { c with outputBuffer := c.outputBuffer.retrieve n }

/-- `HandleWrite`.  `WriteFd` has retrieved the `n` bytes that the kernel took
when `HandleWrite` retrieves `n` bytes. -/
def handleWrite (c : TcpConnection) (call : SysWrite) : TcpConnection :=
  if !c.channel.isWriting then c
  else
    match c.outputBuffer.writeFd call with
    | (_, .error _) => c
    | (buffer, .ok n) =>
        if 0 < n then (c.wrote buffer n).retrieveOutput n else c.wrote buffer n

/-! ## Lifecycle -/

/-- `ConnectEstablished`, with the call of the connection callback at its end. -/
def connectEstablished (c : TcpConnection) : TcpConnection :=
  { c with
    state := .kConnected
    channel := c.channel.setTie.enableReading }.report

/-- `HandleClose` up to the close callback. -/
def beginClose (c : TcpConnection) : TcpConnection :=
  let c := c.record (.handleClose c.state)
  { c with state := .kDisconnected, channel := c.channel.disableAll }

/-- `ConnectDestroyed` of a `kConnected` connection, up to and with the call of the
connection callback. -/
def beginDestroy (c : TcpConnection) : TcpConnection :=
  { c with state := .kDisconnected, channel := c.channel.disableAll }.report

/-- The end of `ConnectDestroyed`. -/
def leavePoller (c : TcpConnection) : TcpConnection :=
  if c.channel.index = .kNew then c else { c with channel := c.channel.removeChannel }

/-- `HandleRead` up to the test of `n`. -/
def receive (c : TcpConnection) (call : SysRead) : TcpConnection × Except Errno Nat :=
  ({ c with inputBuffer := (c.inputBuffer.readFd call).1 }, (c.inputBuffer.readFd call).2)

/-! The same functions in one piece, for what does not depend on the callbacks: what a
callback does to this connection are further steps. -/

/-- `HandleClose`. -/
def handleClose (c : TcpConnection) : TcpConnection := c.beginClose.report

/-- `ForceCloseInLoop`. -/
def forceCloseInLoop (c : TcpConnection) : TcpConnection :=
  if c.state.live then c.handleClose else c

/-- `HandleRead`. -/
def handleRead (c : TcpConnection) (call : SysRead) : TcpConnection :=
  match (c.receive call).2 with
  | .error _ => (c.receive call).1
  | .ok 0 => (c.receive call).1.handleClose
  | .ok (_ + 1) =>
      if c.callbacks.message then (c.receive call).1.record .messageCallback
      else (c.receive call).1

/-- `ConnectDestroyed` without its end. -/
def connectDestroyed (c : TcpConnection) : TcpConnection :=
  if c.state = .kConnected then c.beginDestroy else c

end TcpConnection

/-! ## What a report and a close leave alone -/

namespace TcpConnection

@[simp] theorem report_state (c : TcpConnection) : c.report.state = c.state := by
  unfold report
  split <;> rfl

@[simp] theorem report_inputBuffer (c : TcpConnection) : c.report.inputBuffer = c.inputBuffer := by
  unfold report
  split <;> rfl

@[simp] theorem report_callbacks (c : TcpConnection) : c.report.callbacks = c.callbacks := by
  unfold report
  split <;> rfl

@[simp] theorem report_channel (c : TcpConnection) : c.report.channel = c.channel := by
  unfold report
  split <;> rfl

@[simp] theorem report_accepted (c : TcpConnection) : c.report.accepted = c.accepted := by
  unfold report
  split <;> rfl

@[simp] theorem handleClose_state (c : TcpConnection) : c.handleClose.state = .kDisconnected := by
  simp [handleClose, beginClose]

@[simp] theorem handleClose_inputBuffer (c : TcpConnection) :
    c.handleClose.inputBuffer = c.inputBuffer := by
  simp [handleClose, beginClose, record]

@[simp] theorem handleClose_callbacks (c : TcpConnection) :
    c.handleClose.callbacks = c.callbacks := by
  simp [handleClose, beginClose, record]

@[simp] theorem handleClose_accepted (c : TcpConnection) :
    c.handleClose.accepted = c.accepted := by
  simp [handleClose, beginClose, record]

theorem connectDestroyed_state (c : TcpConnection) :
    c.connectDestroyed.state = if c.state = .kConnected then .kDisconnected else c.state := by
  unfold connectDestroyed beginDestroy
  split
  · exact report_state _
  · rfl

theorem leavePoller_state (c : TcpConnection) : c.leavePoller.state = c.state := by
  unfold leavePoller
  split <;> rfl

end TcpConnection

/-! ## What the output functions leave alone -/

/-- The events by which the owner and the user learn about the life of the
connection. -/
def ConnEvent.lifecycle : ConnEvent → Bool
  | .connectionCallback _ | .messageCallback | .handleClose _ => true
  | _ => false

namespace TcpConnection

/-- `c'` comes from `c` by output functions: they add no event of the lifecycle,
and they change the state only from `kConnected` to `kDisconnecting`. -/
structure OnlyOutput (c c' : TcpConnection) : Prop where
  callbacks_eq : c'.callbacks = c.callbacks
  state_eq : c'.state = c.state ∨ c.state = .kConnected ∧ c'.state = .kDisconnecting
  log_eq : ∃ notes, c'.log = c.log ++ notes ∧ ∀ event ∈ notes, event.lifecycle = false

namespace OnlyOutput

/-- No event is added and the state is kept. -/
theorem of_same {c c' : TcpConnection} (hCallbacks : c'.callbacks = c.callbacks)
    (hState : c'.state = c.state) (hLog : c'.log = c.log) : OnlyOutput c c' :=
  ⟨hCallbacks, Or.inl hState, [], by simp [hLog], by simp⟩

theorem refl (c : TcpConnection) : OnlyOutput c c := of_same rfl rfl rfl

theorem trans {c c' c'' : TcpConnection} (hFirst : OnlyOutput c c')
    (hSecond : OnlyOutput c' c'') : OnlyOutput c c'' := by
  obtain ⟨hCallbacks, hState, notes, hLog, hNotes⟩ := hFirst
  obtain ⟨hCallbacks', hState', notes', hLog', hNotes'⟩ := hSecond
  refine ⟨hCallbacks'.trans hCallbacks, ?_, notes ++ notes', ?_, ?_⟩
  · rcases hState with hState | ⟨hConnected, hState⟩
    · rw [hState] at hState'
      exact hState'
    · rcases hState' with hState' | ⟨hAgain, -⟩
      · exact Or.inr ⟨hConnected, hState'.trans hState⟩
      · rw [hState] at hAgain
        cases hAgain
  · rw [hLog', hLog, List.append_assoc]
  · intro event hEvent
    rcases List.mem_append.mp hEvent with hOld | hNew
    · exact hNotes event hOld
    · exact hNotes' event hNew

theorem record (c : TcpConnection) {event : ConnEvent} (hEvent : event.lifecycle = false) :
    OnlyOutput c (c.record event) :=
  ⟨rfl, Or.inl rfl, [event], rfl, by simpa using hEvent⟩

theorem queueWriteComplete (c : TcpConnection) : OnlyOutput c c.queueWriteComplete := by
  unfold TcpConnection.queueWriteComplete
  split
  · exact record c rfl
  · exact refl c

theorem bufferRest (c : TcpConnection) (rest : List Byte) :
    OnlyOutput c (c.bufferRest rest) := by
  unfold TcpConnection.bufferRest
  split
  · exact refl c
  · have hQueue : ∀ (c : TcpConnection) (oldLen newLen : Nat),
        OnlyOutput c (c.queueHighWaterMark oldLen newLen) := by
      intro c oldLen newLen
      unfold queueHighWaterMark
      split
      · exact record c rfl
      · exact refl c
    have hWant : ∀ c : TcpConnection, OnlyOutput c c.wantWrite := by
      intro c
      unfold wantWrite
      split
      · exact refl c
      · exact of_same rfl rfl rfl
    have hAppend : OnlyOutput c { c with outputBuffer := c.outputBuffer.append rest } :=
      of_same rfl rfl rfl
    exact hAppend.trans ((hQueue _ _ _).trans (hWant _))

theorem sendInLoop (c : TcpConnection) (message : List Byte) (call : SysWrite) :
    OnlyOutput c (c.sendInLoop message call) := by
  have hHandOver : ∀ nwrote, OnlyOutput c (c.handOver message nwrote) :=
    fun nwrote => of_same rfl rfl rfl
  unfold TcpConnection.sendInLoop
  split
  · exact refl c
  · split
    · cases call.result message.length with
      | ok nwrote =>
          show OnlyOutput c (if message.length - nwrote = 0 then _ else _)
          split
          · exact ((hHandOver nwrote).trans (queueWriteComplete _)).trans (bufferRest _ _)
          · exact (hHandOver nwrote).trans (bufferRest _ _)
      | error errno =>
          show OnlyOutput c (if isFault errno call.logged = true then _ else _)
          split
          · exact refl c
          · exact (hHandOver 0).trans (bufferRest _ _)
    · exact (hHandOver 0).trans (bufferRest _ _)

theorem shutdownInLoop (c : TcpConnection) : OnlyOutput c c.shutdownInLoop := by
  have hBegin : OnlyOutput c c.beginShutdown := by
    unfold beginShutdown
    split
    · next hConnected => exact ⟨rfl, Or.inr ⟨hConnected, rfl⟩, [], by simp, by simp⟩
    · exact refl c
  unfold TcpConnection.shutdownInLoop
  split
  · exact hBegin
  · exact hBegin.trans (record _ rfl)

theorem shutdown (c : TcpConnection) : OnlyOutput c c.shutdown := by
  unfold TcpConnection.shutdown
  split
  · exact shutdownInLoop c
  · exact refl c

theorem drained (c : TcpConnection) : OnlyOutput c c.drained := by
  have hDeferred : ∀ c : TcpConnection, OnlyOutput c c.shutdownIfDisconnecting := by
    intro c
    unfold shutdownIfDisconnecting
    split
    · exact (record c rfl).trans (shutdownInLoop _)
    · exact refl c
  have hDisable : OnlyOutput c { c with channel := c.channel.disableWriting } :=
    of_same rfl rfl rfl
  exact hDisable.trans ((queueWriteComplete _).trans (hDeferred _))

theorem handleWrite (c : TcpConnection) (call : SysWrite) :
    OnlyOutput c (c.handleWrite call) := by
  have hRetrieve : ∀ (c : TcpConnection) (n : Nat), OnlyOutput c (c.retrieveOutput n) := by
    intro c n
    have hAgain : OnlyOutput c { c with outputBuffer := c.outputBuffer.retrieve n } :=
      of_same rfl rfl rfl
    unfold retrieveOutput
    split
    · exact hAgain.trans (drained _)
    · exact hAgain
  unfold TcpConnection.handleWrite
  split
  · exact refl c
  · split
    · exact refl c
    · have hWrote : ∀ buffer n, OnlyOutput c (c.wrote buffer n) :=
        fun buffer n => of_same rfl rfl rfl
      split
      · exact (hWrote _ _).trans (hRetrieve _ _)
      · exact hWrote _ _

end OnlyOutput

/-! The channel changes in two of the functions: `SendInLoop` may turn the write
interest on, and `HandleWrite` may turn it off. -/

@[simp] theorem queueWriteComplete_channel (c : TcpConnection) :
    c.queueWriteComplete.channel = c.channel := by
  unfold queueWriteComplete
  split <;> rfl

@[simp] theorem shutdownInLoop_channel (c : TcpConnection) :
    c.shutdownInLoop.channel = c.channel := by
  unfold shutdownInLoop beginShutdown
  split_ifs <;> rfl

@[simp] theorem shutdown_channel (c : TcpConnection) : c.shutdown.channel = c.channel := by
  unfold shutdown
  split <;> simp

@[simp] theorem queueHighWaterMark_channel (c : TcpConnection) (oldLen newLen : Nat) :
    (c.queueHighWaterMark oldLen newLen).channel = c.channel := by
  unfold queueHighWaterMark
  split <;> rfl

theorem bufferRest_channel (c : TcpConnection) (rest : List Byte) :
    (c.bufferRest rest).channel = c.channel ∨
      (c.bufferRest rest).channel = c.channel.enableWriting := by
  unfold bufferRest wantWrite
  split
  · exact Or.inl rfl
  · by_cases hWriting : c.channel.isWriting = true
    · simp [hWriting]
    · simp [hWriting]

theorem sendInLoop_channel (c : TcpConnection) (message : List Byte) (call : SysWrite) :
    (c.sendInLoop message call).channel = c.channel ∨
      c.state = .kConnected ∧
        (c.sendInLoop message call).channel = c.channel.enableWriting := by
  by_cases hState : c.state = .kConnected
  · have hBuffer : ∀ (c' : TcpConnection) (rest : List Byte), c'.channel = c.channel →
        (c'.bufferRest rest).channel = c.channel ∨
          c.state = .kConnected ∧ (c'.bufferRest rest).channel = c.channel.enableWriting := by
      intro c' rest hSame
      rcases bufferRest_channel c' rest with hKept | hEnabled
      · exact Or.inl (hKept.trans hSame)
      · exact Or.inr ⟨hState, by rw [hEnabled, hSame]⟩
    unfold sendInLoop
    rw [if_neg (not_not.mpr hState)]
    split
    · cases call.result message.length with
      | ok nwrote =>
          by_cases hAll : message.length - nwrote = 0
          · simp only [if_pos hAll]
            exact hBuffer _ _ (queueWriteComplete_channel _)
          · simp only [if_neg hAll]
            exact hBuffer _ _ rfl
      | error errno =>
          by_cases hFault : isFault errno call.logged = true
          · simp [if_pos hFault]
          · simp only [if_neg hFault]
            exact hBuffer _ _ rfl
    · exact hBuffer _ _ rfl
  · exact Or.inl (by simp [sendInLoop, hState])

theorem drained_channel (c : TcpConnection) :
    c.drained.channel = c.channel.disableWriting := by
  unfold drained shutdownIfDisconnecting
  split <;> simp [record]

theorem handleWrite_channel (c : TcpConnection) (call : SysWrite) :
    (c.handleWrite call).channel = c.channel ∨
      c.channel.isWriting = true ∧
        (c.handleWrite call).channel = c.channel.disableWriting := by
  unfold handleWrite
  split
  · exact Or.inl rfl
  · next hWriting =>
    split
    · exact Or.inl rfl
    · split
      · unfold retrieveOutput
        split
        · exact Or.inr ⟨by simpa using hWriting, by simp [drained_channel, wrote]⟩
        · exact Or.inl rfl
      · exact Or.inl rfl

end TcpConnection
end SolarNet
