import SolarNet.Base.BufferFifo
import SolarNet.Base.BufferLines
import SolarNet.Transport.TcpConnection

/-!
# The input of a connection

The receiving side of one connection: the peer, the receive queue of the kernel,
`HandleRead`, the input buffer, and a message callback that takes bytes out of it.
TCP does not keep message boundaries, so `readv` may find any part of what the peer has
sent, and the callback may leave any part of it in the buffer for the next time.

Between reads the loop thread also calls the output functions of the connection and
`HandleClose`; they have no part in the input.
-/

namespace SolarNet

open Lib

/-- What a message callback does with the buffer.  `RetrieveAsString`, the `ReadInt`
family and `ReadString` retrieve a length; `readLines` is the loop over `FindCRLF` and
`RetrieveUntil`. -/
inductive ConsumeOp where
  | retrieve (len : ℕ)
  | retrieveAll
  | retrieveUntil (delimiter : List Byte)
  | readLines
  deriving DecidableEq, Repr

namespace Buffer

theorem readLines_keeps {b : Buffer} (hValid : b.Valid) (fuel : ℕ) :
    Keeps b (b.readLines fuel).2 := by
  induction fuel generalizing b with
  | zero => exact .refl hValid
  | succ fuel ih =>
      rw [readLines]
      split
      · exact .refl hValid
      · have hFirst : Keeps b (b.retrieveUntilPosition (b.findCRLF + 2)) :=
          retrieve_keeps hValid _
        exact hFirst.trans (ih hFirst.valid)

/-- The lines that are read come off the front. -/
theorem readLines_readable {b : Buffer} (hValid : b.Valid) (fuel : ℕ) :
    ∃ taken, (b.readLines fuel).2.readable = b.readable.drop taken := by
  induction fuel generalizing b with
  | zero => exact ⟨0, rfl⟩
  | succ fuel ih =>
      rw [readLines]
      split
      · exact ⟨0, rfl⟩
      · obtain ⟨taken, hTaken⟩ :=
          ih (b := b.retrieveUntilPosition (b.findCRLF + 2)) (retrieve_keeps hValid _).valid
        refine ⟨b.findCRLF + 2 + taken, hTaken.trans ?_⟩
        rw [retrieveUntilPosition, retrieve_readable hValid, List.drop_drop]

end Buffer

namespace CheckedBuffer

def retrieveAll (b : CheckedBuffer) : CheckedBuffer :=
  ⟨b.1.retrieveAll, (Buffer.retrieveAll_keeps b.2.valid).wf b.2⟩

def retrieveUntil (b : CheckedBuffer) (delimiter : List Byte) : CheckedBuffer :=
  ⟨b.1.retrieveUntil delimiter, (Buffer.retrieveUntil_keeps b.2.valid delimiter).wf b.2⟩

/-- The loop over `FindCRLF`, which takes at least one byte in each turn. -/
def readLines (b : CheckedBuffer) : List (List Byte) × CheckedBuffer :=
  ((b.1.readLines b.readableBytes).1,
    ⟨(b.1.readLines b.readableBytes).2, (Buffer.readLines_keeps b.2.valid _).wf b.2⟩)

/-- The buffer after the operation, and the lines that it returned. -/
def consume (b : CheckedBuffer) : ConsumeOp → CheckedBuffer × List (List Byte)
  | .retrieve len => (b.retrieve len, [])
  | .retrieveAll => (b.retrieveAll, [])
  | .retrieveUntil delimiter => (b.retrieveUntil delimiter, [])
  | .readLines => (b.readLines.2, b.readLines.1)

/-- Whatever the callback does, bytes leave the buffer at the front. -/
theorem consume_readable (b : CheckedBuffer) (op : ConsumeOp) :
    ∃ taken, (b.consume op).1.readable = b.readable.drop taken := by
  cases op with
  | retrieve len => exact ⟨len, readable_retrieve b len⟩
  | retrieveAll =>
      refine ⟨b.readable.length, ?_⟩
      rw [List.drop_length]
      exact Buffer.retrieveAll_readable b.1
  | retrieveUntil delimiter =>
      show ∃ taken, (b.1.retrieveUntil delimiter).readable = b.1.readable.drop taken
      unfold Buffer.retrieveUntil
      split
      · exact ⟨_, Buffer.retrieve_readable b.2.valid _⟩
      · exact ⟨0, rfl⟩
  | readLines => exact Buffer.readLines_readable b.2.valid _

end CheckedBuffer

/-- The receiving side of a connection.  The last five fields are history: what the
peer has sent, the pieces that `readv` returned, the bytes that left the buffer, the
lines that were read, and whether a read has returned zero. -/
structure Inbound where
  conn : TcpConnection
  /-- The receive queue of the kernel. -/
  queue : List Byte
  /-- The peer has closed its side, so nothing follows. -/
  finished : Bool
  stream : List Byte
  pieces : List (List Byte)
  consumed : List Byte
  lines : List (List Byte)
  eof : Bool
  deriving DecidableEq, Repr

/-- An event on the receiving side. -/
inductive InboundLabel where
  | arrive (bytes : List Byte)
  | fin
  /-- `HandleRead`; `readv` finds at most `limit` bytes, and the message callback does
  what the script says. -/
  | handleRead (limit : ℕ) (script : List ConsumeOp)
  /-- `HandleRead`, and `readv` fails. -/
  | readError (errno : Errno)
  | send (message : List Byte) (call : SysWrite)
  | shutdown
  | handleWrite (call : SysWrite)
  /-- `HandleClose` for another reason, such as `ForceClose`. -/
  | handleClose
  deriving DecidableEq, Repr

namespace Inbound

/-- A connection that has been established. -/
def new (callbacks : ConnCallbacks) (highWaterMark : ℕ) : Inbound where
  conn := (TcpConnection.new callbacks highWaterMark).connectEstablished
  queue := []
  finished := false
  stream := []
  pieces := []
  consumed := []
  lines := []
  eof := false

/-- What the next `readv` finds: the front of the queue, or the end of the stream, or
nothing yet. -/
def call (s : Inbound) (limit : ℕ) : SysRead :=
  if s.queue = [] ∧ s.finished = false then .error EAGAIN else .data (s.queue.take limit)

/-- One operation of the message callback. -/
def consume (s : Inbound) (op : ConsumeOp) : Inbound :=
  let after := s.conn.inputBuffer.consume op
  { s with
    conn := { s.conn with inputBuffer := after.1 }
    consumed := s.consumed ++ s.conn.inputBuffer.readable.take
      (s.conn.inputBuffer.readableBytes - after.1.readableBytes)
    lines := s.lines ++ after.2 }

/-- `readv` has returned the bytes. -/
def received (s : Inbound) (conn : TcpConnection) (bytes : List Byte) : Inbound :=
  { s with
    conn := conn
    queue := s.queue.drop bytes.length
    pieces := s.pieces ++ [bytes] }

def handleRead (s : Inbound) (limit : ℕ) (script : List ConsumeOp) : Inbound :=
  let (conn, result) := s.conn.receive (s.call limit)
  match result with
  | .error _ => { s with conn := conn }
  | .ok 0 => { s with conn := conn.handleClose, eof := true }
  | .ok (n + 1) =>
      let bytes := s.queue.take (n + 1)
      if s.conn.callbacks.message then
        script.foldl consume (s.received (conn.record .messageCallback) bytes)
      else s.received conn bytes

/-- One event.  The peer sends nothing after it has closed its side, and a read that
finds bytes takes at least one. -/
def step (s : Inbound) : InboundLabel → Option Inbound
  | .arrive bytes =>
      if s.finished then none
      else some { s with queue := s.queue ++ bytes, stream := s.stream ++ bytes }
  | .fin => some { s with finished := true }
  | .handleRead limit script => if 0 < limit then some (s.handleRead limit script) else none
  | .readError errno => some { s with conn := (s.conn.receive (.error errno)).1 }
  | .send message call => some { s with conn := s.conn.sendInLoop message call }
  | .shutdown => some { s with conn := s.conn.shutdown }
  | .handleWrite call => some { s with conn := s.conn.handleWrite call }
  | .handleClose => some { s with conn := s.conn.handleClose }

/-! ## One read -/

theorem receive_error (c : TcpConnection) (errno : Errno) :
    c.receive (.error errno) = (c, .error errno) := rfl

theorem receive_data (c : TcpConnection) (stream : List Byte) :
    (c.receive (.data stream)).1.inputBuffer.readable =
        c.inputBuffer.readable ++ stream.take c.inputBuffer.1.readvCapacity ∧
      (c.receive (.data stream)).2 =
        .ok (stream.take c.inputBuffer.1.readvCapacity).length := by
  obtain ⟨b', hRead, -, hReadable⟩ := Buffer.readFd_data_spec c.inputBuffer.2.valid stream
  refine ⟨?_, CheckedBuffer.readFd_data_result c.inputBuffer stream⟩
  simpa [TcpConnection.receive, CheckedBuffer.readFd, CheckedBuffer.readable, hRead] using
    hReadable

/-- The vectors of `readv` always have room, so a read that finds bytes takes some. -/
theorem readvCapacity_pos (b : Buffer) : 0 < b.readvCapacity := by
  unfold Buffer.readvCapacity Buffer.extrabufSize
  split <;> omega

/-- `HandleClose` does not call the message callback. -/
theorem handleClose_messages (c : TcpConnection) :
    c.handleClose.log.count .messageCallback = c.log.count .messageCallback := by
  unfold TcpConnection.handleClose TcpConnection.report
  split <;> simp [TcpConnection.beginClose, TcpConnection.record]

/-- How a `HandleRead` goes. -/
theorem handleRead_cases (s : Inbound) {limit : ℕ} (hLimit : 0 < limit)
    (script : List ConsumeOp) :
    (s.queue = [] ∧ s.finished = false ∧ s.handleRead limit script = s) ∨
    (s.queue = [] ∧ s.finished = true ∧
      ∃ conn : TcpConnection, conn.inputBuffer.readable = s.conn.inputBuffer.readable ∧
        conn.log.count .messageCallback = s.conn.log.count .messageCallback ∧
        conn.callbacks = s.conn.callbacks ∧
        s.handleRead limit script = { s with conn := conn, eof := true }) ∨
    ∃ (bytes : List Byte) (conn : TcpConnection), bytes ≠ [] ∧ bytes <+: s.queue ∧
      conn.inputBuffer.readable = s.conn.inputBuffer.readable ++ bytes ∧
      conn.callbacks = s.conn.callbacks ∧
      conn.log.count .messageCallback = s.conn.log.count .messageCallback +
        (if s.conn.callbacks.message then 1 else 0) ∧
      s.handleRead limit script =
        (if s.conn.callbacks.message then script else []).foldl consume
          (s.received conn bytes) := by
  by_cases hEmpty : s.queue = []
  · cases hFinished : s.finished with
    | false =>
        refine Or.inl ⟨hEmpty, rfl, ?_⟩
        have hCall : s.call limit = .error EAGAIN := by simp [call, hEmpty, hFinished]
        simp only [handleRead, hCall, receive_error]
    | true =>
        refine Or.inr (Or.inl ⟨hEmpty, rfl, (s.conn.receive (.data [])).1.handleClose,
          ?_, ?_, ?_, ?_⟩)
        · have hReadable := (receive_data s.conn []).1
          rw [List.take_nil, List.append_nil] at hReadable
          rwa [TcpConnection.handleClose_inputBuffer]
        · exact handleClose_messages _
        · exact TcpConnection.handleClose_callbacks _
        · have hCall : s.call limit = .data [] := by simp [call, hEmpty, hFinished]
          have hResult : (s.conn.receive (.data [])).2 = .ok 0 := by
            rw [(receive_data s.conn []).2, List.take_nil, List.length_nil]
          simp only [handleRead, hCall, hResult, hFinished]
  · have hCall : s.call limit = .data (s.queue.take limit) := by simp [call, hEmpty]
    obtain ⟨hReadable, hResult⟩ := receive_data s.conn (s.queue.take limit)
    generalize hBytes : (s.queue.take limit).take s.conn.inputBuffer.1.readvCapacity = bytes
      at hReadable hResult
    have hPrefix : bytes <+: s.queue := by
      rw [← hBytes]
      exact (List.take_prefix _ _).trans (List.take_prefix _ _)
    have hNonempty : bytes ≠ [] := by
      have hCapacity := readvCapacity_pos s.conn.inputBuffer.1
      rw [← hBytes, List.take_take, ne_eq, List.take_eq_nil_iff, not_or]
      exact ⟨by omega, hEmpty⟩
    obtain ⟨n, hLength⟩ : ∃ n, bytes.length = n + 1 :=
      Nat.exists_eq_add_one.mpr (List.length_pos_iff.mpr hNonempty)
    have hTake : s.queue.take (n + 1) = bytes := by
      rw [← hLength]
      exact List.prefix_iff_eq_take.mp hPrefix |>.symm
    rw [hLength] at hResult
    refine Or.inr (Or.inr ⟨bytes, if s.conn.callbacks.message then
      (s.conn.receive (.data (s.queue.take limit))).1.record .messageCallback else
      (s.conn.receive (.data (s.queue.take limit))).1, hNonempty, hPrefix, ?_, ?_, ?_, ?_⟩)
    · split <;> exact hReadable
    · split <;> rfl
    · split <;> simp [TcpConnection.record, TcpConnection.receive]
    · simp only [handleRead, hCall, hResult, hTake]
      split <;> rfl

/-! ## The output functions -/

@[simp] theorem record_inputBuffer (c : TcpConnection) (event : ConnEvent) :
    (c.record event).inputBuffer = c.inputBuffer := rfl

@[simp] theorem queueWriteComplete_inputBuffer (c : TcpConnection) :
    c.queueWriteComplete.inputBuffer = c.inputBuffer := by
  unfold TcpConnection.queueWriteComplete
  split <;> rfl

@[simp] theorem queueHighWaterMark_inputBuffer (c : TcpConnection) (oldLen newLen : ℕ) :
    (c.queueHighWaterMark oldLen newLen).inputBuffer = c.inputBuffer := by
  unfold TcpConnection.queueHighWaterMark
  split <;> rfl

@[simp] theorem wantWrite_inputBuffer (c : TcpConnection) :
    c.wantWrite.inputBuffer = c.inputBuffer := by
  unfold TcpConnection.wantWrite
  split <;> rfl

@[simp] theorem bufferRest_inputBuffer (c : TcpConnection) (rest : List Byte) :
    (c.bufferRest rest).inputBuffer = c.inputBuffer := by
  unfold TcpConnection.bufferRest
  split
  · rfl
  · simp

@[simp] theorem sendInLoop_inputBuffer (c : TcpConnection) (message : List Byte)
    (call : SysWrite) : (c.sendInLoop message call).inputBuffer = c.inputBuffer := by
  unfold TcpConnection.sendInLoop
  split
  · rfl
  · split
    · cases call.result message.length with
      | ok nwrote =>
          dsimp only
          split <;> simp [TcpConnection.handOver]
      | error errno =>
          dsimp only
          split <;> simp [TcpConnection.handOver]
    · simp [TcpConnection.handOver]

@[simp] theorem shutdownInLoop_inputBuffer (c : TcpConnection) :
    c.shutdownInLoop.inputBuffer = c.inputBuffer := by
  unfold TcpConnection.shutdownInLoop TcpConnection.beginShutdown
  split_ifs <;> rfl

@[simp] theorem shutdown_inputBuffer (c : TcpConnection) :
    c.shutdown.inputBuffer = c.inputBuffer := by
  unfold TcpConnection.shutdown
  split <;> simp

@[simp] theorem handleWrite_inputBuffer (c : TcpConnection) (call : SysWrite) :
    (c.handleWrite call).inputBuffer = c.inputBuffer := by
  unfold TcpConnection.handleWrite TcpConnection.retrieveOutput TcpConnection.drained
    TcpConnection.shutdownIfDisconnecting
  split
  · rfl
  · split
    · rfl
    · split_ifs <;> simp [TcpConnection.wrote]

/-- An output function calls no message callback. -/
theorem count_messageCallback {c c' : TcpConnection} (hOutput : c.OnlyOutput c') :
    c'.log.count .messageCallback = c.log.count .messageCallback := by
  obtain ⟨notes, hLog, hNotes⟩ := hOutput.log_eq
  have hNone : notes.count .messageCallback = 0 := by
    rw [List.count_eq_zero]
    intro hMem
    exact absurd (hNotes _ hMem) (by decide)
  rw [hLog, List.count_append, hNone, Nat.add_zero]

/-! ## Every event -/

/-- Nothing is lost between the peer and the callback. -/
structure Intact (callbacks : ConnCallbacks) (s : Inbound) : Prop where
  callbacks_eq : s.conn.callbacks = callbacks
  read : s.stream = s.pieces.flatten ++ s.queue
  kept : s.pieces.flatten = s.consumed ++ s.conn.inputBuffer.readable
  pieces_ne : ∀ piece ∈ s.pieces, piece ≠ []
  calls : s.conn.log.count .messageCallback = if callbacks.message then s.pieces.length else 0
  at_end : s.eof = true → s.finished = true ∧ s.queue = []

variable {callbacks : ConnCallbacks} {s : Inbound}

theorem new_intact (callbacks : ConnCallbacks) (highWaterMark : ℕ) :
    Intact callbacks (new callbacks highWaterMark) := by
  have hConn : ∀ c : TcpConnection, c.connectEstablished.callbacks = c.callbacks ∧
      c.connectEstablished.inputBuffer = c.inputBuffer ∧
      c.connectEstablished.log.count .messageCallback = c.log.count .messageCallback := by
    intro c
    unfold TcpConnection.connectEstablished TcpConnection.report
    split <;> simp [TcpConnection.record]
  obtain ⟨hCallbacks, hBuffer, hLog⟩ := hConn (TcpConnection.new callbacks highWaterMark)
  refine ⟨hCallbacks, rfl, ?_, by simp [new], ?_, by simp [new]⟩
  · rw [new, hBuffer]
    simp [TcpConnection.new]
  · rw [new, hLog]
    simp [TcpConnection.new]

/-- The connection changes, but not its input. -/
theorem Intact.of_conn (hIntact : Intact callbacks s) {conn : TcpConnection}
    (hCallbacks : conn.callbacks = s.conn.callbacks)
    (hBuffer : conn.inputBuffer.readable = s.conn.inputBuffer.readable)
    (hCalls : conn.log.count .messageCallback = s.conn.log.count .messageCallback) :
    Intact callbacks { s with conn := conn } where
  callbacks_eq := hCallbacks.trans hIntact.callbacks_eq
  read := hIntact.read
  kept := by rw [hBuffer]; exact hIntact.kept
  pieces_ne := hIntact.pieces_ne
  calls := hCalls.trans hIntact.calls
  at_end := hIntact.at_end

theorem Intact.of_output (hIntact : Intact callbacks s) {conn : TcpConnection}
    (hOutput : s.conn.OnlyOutput conn) (hBuffer : conn.inputBuffer = s.conn.inputBuffer) :
    Intact callbacks { s with conn := conn } :=
  hIntact.of_conn hOutput.callbacks_eq (by rw [hBuffer]) (count_messageCallback hOutput)

theorem Intact.consume (hIntact : Intact callbacks s) (op : ConsumeOp) :
    Intact callbacks (s.consume op) := by
  refine ⟨hIntact.callbacks_eq, hIntact.read, ?_, hIntact.pieces_ne, hIntact.calls,
    hIntact.at_end⟩
  obtain ⟨taken, hTaken⟩ := s.conn.inputBuffer.consume_readable op
  have hLength := congrArg List.length hTaken
  rw [CheckedBuffer.length_readable, List.length_drop, CheckedBuffer.length_readable] at hLength
  have hSplit : s.conn.inputBuffer.readable.take (s.conn.inputBuffer.readableBytes -
      (s.conn.inputBuffer.consume op).1.readableBytes) ++
      (s.conn.inputBuffer.consume op).1.readable = s.conn.inputBuffer.readable := by
    rw [hTaken, hLength]
    by_cases hAll : taken ≤ s.conn.inputBuffer.readableBytes
    · rw [Nat.sub_sub_self hAll, List.take_append_drop]
    · have hShort : s.conn.inputBuffer.readable.length ≤ taken := by
        rw [CheckedBuffer.length_readable]
        omega
      rw [List.drop_of_length_le hShort, List.append_nil, List.take_of_length_le]
      rw [CheckedBuffer.length_readable]
      omega
  simp only [Inbound.consume]
  rw [List.append_assoc, hSplit]
  exact hIntact.kept

theorem Intact.consumeAll (hIntact : Intact callbacks s) (script : List ConsumeOp) :
    Intact callbacks (script.foldl Inbound.consume s) := by
  induction script generalizing s with
  | nil => exact hIntact
  | cons op script ih => exact ih (hIntact.consume op)

/-- A read moves bytes from the queue to the buffer. -/
theorem Intact.received (hIntact : Intact callbacks s) {conn : TcpConnection}
    {bytes : List Byte} (hNonempty : bytes ≠ []) (hPrefix : bytes <+: s.queue)
    (hReadable : conn.inputBuffer.readable = s.conn.inputBuffer.readable ++ bytes)
    (hCallbacks : conn.callbacks = s.conn.callbacks)
    (hCalls : conn.log.count .messageCallback = s.conn.log.count .messageCallback +
      (if s.conn.callbacks.message then 1 else 0)) :
    Intact callbacks (s.received conn bytes) := by
  obtain ⟨rest, hQueue⟩ := hPrefix
  have hDrop : s.queue.drop bytes.length = rest := by
    rw [← hQueue, List.drop_left]
  refine ⟨hCallbacks.trans hIntact.callbacks_eq, ?_, ?_, ?_, ?_, ?_⟩
  · simp only [Inbound.received, hDrop, List.flatten_append, List.flatten_singleton,
      List.append_assoc, hQueue]
    exact hIntact.read
  · simp only [Inbound.received, List.flatten_append, List.flatten_singleton, hReadable]
    rw [hIntact.kept, List.append_assoc]
  · intro piece hPiece
    rcases List.mem_append.mp hPiece with hOld | hNew
    · exact hIntact.pieces_ne piece hOld
    · rwa [List.mem_singleton.mp hNew]
  · simp only [Inbound.received, hCalls, hIntact.calls, hIntact.callbacks_eq]
    split <;> simp
  · intro hEof
    obtain ⟨-, hEmpty⟩ := hIntact.at_end hEof
    rw [hEmpty] at hQueue
    exact absurd (List.append_eq_nil_iff.mp hQueue).1 hNonempty

theorem step_intact {s' : Inbound} {label : InboundLabel} (hIntact : Intact callbacks s)
    (hStep : step s label = some s') : Intact callbacks s' := by
  cases label with
  | arrive bytes =>
      simp only [step] at hStep
      split at hStep
      case isTrue => cases hStep
      case isFalse hOpen =>
        obtain rfl := Option.some.inj hStep
        refine ⟨hIntact.callbacks_eq, ?_, hIntact.kept, hIntact.pieces_ne, hIntact.calls, ?_⟩
        · rw [← List.append_assoc, ← hIntact.read]
        · intro hEof
          exact absurd (hIntact.at_end hEof).1 hOpen
  | fin =>
      obtain rfl := Option.some.inj hStep
      exact ⟨hIntact.callbacks_eq, hIntact.read, hIntact.kept, hIntact.pieces_ne, hIntact.calls,
        fun hEof => ⟨rfl, (hIntact.at_end hEof).2⟩⟩
  | handleRead limit script =>
      simp only [step] at hStep
      split at hStep
      case isFalse => cases hStep
      case isTrue hLimit =>
        obtain rfl := Option.some.inj hStep
        rcases handleRead_cases s hLimit script with ⟨-, -, hSame⟩ |
          ⟨hEmpty, hFinished, conn, hBuffer, hCalls, hCallbacks, hNext⟩ |
          ⟨bytes, conn, hNonempty, hPrefix, hReadable, hCallbacks, hCalls, hNext⟩
        · rw [hSame]
          exact hIntact
        · rw [hNext]
          have hConn := hIntact.of_conn hCallbacks hBuffer hCalls
          exact ⟨hConn.callbacks_eq, hConn.read, hConn.kept, hConn.pieces_ne, hConn.calls,
            fun _ => ⟨hFinished, hEmpty⟩⟩
        · rw [hNext]
          exact (hIntact.received hNonempty hPrefix hReadable hCallbacks hCalls).consumeAll _
  | readError errno =>
      obtain rfl := Option.some.inj hStep
      exact hIntact
  | send message call =>
      obtain rfl := Option.some.inj hStep
      exact hIntact.of_output (.sendInLoop _ _ _) (sendInLoop_inputBuffer _ _ _)
  | shutdown =>
      obtain rfl := Option.some.inj hStep
      exact hIntact.of_output (.shutdown _) (shutdown_inputBuffer _)
  | handleWrite call =>
      obtain rfl := Option.some.inj hStep
      exact hIntact.of_output (.handleWrite _ _) (handleWrite_inputBuffer _ _)
  | handleClose =>
      obtain rfl := Option.some.inj hStep
      exact hIntact.of_conn (TcpConnection.handleClose_callbacks _)
        (congrArg _ (TcpConnection.handleClose_inputBuffer _)) (handleClose_messages _)

theorem exec_intact {highWaterMark : ℕ} {labels : List InboundLabel}
    (hRun : exec step (new callbacks highWaterMark) labels = some s) : Intact callbacks s :=
  exec_invariant (Intact callbacks) (fun _ _ _ => step_intact) (new_intact callbacks highWaterMark)
    hRun

theorem foldl_consume_frame (s : Inbound) (script : List ConsumeOp) :
    (script.foldl consume s).queue = s.queue ∧ (script.foldl consume s).eof = s.eof ∧
      (script.foldl consume s).pieces = s.pieces := by
  induction script generalizing s with
  | nil => exact ⟨rfl, rfl, rfl⟩
  | cons op script ih => exact ih (s.consume op)

/-- **The input stream is intact.**  However the network cuts the stream and whatever
the message callback takes: what the peer has sent is what left the buffer, followed by
what is in the buffer, followed by what waits in the kernel.  There is one call of the
message callback for each read, and no read is empty.  `HandleRead` finds the end of the
stream only when the peer has closed and everything it has sent is in the buffer or was
consumed, and while bytes are waiting it takes some of them. -/
theorem input_stream_intact {callbacks : ConnCallbacks} {highWaterMark : ℕ}
    {labels : List InboundLabel} {s : Inbound}
    (hRun : exec step (new callbacks highWaterMark) labels = some s) :
    s.stream = s.consumed ++ s.conn.inputBuffer.readable ++ s.queue ∧
      s.stream = s.pieces.flatten ++ s.queue ∧ (∀ piece ∈ s.pieces, piece ≠ []) ∧
      s.conn.log.count .messageCallback =
        (if callbacks.message then s.pieces.length else 0) ∧
      (s.eof = true → s.finished = true ∧
        s.stream = s.consumed ++ s.conn.inputBuffer.readable) ∧
      ∀ limit script s', step s (.handleRead limit script) = some s' → s.queue ≠ [] →
        s'.queue.length < s.queue.length ∧ s'.eof = s.eof := by
  have hIntact := exec_intact hRun
  have hStream : s.stream = s.consumed ++ s.conn.inputBuffer.readable ++ s.queue := by
    rw [hIntact.read, hIntact.kept]
  refine ⟨hStream, hIntact.read, hIntact.pieces_ne, hIntact.calls, ?_, ?_⟩
  · intro hEof
    obtain ⟨hFinished, hEmpty⟩ := hIntact.at_end hEof
    rw [hEmpty, List.append_nil] at hStream
    exact ⟨hFinished, hStream⟩
  · intro limit script s' hStep hWaiting
    simp only [step] at hStep
    split at hStep
    case isFalse => cases hStep
    case isTrue hLimit =>
      obtain rfl := Option.some.inj hStep
      rcases handleRead_cases s hLimit script with ⟨hEmpty, -⟩ | ⟨hEmpty, -⟩ |
        ⟨bytes, conn, hNonempty, hPrefix, -, -, -, hNext⟩
      · exact absurd hEmpty hWaiting
      · exact absurd hEmpty hWaiting
      · obtain ⟨hQueue, hEof, -⟩ := foldl_consume_frame (s.received conn bytes)
          (if s.conn.callbacks.message then script else [])
        rw [hNext, hQueue, hEof]
        have hTaken := List.length_pos_iff.mpr hNonempty
        have hLength := hPrefix.length_le
        refine ⟨?_, rfl⟩
        simp only [received, List.length_drop]
        omega

/-- Two messages that arrive in three pieces; the callback takes three bytes each time. -/
def twoMessages : List InboundLabel :=
  [.arrive [1, 2], .handleRead 5 [.retrieve 3], .arrive [3, 4, 5], .handleRead 2 [.retrieve 3],
    .fin, .handleRead 9 [.retrieve 3], .handleRead 9 []]

theorem input_stream_intact_twoMessages :
    ∃ s, exec step (new ⟨false, true, false, false, .unset⟩ 0) twoMessages = some s ∧
      s.eof = true ∧ s.stream = s.consumed ++ s.conn.inputBuffer.readable := by
  have hRun :
      (exec step (new ⟨false, true, false, false, .unset⟩ 0) twoMessages).isSome = true := by
    decide +kernel
  obtain ⟨s, hRun⟩ := Option.isSome_iff_exists.mp hRun
  have hEof : (exec step (new ⟨false, true, false, false, .unset⟩ 0) twoMessages).map eof =
      some true := by
    decide +kernel
  rw [hRun] at hEof
  obtain ⟨-, -, -, -, hEnd, -⟩ := input_stream_intact hRun
  exact ⟨s, hRun, Option.some.inj hEof, (hEnd (Option.some.inj hEof)).2⟩

end Inbound
end SolarNet
