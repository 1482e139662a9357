import Mathlib.Data.List.TakeWhile
import SolarNet.Transport.ConnectionInput
import SolarNet.Transport.HalfClose

/-!
# Two connections and the network between them

The two ends of a TCP connection, both of them `TcpConnection`s, and for each direction the
bytes that one kernel has taken and the other has not delivered.  Each end receives as in
`SolarNet.Transport.ConnectionInput`, and its peer is now the other end instead of an
arbitrary source of bytes.

The file proves what arrives: the bytes that one end has handed to its kernel, all of them
and in their order, and of the accepted bytes those that `HandleWrite` has not dropped.  A
shutdown that is not overtaken by a close delivers every accepted byte before the end of
the stream.
-/

namespace SolarNet

open Lib

/-- What an end does itself; the rest of the labels is what the network does. -/
def InboundLabel.isOwn : InboundLabel → Bool
  | .arrive _ | .fin => false
  | _ => true

/-- The two ends of a TCP connection. -/
structure Duplex where
  ends : Bool → Inbound
  /-- What this end has handed to its kernel and the other end has not received. -/
  wire : Bool → List Byte

inductive DuplexLabel where
  | own (side : Bool) (label : InboundLabel)
  /-- The next bytes from this end reach the other. -/
  | deliver (side : Bool) (n : ℕ)
  /-- The end of the stream from this end reaches the other. -/
  | fin (side : Bool)
  deriving DecidableEq, Repr

namespace TcpConnection

/-- The connection has shut down its side, or its socket may be closed. -/
def Silent (c : TcpConnection) : Prop :=
  .shutdownWrite ∈ c.log ∨ c.state = .kDisconnected

instance (c : TcpConnection) : Decidable c.Silent := inferInstanceAs (Decidable (_ ∨ _))

end TcpConnection

namespace Duplex

def new (callbacks : Bool → ConnCallbacks) (highWaterMark : Bool → ℕ) : Duplex where
  ends := fun side => Inbound.new (callbacks side) (highWaterMark side)
  wire := fun _ => []

/-- An end goes on, and the kernel takes what it writes. -/
def setOwn (d : Duplex) (side : Bool) (next : Inbound) : Duplex where
  ends := Function.update d.ends side next
  wire := Function.update d.wire side
    (d.wire side ++ next.conn.sent.drop (d.ends side).conn.sent.length)

/-- The other end receives, and this much is still under way. -/
def setOther (d : Duplex) (side : Bool) (next : Inbound) (rest : List Byte) : Duplex where
  ends := Function.update d.ends (!side) next
  wire := Function.update d.wire side rest

def step (d : Duplex) : DuplexLabel → Option Duplex
  | .own side label =>
      if label.isOwn then ((d.ends side).step label).map (d.setOwn side) else none
  | .deliver side n =>
      ((d.ends (!side)).step (.arrive ((d.wire side).take n))).map fun next =>
        d.setOther side next ((d.wire side).drop n)
  -- The end of the stream follows the last byte.
  | .fin side =>
      if d.wire side = [] ∧ (d.ends side).conn.Silent then
        ((d.ends (!side)).step .fin).map fun next => d.setOther side next []
      else none

end Duplex

/-! ## What a step does to the output of an end -/

/-- `HandleClose` began. -/
def ConnEvent.isClose : ConnEvent → Bool
  | .handleClose _ => true
  | _ => false

namespace TcpConnection

/-- `ShutdownWrite` was called before any `HandleClose`. -/
def Orderly (log : List ConnEvent) : Prop :=
  .shutdownWrite ∈ log.takeWhile fun event => !event.isClose

instance (log : List ConnEvent) : Decidable (Orderly log) := inferInstanceAs (Decidable (_ ∈ _))

/-- How bytes move through the output of a connection.  `whole` stands for a write of
`HandleWrite` that takes nothing or everything. -/
inductive ByteMove (whole : Prop) (c c' : TcpConnection) : Prop where
  | same (hSent : c'.sent = c.sent)
      (hBuffer : c'.outputBuffer.readable = c.outputBuffer.readable)
      (hAccepted : c'.accepted = c.accepted)
  | accept (hState : c.state = .kConnected) (message : List Byte) (n : ℕ)
      (hSent : c'.sent = c.sent ++ message.take n)
      (hBuffer : c'.outputBuffer.readable = c.outputBuffer.readable ++ message.drop n)
      (hAccepted : c'.accepted = c.accepted ++ message)
      (hDirect : n = 0 ∨ c.outputBuffer.readable = [])
  | write (hWriting : c.channel.isWriting = true) (n : ℕ)
      (hSent : c'.sent = c.sent ++ c.outputBuffer.readable.take n)
      (hBuffer : c'.outputBuffer.readable = c.outputBuffer.readable.drop (n + n))
      (hAccepted : c'.accepted = c.accepted)
      (hWhole : whole → n = 0 ∨ c.outputBuffer.readable.length ≤ n)

/-- What the step of an end does to its output. -/
structure EndMove (whole : Prop) (c c' : TcpConnection) : Prop where
  move : ∃ writes, OutputMove writes c.outputSide c'.outputSide
  bytes : ByteMove whole c c'
  log : ∃ notes, c'.log = c.log ++ notes
  closed : c'.state = .kDisconnected → c.state = .kDisconnected ∨ ∃ event ∈ c'.log, event.isClose

theorem bufferRest_bytes (c : TcpConnection) (rest : List Byte) :
    (c.bufferRest rest).sent = c.sent ∧
      (c.bufferRest rest).outputBuffer.readable = c.outputBuffer.readable ++ rest ∧
      (c.bufferRest rest).accepted = c.accepted := by
  have hSide := bufferRest_outputSide c rest
  refine ⟨congrArg OutputSide.sent hSide, congrArg OutputSide.buffered hSide, ?_⟩
  unfold bufferRest
  split
  · rfl
  · unfold wantWrite queueHighWaterMark record
    dsimp only
    split_ifs <;> rfl

theorem sendInLoop_bytes (whole : Prop) (c : TcpConnection) (message : List Byte)
    (call : SysWrite) : ByteMove whole c (c.sendInLoop message call) := by
  unfold sendInLoop
  by_cases hState : c.state = .kConnected
  · rw [if_neg (not_not.mpr hState)]
    have hAccept : ∀ (c' : TcpConnection) (n : ℕ), c'.sent = c.sent ++ message.take n →
        c'.outputBuffer = c.outputBuffer → c'.accepted = c.accepted ++ message →
        (n = 0 ∨ c.outputBuffer.readable = []) →
        ByteMove whole c (c'.bufferRest (message.drop n)) := by
      intro c' n hSent hBuffer hAccepted hDirect
      obtain ⟨hSent', hBuffer', hAccepted'⟩ := bufferRest_bytes c' (message.drop n)
      exact .accept hState message n (hSent'.trans hSent) (by rw [hBuffer', hBuffer])
        (hAccepted'.trans hAccepted) hDirect
    have hBuffered : ByteMove whole c ((c.handOver message 0).bufferRest message) := by
      simpa using hAccept (c.handOver message 0) 0 rfl rfl rfl (Or.inl rfl)
    by_cases hDirect : (!c.channel.isWriting && c.outputBuffer.readableBytes == 0) = true
    · rw [if_pos hDirect]
      have hEmpty : c.outputBuffer.readable = [] := by
        simp only [Bool.and_eq_true, beq_iff_eq] at hDirect
        rw [← List.length_eq_zero_iff, CheckedBuffer.length_readable, hDirect.2]
      cases call.result message.length with
      | ok nwrote =>
          have hQueued : ∀ c' : TcpConnection, c'.queueWriteComplete.sent = c'.sent ∧
              c'.queueWriteComplete.outputBuffer = c'.outputBuffer ∧
              c'.queueWriteComplete.accepted = c'.accepted := by
            intro c'
            unfold queueWriteComplete
            split <;> exact ⟨rfl, rfl, rfl⟩
          obtain ⟨hSent, hBuffer, hAccepted⟩ := hQueued (c.handOver message nwrote)
          show ByteMove whole c (if message.length - nwrote = 0 then _ else _)
          split
          · exact hAccept _ nwrote hSent hBuffer hAccepted (Or.inr hEmpty)
          · exact hAccept (c.handOver message nwrote) nwrote rfl rfl rfl (Or.inr hEmpty)
      | error errno =>
          show ByteMove whole c (if isFault errno call.logged then _ else _)
          split
          · exact .same rfl rfl rfl
          · exact hBuffered
    · rw [if_neg hDirect]
      exact hBuffered
  · rw [if_pos hState]
    exact .same rfl rfl rfl

theorem handleWrite_bytes (c : TcpConnection) (call : SysWrite) :
    ByteMove (WritesWhole c (.handleWrite call)) c (c.handleWrite call) := by
  by_cases hWriting : c.channel.isWriting = true
  · cases hResult : call.result c.outputBuffer.readableBytes with
    | error errno =>
        have hSame : c.handleWrite call = c := by
          simp [handleWrite, hWriting, CheckedBuffer.writeFd_error hResult]
        rw [hSame]
        exact .same rfl rfl rfl
    | ok n =>
        obtain ⟨hSent, hAccepted, hBuffer, -⟩ := handleWrite_ok hWriting hResult
        refine .write hWriting n hSent hBuffer hAccepted fun hWhole => ?_
        rw [CheckedBuffer.length_readable]
        exact (hWhole hWriting n hResult).imp_right Eq.ge
  · have hSame : c.handleWrite call = c := by simp [handleWrite, hWriting]
    rw [hSame]
    exact .same rfl rfl rfl

/-! ### The steps of an end -/

theorem EndMove.of_same {whole : Prop} {c c' : TcpConnection}
    (hSide : c'.outputSide = c.outputSide) (hAccepted : c'.accepted = c.accepted)
    (hLog : ∃ notes, c'.log = c.log ++ notes) : EndMove whole c c' where
  move := ⟨true, .of_eq hSide⟩
  bytes := .same (congrArg OutputSide.sent hSide) (congrArg OutputSide.buffered hSide) hAccepted
  log := hLog
  closed hState := Or.inl ((congrArg OutputSide.state hSide).symm.trans hState)

/-- An output function. -/
theorem EndMove.of_output {whole : Prop} {c c' : TcpConnection} {b : Bool}
    (hMove : OutputMove b c.outputSide c'.outputSide) (hBytes : ByteMove whole c c')
    (hOutput : c.OnlyOutput c') : EndMove whole c c' where
  move := ⟨b, hMove⟩
  bytes := hBytes
  log := hOutput.log_eq.imp fun _ hLog => hLog.1
  closed hState := by
    rcases hOutput.state_eq with hKept | ⟨-, hShutdown⟩
    · exact Or.inl (hKept.symm.trans hState)
    · rw [hShutdown] at hState
      cases hState

theorem EndMove.sendInLoop (whole : Prop) (c : TcpConnection) (message : List Byte)
    (call : SysWrite) : EndMove whole c (c.sendInLoop message call) :=
  .of_output (sendInLoop_move c message call) (sendInLoop_bytes whole c message call)
    (.sendInLoop c message call)

theorem EndMove.handleWrite (c : TcpConnection) (call : SysWrite) :
    EndMove (WritesWhole c (.handleWrite call)) c (c.handleWrite call) :=
  .of_output (handleWrite_move c call) (handleWrite_bytes c call) (.handleWrite c call)

theorem EndMove.shutdown (whole : Prop) (c : TcpConnection) : EndMove whole c c.shutdown := by
  unfold TcpConnection.shutdown
  split
  · next hLive =>
    have hSide := shutdownInLoop_outputSide c
    refine .of_output (b := false) ?_ (.same ?_ ?_ ?_) (.shutdownInLoop c)
    · rw [hSide]
      exact .shutdown (ConnState.ne_connecting_of_live hLive)
    · exact congrArg OutputSide.sent hSide
    · exact congrArg OutputSide.buffered hSide
    · unfold shutdownInLoop beginShutdown
      split_ifs <;> rfl
  · exact .of_same rfl rfl ⟨[], by simp⟩

theorem EndMove.handleClose (whole : Prop) (c : TcpConnection) :
    EndMove whole c c.handleClose := by
  have hSide := handleClose_outputSide c
  have hLog : ∃ notes, c.handleClose.log = c.log ++ .handleClose c.state :: notes := by
    unfold TcpConnection.handleClose report
    split
    · exact ⟨[.connectionCallback .kDisconnected], by
        simp [TcpConnection.beginClose, record]⟩
    · exact ⟨[], rfl⟩
  obtain ⟨notes, hNotes⟩ := hLog
  exact {
    move := ⟨false, hSide ▸ .close⟩
    bytes := .same (congrArg OutputSide.sent hSide) (congrArg OutputSide.buffered hSide)
      (handleClose_accepted c)
    log := ⟨_, hNotes⟩
    closed := fun _ => Or.inr ⟨.handleClose c.state, by simp [hNotes], rfl⟩ }

end TcpConnection

namespace Inbound

/-- The message callback changes the input buffer only. -/
theorem foldl_consume_conn (s : Inbound) (script : List ConsumeOp) :
    ∃ buffer, (script.foldl consume s).conn = { s.conn with inputBuffer := buffer } ∧
      (script.foldl consume s).stream = s.stream ∧
      (script.foldl consume s).finished = s.finished := by
  induction script generalizing s with
  | nil => exact ⟨s.conn.inputBuffer, rfl, rfl, rfl⟩
  | cons op script ih => exact ih (s.consume op)

theorem handleRead_endMove (whole : Prop) (s : Inbound) (limit : ℕ) (script : List ConsumeOp) :
    TcpConnection.EndMove whole s.conn (s.handleRead limit script).conn := by
  simp only [handleRead]
  split
  · exact .of_same rfl rfl ⟨[], by simp [TcpConnection.receive]⟩
  · have hClose := TcpConnection.EndMove.handleClose whole (s.conn.receive (s.call limit)).1
    have hSide := TcpConnection.handleClose_outputSide (s.conn.receive (s.call limit)).1
    exact ⟨hClose.move, .same (congrArg TcpConnection.OutputSide.sent hSide)
      (congrArg TcpConnection.OutputSide.buffered hSide) (TcpConnection.handleClose_accepted _),
      hClose.log, hClose.closed⟩
  · split
    · obtain ⟨buffer, hConn, -⟩ := foldl_consume_conn (s.received
        ((s.conn.receive (s.call limit)).1.record .messageCallback) (s.queue.take (_ + 1))) script
      rw [hConn]
      refine .of_same ?_ rfl ⟨[.messageCallback], rfl⟩
      exact TcpConnection.record_outputSide s.conn (by simp)
    · exact .of_same rfl rfl ⟨[], by simp [received, TcpConnection.receive]⟩

/-- A `HandleWrite` takes nothing or everything. -/
def Whole (s : Inbound) : InboundLabel → Prop
  | .handleWrite call => s.conn.WritesWhole (.handleWrite call)
  | _ => True

instance (s : Inbound) : (label : InboundLabel) → Decidable (s.Whole label)
  | .handleWrite call =>
      decidable_of_iff (s.conn.channel.isWriting = true →
        ∀ n ∈ (call.result s.conn.outputBuffer.readableBytes).toOption,
          n = 0 ∨ n = s.conn.outputBuffer.readableBytes) (by
        cases hResult : call.result s.conn.outputBuffer.readableBytes <;>
          simp [Whole, TcpConnection.WritesWhole, hResult, Except.toOption])
  | .arrive _ | .fin | .handleRead _ _ | .readError _ | .send _ _ | .shutdown | .handleClose =>
      inferInstanceAs (Decidable True)

/-- What an end does itself. -/
theorem own_endMove {s s' : Inbound} {label : InboundLabel} (hOwn : label.isOwn = true)
    (hStep : s.step label = some s') :
    TcpConnection.EndMove (s.Whole label) s.conn s'.conn ∧ s'.stream = s.stream ∧
      s'.finished = s.finished := by
  cases label with
  | arrive bytes => cases hOwn
  | fin => cases hOwn
  | handleRead limit script =>
      simp only [step] at hStep
      split at hStep
      case isFalse => cases hStep
      case isTrue hLimit =>
        obtain rfl := Option.some.inj hStep
        refine ⟨handleRead_endMove _ s limit script, ?_⟩
        rcases handleRead_cases s hLimit script with ⟨-, -, hSame⟩ |
          ⟨-, -, conn, -, -, -, hNext⟩ | ⟨bytes, conn, -, -, -, -, -, hNext⟩
        · rw [hSame]
          exact ⟨rfl, rfl⟩
        · rw [hNext]
          exact ⟨rfl, rfl⟩
        · rw [hNext]
          obtain ⟨buffer, -, hStream, hFinished⟩ := foldl_consume_conn (s.received conn bytes)
            (if s.conn.callbacks.message then script else [])
          exact ⟨hStream, hFinished⟩
  | readError errno =>
      obtain rfl := Option.some.inj hStep
      exact ⟨.of_same rfl rfl ⟨[], by simp [receive_error]⟩, rfl, rfl⟩
  | send message call =>
      obtain rfl := Option.some.inj hStep
      exact ⟨.sendInLoop _ s.conn message call, rfl, rfl⟩
  | shutdown =>
      obtain rfl := Option.some.inj hStep
      exact ⟨.shutdown _ s.conn, rfl, rfl⟩
  | handleWrite call =>
      obtain rfl := Option.some.inj hStep
      exact ⟨.handleWrite s.conn call, rfl, rfl⟩
  | handleClose =>
      obtain rfl := Option.some.inj hStep
      exact ⟨.handleClose _ s.conn, rfl, rfl⟩

end Inbound

/-! ## The invariant of one direction -/

namespace TcpConnection

/-- The output of an end. -/
structure Sound (c : TcpConnection) : Prop where
  mirrors : c.outputSide.Mirrors
  closed : c.state = .kDisconnected → ∃ event ∈ c.log, event.isClose
  /-- Bytes may be lost, but not changed, added or put in another order. -/
  thinned : (c.sent ++ c.outputBuffer.readable).Sublist c.accepted
  /-- An orderly shutdown waits for the buffer. -/
  drained : Orderly c.log → c.outputBuffer.readable = []

variable {whole : Prop} {c c' : TcpConnection}

theorem new_sound (callbacks : ConnCallbacks) (highWaterMark : ℕ) :
    (new callbacks highWaterMark).connectEstablished.Sound := by
  have hSide := connectEstablished_outputSide (new callbacks highWaterMark)
  have hSent : (new callbacks highWaterMark).connectEstablished.sent = [] :=
    congrArg OutputSide.sent hSide
  have hBuffer : (new callbacks highWaterMark).connectEstablished.outputBuffer.readable = [] :=
    (congrArg OutputSide.buffered hSide).trans (CheckedBuffer.readable_new Buffer.kInitialSize)
  refine ⟨?_, fun hState => ?_, ?_, fun _ => hBuffer⟩
  · have hMove : OutputMove false (new callbacks highWaterMark).outputSide
        (new callbacks highWaterMark).connectEstablished.outputSide := by
      rw [hSide]
      exact .establish rfl
    exact hMove.mirrors (new_mirrors callbacks highWaterMark)
  · have hConnected : (new callbacks highWaterMark).connectEstablished.state = .kConnected :=
      congrArg OutputSide.state hSide
    rw [hConnected] at hState
    cases hState
  · rw [hSent, hBuffer]
    exact List.nil_sublist _

/-- What a silent connection has sent is all that it will ever send. -/
theorem EndMove.sent_eq (hMove : EndMove whole c c') (hSound : c.Sound) (hSilent : c.Silent) :
    c'.sent = c.sent ∧ c'.outputBuffer.readable = c.outputBuffer.readable := by
  have hIdle : c.channel.isWriting = false ∧ c.state ≠ .kConnected := by
    rcases hSilent with hShut | hClosed
    · obtain ⟨hWriting, -, hState⟩ := hSound.mirrors.shut (List.count_pos_iff.mpr hShut)
      exact ⟨hWriting, hState⟩
    · exact ⟨hSound.mirrors.closed hClosed, by rw [hClosed]; decide⟩
  cases hMove.bytes with
  | same hSent hBuffer _ => exact ⟨hSent, hBuffer⟩
  | accept hState message n _ _ _ _ => exact absurd hState hIdle.2
  | write hWriting n _ _ _ _ =>
      rw [hIdle.1] at hWriting
      cases hWriting

theorem EndMove.silent (hMove : EndMove whole c c') (hSilent : c.Silent) : c'.Silent := by
  obtain ⟨⟨writes, hSide⟩, -, ⟨notes, hLog⟩, -⟩ := hMove
  rcases hSilent with hShut | hClosed
  · left
    rw [hLog]
    exact List.mem_append_left notes hShut
  · right
    have hRank := hSide.rank_le
    have hLast : ConnState.rank .kDisconnected ≤ c'.state.rank := by rw [← hClosed]; exact hRank
    revert hLast
    cases c'.state <;> decide

theorem EndMove.sent_append (hMove : EndMove whole c c') : ∃ more, c'.sent = c.sent ++ more := by
  cases hMove.bytes with
  | same hSent _ _ => exact ⟨[], by rw [hSent, List.append_nil]⟩
  | accept _ message n hSent _ _ _ => exact ⟨message.take n, hSent⟩
  | write _ n hSent _ _ _ => exact ⟨c.outputBuffer.readable.take n, hSent⟩

theorem ByteMove.thinned (hMove : ByteMove whole c c')
    (hOld : (c.sent ++ c.outputBuffer.readable).Sublist c.accepted) :
    (c'.sent ++ c'.outputBuffer.readable).Sublist c'.accepted := by
  cases hMove with
  | same hSent hBuffer hAccepted =>
      rw [hSent, hBuffer, hAccepted]
      exact hOld
  | accept _ message n hSent hBuffer hAccepted hDirect =>
      rw [hSent, hBuffer, hAccepted]
      have hMessage : c.sent ++ message.take n ++ (c.outputBuffer.readable ++ message.drop n) =
          c.sent ++ c.outputBuffer.readable ++ message := by
        rcases hDirect with rfl | hEmpty
        · simp
        · simp [hEmpty]
      rw [hMessage]
      exact hOld.append_right message
  | write _ n hSent hBuffer hAccepted _ =>
      rw [hSent, hBuffer, hAccepted]
      refine List.Sublist.trans ?_ hOld
      rw [List.append_assoc]
      refine List.Sublist.append_left ?_ c.sent
      have hDrop :
          (c.outputBuffer.readable.drop (n + n)).Sublist (c.outputBuffer.readable.drop n) := by
        rw [← List.drop_drop]
        exact List.drop_sublist n _
      calc (c.outputBuffer.readable.take n ++ c.outputBuffer.readable.drop (n + n)).Sublist
            (c.outputBuffer.readable.take n ++ c.outputBuffer.readable.drop n) :=
            hDrop.append_left _
        _ = c.outputBuffer.readable := List.take_append_drop n _

theorem ByteMove.conserved (hMove : ByteMove whole c c') (hWhole : whole)
    (hOld : c.sent ++ c.outputBuffer.readable = c.accepted) :
    c'.sent ++ c'.outputBuffer.readable = c'.accepted := by
  cases hMove with
  | same hSent hBuffer hAccepted =>
      rw [hSent, hBuffer, hAccepted]
      exact hOld
  | accept _ message n hSent hBuffer hAccepted hDirect =>
      rw [hSent, hBuffer, hAccepted, ← hOld]
      rcases hDirect with rfl | hEmpty
      · simp
      · simp [hEmpty]
  | write _ n hSent hBuffer hAccepted hTakes =>
      rw [hSent, hBuffer, hAccepted, ← hOld]
      rcases hTakes hWhole with rfl | hAll
      · simp
      · rw [List.take_of_length_le hAll, List.drop_of_length_le (by omega), List.append_nil]

/-- A shutdown does not close the connection. -/
theorem OutputMove.open_of_shutdown {writes : Bool} {o o' : OutputSide}
    (hMove : OutputMove writes o o') (hMore : o.shutdowns < o'.shutdowns)
    (hOpen : o.state ≠ .kDisconnected) : o'.state ≠ .kDisconnected := by
  have hShutdown : ∀ o : OutputSide, o.state ≠ .kDisconnected →
      o.shutdown.state ≠ .kDisconnected := by
    intro o hOpen
    simp only [OutputSide.shutdown]
    split
    · decide
    · exact hOpen
  cases hMove with
  | same => exact absurd hMore (lt_irrefl _)
  | establish _ => exact absurd hMore (lt_irrefl _)
  | buffer _ _ _ _ => exact absurd hMore (lt_irrefl _)
  | shutdown _ => exact hShutdown o hOpen
  | close => exact absurd hMore (lt_irrefl _)
  | partlyWritten _ _ _ _ _ => exact absurd hMore (lt_irrefl _)
  | drain _ _ sent =>
      unfold OutputSide.drain
      split
      · exact hShutdown _ hOpen
      · exact hOpen

/-- A history becomes orderly with a call of `ShutdownWrite`, before any close. -/
theorem Orderly.of_append {log notes : List ConnEvent} (hAfter : Orderly (log ++ notes))
    (hBefore : ¬ Orderly log) :
    (∀ event ∈ log, event.isClose = false) ∧ .shutdownWrite ∈ notes := by
  rw [Orderly, List.takeWhile_append] at hAfter
  split at hAfter
  · next hAll =>
    have hOpen : log.takeWhile (fun event => !event.isClose) = log :=
      (List.takeWhile_prefix _).eq_of_length hAll
    refine ⟨fun event hMem => ?_, ?_⟩
    · simpa using List.takeWhile_eq_self_iff.mp hOpen event hMem
    · refine (List.takeWhile_sublist _).subset ((List.mem_append.mp hAfter).resolve_left ?_)
      rwa [Orderly, hOpen] at hBefore
  · exact absurd hAfter hBefore

theorem EndMove.sound (hMove : EndMove whole c c') (hSound : c.Sound) : c'.Sound := by
  obtain ⟨writes, hSide⟩ := hMove.move
  obtain ⟨notes, hLog⟩ := hMove.log
  have hMirrors : c'.outputSide.Mirrors := hSide.mirrors hSound.mirrors
  refine ⟨hMirrors, fun hState => ?_, hMove.bytes.thinned hSound.thinned, fun hOrderly => ?_⟩
  · rcases hMove.closed hState with hClosed | hEvent
    · obtain ⟨event, hMem, hClose⟩ := hSound.closed hClosed
      exact ⟨event, by rw [hLog]; exact List.mem_append_left notes hMem, hClose⟩
    · exact hEvent
  · by_cases hBefore : Orderly c.log
    · have hShut : .shutdownWrite ∈ c.log := (List.takeWhile_sublist _).subset hBefore
      rw [(hMove.sent_eq hSound (Or.inl hShut)).2]
      exact hSound.drained hBefore
    · -- This step has called `ShutdownWrite` on a connection that is not closed.
      rw [hLog] at hOrderly
      obtain ⟨hNoClose, hShut⟩ := hOrderly.of_append hBefore
      have hOpen : c.state ≠ .kDisconnected := by
        intro hClosed
        obtain ⟨event, hMem, hClose⟩ := hSound.closed hClosed
        rw [hNoClose event hMem] at hClose
        cases hClose
      have hMore : c.shutdowns < c'.shutdowns := by
        have hCount := List.count_pos_iff.mpr hShut
        rw [shutdowns, shutdowns, hLog, List.count_append]
        omega
      have hStill : c'.state ≠ .kDisconnected := hSide.open_of_shutdown hMore hOpen
      obtain ⟨-, hStarted, hNotOpen⟩ := hMirrors.shut (Nat.zero_lt_of_lt hMore)
      refine hSide.buffered_of_shutdown hSound.mirrors hMore ?_
      revert hStill hStarted hNotOpen
      show c'.state ≠ _ → c'.state ≠ _ → c'.state ≠ _ → c'.state = _
      cases c'.state <;> simp

end TcpConnection

namespace Duplex

/-- What holds of the direction from this end to the other. -/
structure Flows (d : Duplex) (side : Bool) : Prop where
  sound : (d.ends side).conn.Sound
  piped : (d.ends side).conn.sent = (d.ends (!side)).stream ++ d.wire side
  finished : (d.ends (!side)).finished = true → d.wire side = [] ∧ (d.ends side).conn.Silent

theorem new_flows (callbacks : Bool → ConnCallbacks) (highWaterMark : Bool → ℕ) (side : Bool) :
    (new callbacks highWaterMark).Flows side where
  sound := TcpConnection.new_sound _ _
  piped := congrArg TcpConnection.OutputSide.sent
    (TcpConnection.connectEstablished_outputSide (TcpConnection.new _ _))
  finished hFinished := by cases hFinished

/-- An end goes on: its own direction. -/
theorem Flows.setOwn {d : Duplex} {side : Bool} (hFlows : d.Flows side) {label : InboundLabel}
    (hOwn : label.isOwn = true) {next : Inbound} (hStep : (d.ends side).step label = some next) :
    (d.setOwn side next).Flows side := by
  obtain ⟨hMove, -, -⟩ := Inbound.own_endMove hOwn hStep
  obtain ⟨more, hSent⟩ := hMove.sent_append
  have hEnds : (d.setOwn side next).ends side = next := Function.update_self _ _ _
  have hOther : (d.setOwn side next).ends (!side) = d.ends (!side) :=
    Function.update_of_ne (by simp) _ _
  have hWire : (d.setOwn side next).wire side = d.wire side ++ more := by
    simp [Duplex.setOwn, hSent]
  refine ⟨?_, ?_, ?_⟩
  · rw [hEnds]
    exact hMove.sound hFlows.sound
  · rw [hEnds, hOther, hWire, hSent, hFlows.piped, List.append_assoc]
  · rw [hOther, hWire, hEnds]
    intro hFinished
    obtain ⟨hEmpty, hSilent⟩ := hFlows.finished hFinished
    have hNone : more = [] := by
      have hSame := (hMove.sent_eq hFlows.sound hSilent).1
      rw [hSent] at hSame
      exact List.append_right_eq_self.mp hSame
    exact ⟨by rw [hEmpty, hNone]; rfl, hMove.silent hSilent⟩

/-- An end goes on: the direction towards it. -/
theorem Flows.setOwn_other {d : Duplex} {side : Bool} (hFlows : d.Flows (!side))
    {label : InboundLabel} (hOwn : label.isOwn = true) {next : Inbound}
    (hStep : (d.ends side).step label = some next) : (d.setOwn side next).Flows (!side) := by
  obtain ⟨-, hStream, hFinished⟩ := Inbound.own_endMove hOwn hStep
  have hEnds : (d.setOwn side next).ends (!side) = d.ends (!side) :=
    Function.update_of_ne (by simp) _ _
  have hOther : (d.setOwn side next).ends (!!side) = next := by
    simp [Duplex.setOwn]
  have hWire : (d.setOwn side next).wire (!side) = d.wire (!side) :=
    Function.update_of_ne (by simp) _ _
  obtain ⟨hSound, hPiped, hEnd⟩ := hFlows
  rw [Bool.not_not] at hPiped hEnd
  refine ⟨?_, ?_, ?_⟩
  · rw [hEnds]
    exact hSound
  · rw [hEnds, hOther, hWire, hStream]
    exact hPiped
  · rw [hEnds, hOther, hWire, hFinished]
    exact hEnd

/-- The other end receives: this direction. -/
theorem Flows.setOther {d : Duplex} {side : Bool} (hFlows : d.Flows side) {next : Inbound}
    {rest : List Byte} (hPiped : (d.ends (!side)).stream ++ d.wire side = next.stream ++ rest)
    (hFinished : next.finished = true → rest = [] ∧ (d.ends side).conn.Silent) :
    (d.setOther side next rest).Flows side := by
  have hEnds : (d.setOther side next rest).ends side = d.ends side :=
    Function.update_of_ne (by simp) _ _
  have hOther : (d.setOther side next rest).ends (!side) = next := Function.update_self _ _ _
  have hWire : (d.setOther side next rest).wire side = rest := Function.update_self _ _ _
  refine ⟨?_, ?_, ?_⟩
  · rw [hEnds]
    exact hFlows.sound
  · rw [hEnds, hOther, hWire, hFlows.piped, hPiped]
  · rw [hEnds, hOther, hWire]
    exact hFinished

/-- The other end receives: its own direction. -/
theorem Flows.setOther_other {d : Duplex} {side : Bool} (hFlows : d.Flows (!side))
    {next : Inbound} (rest : List Byte) (hConn : next.conn = (d.ends (!side)).conn) :
    (d.setOther side next rest).Flows (!side) := by
  have hEnds : (d.setOther side next rest).ends (!side) = next := Function.update_self _ _ _
  have hOther : (d.setOther side next rest).ends (!!side) = d.ends (!!side) :=
    Function.update_of_ne (by simp) _ _
  have hWire : (d.setOther side next rest).wire (!side) = d.wire (!side) :=
    Function.update_of_ne (by simp) _ _
  obtain ⟨hSound, hPiped, hEnd⟩ := hFlows
  refine ⟨?_, ?_, ?_⟩
  · rw [hEnds, hConn]
    exact hSound
  · rw [hEnds, hOther, hWire, hConn]
    exact hPiped
  · rw [hEnds, hOther, hWire, hConn]
    exact hEnd

/-- A statement about both directions. -/
theorem forall_side {P : Bool → Prop} (side : Bool) (hThis : P side) (hOther : P (!side)) :
    ∀ each, P each := by
  intro each
  by_cases hEach : each = side
  · rw [hEach]
    exact hThis
  · rw [Bool.eq_not_of_ne hEach]
    exact hOther

theorem arrive_eq_some {s next : Inbound} {bytes : List Byte}
    (hStep : s.step (.arrive bytes) = some next) :
    s.finished = false ∧
      next = { s with queue := s.queue ++ bytes, stream := s.stream ++ bytes } := by
  simp only [Inbound.step] at hStep
  split at hStep
  · cases hStep
  · next hOpen => exact ⟨by simpa using hOpen, (Option.some.inj hStep).symm⟩

theorem step_flows {d d' : Duplex} {label : DuplexLabel} (hFlows : ∀ side, d.Flows side)
    (hStep : step d label = some d') : ∀ side, d'.Flows side := by
  cases label with
  | own side own =>
      simp only [step] at hStep
      split at hStep
      · next hOwn =>
        obtain ⟨next, hNext, rfl⟩ := Option.map_eq_some_iff.mp hStep
        exact forall_side side ((hFlows side).setOwn hOwn hNext)
          ((hFlows !side).setOwn_other hOwn hNext)
      · cases hStep
  | deliver side n =>
      obtain ⟨next, hNext, rfl⟩ := Option.map_eq_some_iff.mp hStep
      obtain ⟨hOpen, rfl⟩ := arrive_eq_some hNext
      refine forall_side side ((hFlows side).setOther ?_ ?_) ((hFlows !side).setOther_other _ rfl)
      · rw [List.append_assoc, List.take_append_drop]
      · intro hFinished
        rw [show _ = false from hOpen] at hFinished
        cases hFinished
  | fin side =>
      simp only [step] at hStep
      split at hStep
      · next hGuard =>
        obtain ⟨hEmpty, hSilent⟩ := hGuard
        obtain ⟨next, hNext, rfl⟩ := Option.map_eq_some_iff.mp hStep
        obtain rfl := Option.some.inj hNext
        refine forall_side side ((hFlows side).setOther ?_ fun _ => ⟨rfl, hSilent⟩)
          ((hFlows !side).setOther_other _ rfl)
        rw [hEmpty]
      · cases hStep

/-- An end takes a step of its own when the label says so, and otherwise keeps its output. -/
theorem step_ends {d d' : Duplex} {label : DuplexLabel} (hStep : step d label = some d')
    (side : Bool) :
    d'.ends side = d.ends side ∨ ∃ event, (d.ends side).step event = some (d'.ends side) ∧
      (event.isOwn = true ∧ label = .own side event ∨
        event.isOwn = false ∧ (d'.ends side).conn = (d.ends side).conn) := by
  revert side
  cases label with
  | own side own =>
      simp only [step] at hStep
      split at hStep
      · next hOwn =>
        obtain ⟨next, hNext, rfl⟩ := Option.map_eq_some_iff.mp hStep
        refine forall_side side (Or.inr ⟨own, ?_, Or.inl ⟨hOwn, rfl⟩⟩) (Or.inl ?_)
        · simpa [setOwn] using hNext
        · simp [setOwn]
      · cases hStep
  | deliver side n =>
      obtain ⟨next, hNext, rfl⟩ := Option.map_eq_some_iff.mp hStep
      obtain ⟨-, rfl⟩ := arrive_eq_some hNext
      refine forall_side side (Or.inl ?_)
        (Or.inr ⟨.arrive ((d.wire side).take n), ?_, Or.inr ⟨rfl, ?_⟩⟩)
      · simp [setOther]
      · simpa [setOther] using hNext
      · simp [setOther]
  | fin side =>
      simp only [step] at hStep
      split at hStep
      · obtain ⟨next, hNext, rfl⟩ := Option.map_eq_some_iff.mp hStep
        obtain rfl := Option.some.inj hNext
        refine forall_side side (Or.inl ?_) (Or.inr ⟨.fin, ?_, Or.inr ⟨rfl, ?_⟩⟩)
        · simp [setOther]
        · simp [setOther, Inbound.step]
        · simp [setOther]
      · cases hStep

/-! ## Runs -/

/-- No `HandleWrite` of this end takes some and not all of its buffered bytes. -/
def WritesWhole (side : Bool) (d : Duplex) : DuplexLabel → Prop
  | .own each label => each = side → (d.ends side).Whole label
  | _ => True

instance (side : Bool) (d : Duplex) : (label : DuplexLabel) → Decidable (WritesWhole side d label)
  | .own each label => inferInstanceAs (Decidable (each = side → (d.ends side).Whole label))
  | .deliver _ _ | .fin _ => inferInstanceAs (Decidable True)

/-- What this end has accepted is with its kernel or in its buffer. -/
def Conserved (d : Duplex) (side : Bool) : Prop :=
  (d.ends side).conn.sent ++ (d.ends side).conn.outputBuffer.readable =
    (d.ends side).conn.accepted

theorem step_conserved {d d' : Duplex} {label : DuplexLabel} {side : Bool}
    (hConserved : d.Conserved side) (hWhole : WritesWhole side d label)
    (hStep : step d label = some d') : d'.Conserved side := by
  have hKept : (d'.ends side).conn = (d.ends side).conn → d'.Conserved side := by
    intro hConn
    rw [Conserved, hConn]
    exact hConserved
  rcases step_ends hStep side with hEnds | ⟨event, hNext, ⟨hOwn, rfl⟩ | ⟨-, hConn⟩⟩
  · exact hKept (congrArg Inbound.conn hEnds)
  · exact (Inbound.own_endMove hOwn hNext).1.bytes.conserved (hWhole rfl) hConserved
  · exact hKept hConn

theorem new_conserved (callbacks : Bool → ConnCallbacks) (highWaterMark : Bool → ℕ)
    (side : Bool) : (new callbacks highWaterMark).Conserved side :=
  (TcpConnection.established_outputInv (callbacks side) (highWaterMark side)).bytes

variable {callbacks : Bool → ConnCallbacks} {highWaterMark : Bool → ℕ}
  {labels : List DuplexLabel} {d : Duplex}

theorem exec_flows (hRun : exec step (new callbacks highWaterMark) labels = some d)
    (side : Bool) : d.Flows side :=
  exec_invariant (fun d => ∀ side, d.Flows side) (fun _ _ _ => step_flows)
    (new_flows callbacks highWaterMark) hRun side

theorem step_intact {d d' : Duplex} {label : DuplexLabel} {side : Bool}
    {callbacks : ConnCallbacks} (hIntact : Inbound.Intact callbacks (d.ends side))
    (hStep : step d label = some d') : Inbound.Intact callbacks (d'.ends side) := by
  rcases step_ends hStep side with hEnds | ⟨event, hNext, -⟩
  · rw [hEnds]
    exact hIntact
  · exact Inbound.step_intact hIntact hNext

theorem exec_intact (hRun : exec step (new callbacks highWaterMark) labels = some d)
    (side : Bool) : Inbound.Intact (callbacks side) (d.ends side) :=
  exec_invariant (fun d : Duplex => Inbound.Intact (callbacks side) (d.ends side))
    (fun _ _ _ => step_intact) (Inbound.new_intact _ _) hRun

/-- What one end has handed to its kernel is at the other end or under way. -/
theorem exec_sent (hRun : exec step (new callbacks highWaterMark) labels = some d)
    (side : Bool) :
    (d.ends side).conn.sent = (d.ends (!side)).consumed ++
      (d.ends (!side)).conn.inputBuffer.readable ++ (d.ends (!side)).queue ++ d.wire side := by
  have hIntact := exec_intact hRun (!side)
  rw [(exec_flows hRun side).piped, hIntact.read, hIntact.kept]

theorem exec_conserved {side : Bool}
    (hMeets : Meets step (WritesWhole side) (new callbacks highWaterMark) labels)
    (hRun : exec step (new callbacks highWaterMark) labels = some d) : d.Conserved side :=
  exec_invariant_of_meets (fun d : Duplex => d.Conserved side)
    (fun _ _ _ hOld hWhole hStep => step_conserved hOld hWhole hStep)
    (new_conserved callbacks highWaterMark side) hMeets hRun

/-- In every run of two connected ends, for each direction: what one end has handed to its
kernel is what the other's callback has taken, followed by its input buffer, its kernel's
queue and the bytes under way.  Of the accepted bytes some may be missing, but none is
changed, added or out of order; and none is missing when no `HandleWrite` takes some and
not all of the buffered bytes.  The other end meets the end of the stream only after all of
these bytes, from an end that will send no more; and when that end had shut down before it
was closed, it has received every accepted byte. -/
theorem duplex_delivers_in_order
    (hRun : exec step (new callbacks highWaterMark) labels = some d) (side : Bool) :
    (d.ends side).conn.sent = (d.ends (!side)).consumed ++
        (d.ends (!side)).conn.inputBuffer.readable ++ (d.ends (!side)).queue ++ d.wire side ∧
      ((d.ends side).conn.sent ++ (d.ends side).conn.outputBuffer.readable).Sublist
        (d.ends side).conn.accepted ∧
      (Meets step (WritesWhole side) (new callbacks highWaterMark) labels →
        (d.ends side).conn.accepted = (d.ends (!side)).consumed ++
          (d.ends (!side)).conn.inputBuffer.readable ++ (d.ends (!side)).queue ++ d.wire side ++
          (d.ends side).conn.outputBuffer.readable) ∧
      ((d.ends (!side)).eof = true → (d.ends side).conn.Silent ∧
        (d.ends side).conn.sent =
          (d.ends (!side)).consumed ++ (d.ends (!side)).conn.inputBuffer.readable ∧
        (Meets step (WritesWhole side) (new callbacks highWaterMark) labels →
          TcpConnection.Orderly (d.ends side).conn.log →
          (d.ends side).conn.accepted =
            (d.ends (!side)).consumed ++ (d.ends (!side)).conn.inputBuffer.readable)) := by
  have hFlows := exec_flows hRun side
  have hSent := exec_sent hRun side
  refine ⟨hSent, hFlows.sound.thinned, fun hMeets => ?_, fun hEof => ?_⟩
  · rw [← exec_conserved hMeets hRun, hSent]
  · obtain ⟨hFinished, hQueue⟩ := (exec_intact hRun (!side)).at_end hEof
    obtain ⟨hWire, hSilent⟩ := hFlows.finished hFinished
    rw [hQueue, hWire, List.append_nil, List.append_nil] at hSent
    refine ⟨hSilent, hSent, fun hMeets hOrderly => ?_⟩
    rw [← exec_conserved hMeets hRun, hFlows.sound.drained hOrderly, List.append_nil, hSent]

/-- One end sends three bytes, of which the kernel takes one at first, and shuts down; the
other reads them in two pieces and meets the end of the stream. -/
def shutdownAfterSend : List DuplexLabel :=
  [.own false (.send [1, 2, 3] (.room 1)), .own false .shutdown, .deliver false 1,
    .own true (.handleRead 9 [.retrieveAll]), .own false (.handleWrite (.room 2)),
    .deliver false 2, .fin false, .own true (.handleRead 9 []), .own true (.handleRead 9 [])]

theorem duplex_delivers_in_order_shutdownAfterSend :
    ∃ d, exec step (new (fun _ => ⟨false, true, false, false, .unset⟩) fun _ => 0)
        shutdownAfterSend = some d ∧
      (d.ends true).eof = true ∧ (d.ends true).consumed = [1] ∧
      (d.ends false).conn.accepted =
        (d.ends true).consumed ++ (d.ends true).conn.inputBuffer.readable := by
  have hEnd : (exec step (new (fun _ => ⟨false, true, false, false, .unset⟩) fun _ => 0)
      shutdownAfterSend).map (fun d => ((d.ends true).eof, (d.ends true).consumed,
        decide (TcpConnection.Orderly (d.ends false).conn.log))) = some (true, [1], true) := by
    decide +kernel
  obtain ⟨d, hRun, hSeen⟩ := Option.map_eq_some_iff.mp hEnd
  obtain ⟨hEof, hConsumed, hOrderly⟩ : _ ∧ _ ∧ _ := by simpa using hSeen
  obtain ⟨-, -, hAll⟩ := (duplex_delivers_in_order hRun false).2.2.2 hEof
  exact ⟨d, hRun, hEof, hConsumed, hAll (by decide +kernel) hOrderly⟩

end Duplex
end SolarNet
