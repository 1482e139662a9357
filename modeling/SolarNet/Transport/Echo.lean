import SolarNet.Transport.Duplex
import SolarNet.Transport.SendOrder

/-!
# An echo server

The message callback of `examples/example_tcp_server.cpp` is `conn->Send(buf)`: it hands the
input buffer to `Send(Buffer*)`, which sends what is readable and empties the buffer.  Here
one end of a `Duplex` is such a server and the other end is any client.

A read of the server is a `HandleRead` that takes everything, followed by a `Send` of what
it took.  So what is proved about the two ends holds here too, and the file adds what the
callback contributes: the server accepts what it has consumed, and the bytes of the client
go round.
-/

namespace SolarNet

open Lib

namespace TcpConnection

/-! ### The input buffer and the output functions -/

def withInput (c : TcpConnection) (input : CheckedBuffer) : TcpConnection :=
  { c with inputBuffer := input }

variable (c : TcpConnection) (input : CheckedBuffer)

theorem queueWriteComplete_withInput :
    (c.withInput input).queueWriteComplete = c.queueWriteComplete.withInput input := by
  by_cases hSet : c.callbacks.writeComplete = true
  · simp [queueWriteComplete, withInput, hSet, record]
  · simp [queueWriteComplete, withInput, hSet]

theorem queueHighWaterMark_withInput (oldLen newLen : ℕ) :
    (c.withInput input).queueHighWaterMark oldLen newLen =
      (c.queueHighWaterMark oldLen newLen).withInput input := by
  by_cases hCrossed : oldLen < c.highWaterMark ∧ newLen ≥ c.highWaterMark ∧
      c.callbacks.highWaterMark = true
  · simp [queueHighWaterMark, withInput, hCrossed, record]
  · exact (if_neg hCrossed).trans (congrArg (withInput · input) (if_neg hCrossed).symm)

theorem wantWrite_withInput : (c.withInput input).wantWrite = c.wantWrite.withInput input := by
  by_cases hWriting : c.channel.isWriting = true
  · simp [wantWrite, withInput, hWriting]
  · simp [wantWrite, withInput, hWriting]

theorem bufferRest_withInput (rest : List Byte) :
    (c.withInput input).bufferRest rest = (c.bufferRest rest).withInput input := by
  unfold bufferRest
  split
  · rfl
  · rw [← wantWrite_withInput, ← queueHighWaterMark_withInput]
    rfl

/-- `SendInLoop` does not look at the input buffer. -/
theorem sendInLoop_withInput (message : List Byte) (call : SysWrite) :
    (c.withInput input).sendInLoop message call =
      (c.sendInLoop message call).withInput input := by
  have hRest : ∀ (n : ℕ) (rest : List Byte),
      ((c.withInput input).handOver message n).bufferRest rest =
        ((c.handOver message n).bufferRest rest).withInput input :=
    fun n rest => bufferRest_withInput (c.handOver message n) input rest
  unfold sendInLoop
  change (if c.state ≠ .kConnected then c.withInput input
    else if !c.channel.isWriting && c.outputBuffer.readableBytes == 0 then _ else _) = _
  split
  · rfl
  · split
    · cases call.result message.length with
      | ok nwrote =>
          dsimp only
          split
          · rw [← bufferRest_withInput, ← queueWriteComplete_withInput]
            rfl
          · exact hRest nwrote _
      | error errno =>
          dsimp only
          split
          · rfl
          · exact hRest 0 message
    · exact hRest 0 message

end TcpConnection

/-- Reading and sending, which the echo server does together in its message callback. -/
def InboundLabel.exchanges : InboundLabel → Bool
  | .handleRead _ _ | .send _ _ => true
  | _ => false

theorem InboundLabel.exchanges_of_not_isOwn {label : InboundLabel}
    (hNetwork : label.isOwn = false) : label.exchanges = false := by
  cases label <;> first | rfl | cases hNetwork

namespace Inbound

/-- `Send(Buffer*)` on the loop thread, with the input buffer of the connection. -/
def sendInput (s : Inbound) (call : SysWrite) : Inbound :=
  if s.conn.inputBuffer.readableBytes = 0 then s
  else
    let sent := { s with conn := s.conn.sendInLoop s.conn.inputBuffer.readable call }
    sent.consume .retrieveAll

/-- `HandleRead` with a message callback that calls `Send(buf)`. -/
def echoRead (s : Inbound) (limit : ℕ) (call : SysWrite) : Inbound :=
  let (conn, result) := s.conn.receive (s.call limit)
  match result with
  | .error _ => { s with conn := conn }
  | .ok 0 => { s with conn := conn.handleClose, eof := true }
  | .ok (n + 1) =>
      (s.received (conn.record .messageCallback) (s.queue.take (n + 1))).sendInput call

/-- What a read of the echo server hands to `Send`. -/
def echoMessage (s : Inbound) (limit : ℕ) : List Byte :=
  (s.handleRead limit [.retrieveAll]).consumed.drop s.consumed.length

theorem consume_retrieveAll (s : Inbound) :
    (s.consume .retrieveAll).consumed = s.consumed ++ s.conn.inputBuffer.readable ∧
      (s.consume .retrieveAll).conn.inputBuffer.readable = [] := by
  have hEmpty : (s.conn.inputBuffer.consume .retrieveAll).1.readable = [] :=
    Buffer.retrieveAll_readable s.conn.inputBuffer.1
  have hNone : (s.conn.inputBuffer.consume .retrieveAll).1.readableBytes = 0 := by
    rw [← CheckedBuffer.length_readable, hEmpty, List.length_nil]
  refine ⟨?_, hEmpty⟩
  show s.consumed ++ s.conn.inputBuffer.readable.take (s.conn.inputBuffer.readableBytes -
    (s.conn.inputBuffer.consume .retrieveAll).1.readableBytes) = _
  rw [hNone, Nat.sub_zero, ← CheckedBuffer.length_readable, List.take_length]

/-- Sending before the buffer is emptied is sending what was in it. -/
theorem sendInput_eq (s : Inbound) (call : SysWrite)
    (hSome : s.conn.inputBuffer.readableBytes ≠ 0) :
    s.sendInput call =
      { s.consume .retrieveAll with
        conn := (s.consume .retrieveAll).conn.sendInLoop s.conn.inputBuffer.readable call } := by
  have hInput : (s.conn.sendInLoop s.conn.inputBuffer.readable call).inputBuffer =
      s.conn.inputBuffer := sendInLoop_inputBuffer _ _ _
  rw [sendInput, if_neg hSome]
  simp only [consume, hInput]
  congr 1
  exact (TcpConnection.sendInLoop_withInput s.conn _ _ call).symm

/-- After a read that found bytes there is something in the input buffer. -/
theorem readableBytes_of_receive {s : Inbound} {limit n : ℕ}
    (hResult : (s.conn.receive (s.call limit)).2 = .ok (n + 1)) :
    (s.conn.receive (s.call limit)).1.inputBuffer.readableBytes ≠ 0 := by
  unfold call at hResult ⊢
  split at hResult
  · rw [receive_error] at hResult
    cases hResult
  · next hSome =>
    rw [if_neg hSome, ← CheckedBuffer.length_readable]
    obtain ⟨hReadable, hLength⟩ := receive_data s.conn (s.queue.take limit)
    rw [hLength] at hResult
    have hCount := Except.ok.inj hResult
    rw [hReadable, List.length_append]
    omega

/-- A read of the echo server is a `HandleRead` that takes everything and, if there was
something to take, a `Send`. -/
theorem echoRead_eq {s : Inbound} (hMessage : s.conn.callbacks.message = true) (limit : ℕ)
    (call : SysWrite) :
    s.echoRead limit call =
      if s.echoMessage limit = [] then s.handleRead limit [.retrieveAll]
      else
        { s.handleRead limit [.retrieveAll] with
          conn := (s.handleRead limit [.retrieveAll]).conn.sendInLoop
            (s.echoMessage limit) call } := by
  have hQuiet : ∀ next : Inbound, s.handleRead limit [.retrieveAll] = next →
      next.consumed = s.consumed → s.echoMessage limit = [] := by
    rintro next rfl hSame
    rw [echoMessage, hSame, List.drop_length]
  unfold echoRead
  dsimp only
  split
  · next errno hResult =>
    have hRead : s.handleRead limit [.retrieveAll] =
        { s with conn := (s.conn.receive (s.call limit)).1 } := by
      simp only [handleRead, hResult]
    rw [if_pos (hQuiet _ hRead rfl), hRead]
  · next hResult =>
    have hRead : s.handleRead limit [.retrieveAll] =
        { s with conn := (s.conn.receive (s.call limit)).1.handleClose, eof := true } := by
      simp only [handleRead, hResult]
    rw [if_pos (hQuiet _ hRead rfl), hRead]
  · next n hResult =>
    have hRead : s.handleRead limit [.retrieveAll] =
        (s.received ((s.conn.receive (s.call limit)).1.record .messageCallback)
          (s.queue.take (n + 1))).consume .retrieveAll := by
      simp only [handleRead, hResult, hMessage, if_true, List.foldl_cons, List.foldl_nil]
    have hSome := readableBytes_of_receive hResult
    generalize hRead' : s.received ((s.conn.receive (s.call limit)).1.record .messageCallback)
      (s.queue.take (n + 1)) = t at hRead
    have hConn : t.conn.inputBuffer = (s.conn.receive (s.call limit)).1.inputBuffer := by
      rw [← hRead']
      rfl
    have hConsumed : t.consumed = s.consumed := by
      rw [← hRead']
      rfl
    rw [← hConn] at hSome
    have hTaken : s.echoMessage limit = t.conn.inputBuffer.readable := by
      rw [echoMessage, hRead, (consume_retrieveAll t).1, hConsumed, List.drop_left]
    have hNonempty : s.echoMessage limit ≠ [] := by
      rw [hTaken, ← List.length_pos_iff, CheckedBuffer.length_readable]
      omega
    rw [if_neg hNonempty, hRead, hTaken]
    exact sendInput_eq t call hSome

/-- `HandleRead` leaves the output alone; at the end of the stream it closes. -/
theorem handleRead_output (s : Inbound) (limit : ℕ) (script : List ConsumeOp) :
    (s.handleRead limit script).conn.sent = s.conn.sent ∧
      (s.handleRead limit script).conn.accepted = s.conn.accepted := by
  simp only [handleRead]
  split
  · exact ⟨rfl, rfl⟩
  · exact ⟨congrArg TcpConnection.OutputSide.sent (TcpConnection.handleClose_outputSide _),
      TcpConnection.handleClose_accepted _⟩
  · split
    · obtain ⟨buffer, hConn, -⟩ := foldl_consume_conn (s.received
        ((s.conn.receive (s.call limit)).1.record .messageCallback) (s.queue.take (_ + 1))) script
      rw [hConn]
      exact ⟨rfl, rfl⟩
    · exact ⟨rfl, rfl⟩

/-- A read that found bytes does not change the state. -/
theorem handleRead_state {s : Inbound} {limit : ℕ} (hMessage : s.conn.callbacks.message = true)
    (hSome : s.echoMessage limit ≠ []) :
    (s.handleRead limit [.retrieveAll]).conn.state = s.conn.state := by
  revert hSome
  simp only [echoMessage, handleRead]
  split
  · exact fun _ => rfl
  · simp
  · rw [if_pos hMessage]
    exact fun _ => rfl

/-! ### What the server accepts -/

/-- The bytes that the server has taken in a step are the bytes that it accepts, or, when
the step is not `faithful`, they may be given up together. -/
structure EchoMove (faithful : Prop) (s s' : Inbound) : Prop where
  empty : s'.conn.inputBuffer.readable = []
  taken : ∃ message, s'.consumed = s.consumed ++ message ∧
    (s'.conn.accepted = s.conn.accepted ++ message ∨
      s'.conn.accepted = s.conn.accepted ∧ (faithful → message = []))

theorem EchoMove.of_same {faithful : Prop} {s s' : Inbound}
    (hEmpty : s.conn.inputBuffer.readable = [])
    (hBuffer : s'.conn.inputBuffer = s.conn.inputBuffer) (hConsumed : s'.consumed = s.consumed)
    (hAccepted : s'.conn.accepted = s.conn.accepted) : EchoMove faithful s s' where
  empty := by rw [hBuffer, hEmpty]
  taken := ⟨[], by rw [hConsumed, List.append_nil], Or.inr ⟨hAccepted, fun _ => rfl⟩⟩

theorem handleRead_retrieveAll {s : Inbound} (hMessage : s.conn.callbacks.message = true)
    (hEmpty : s.conn.inputBuffer.readable = []) {limit : ℕ} (hLimit : 0 < limit) :
    (s.handleRead limit [.retrieveAll]).conn.inputBuffer.readable = [] ∧
      (s.handleRead limit [.retrieveAll]).consumed = s.consumed ++ s.echoMessage limit := by
  have hTaken : ∀ message, (s.handleRead limit [.retrieveAll]).consumed = s.consumed ++ message →
      (s.handleRead limit [.retrieveAll]).consumed = s.consumed ++ s.echoMessage limit := by
    intro message hConsumed
    rw [echoMessage, hConsumed, List.drop_left]
  rcases handleRead_cases s hLimit [.retrieveAll] with ⟨-, -, hSame⟩ |
    ⟨-, -, conn, hBuffer, -, -, hNext⟩ | ⟨bytes, conn, -, -, -, -, -, hNext⟩
  · refine ⟨by rw [hSame, hEmpty], hTaken [] ?_⟩
    rw [hSame, List.append_nil]
  · refine ⟨by rw [hNext]; exact hBuffer.trans hEmpty, hTaken [] ?_⟩
    rw [hNext, List.append_nil]
  · rw [if_pos hMessage, List.foldl_cons, List.foldl_nil] at hNext
    obtain ⟨hConsumed, hNone⟩ := consume_retrieveAll (s.received conn bytes)
    refine ⟨by rw [hNext, hNone], hTaken conn.inputBuffer.readable ?_⟩
    rw [hNext, hConsumed]
    rfl

theorem echoRead_echoMove {s : Inbound} (hMessage : s.conn.callbacks.message = true)
    (hEmpty : s.conn.inputBuffer.readable = []) {limit : ℕ} (hLimit : 0 < limit)
    (call : SysWrite) :
    EchoMove (s.conn.state = .kConnected ∧ call.harmless = true) s (s.echoRead limit call) := by
  obtain ⟨hNone, hConsumed⟩ := handleRead_retrieveAll hMessage hEmpty hLimit
  obtain ⟨-, hAccepted⟩ := handleRead_output s limit [.retrieveAll]
  rw [echoRead_eq hMessage]
  split
  · next hQuiet =>
    rw [hQuiet] at hConsumed
    exact ⟨hNone, [], hConsumed, Or.inr ⟨hAccepted, fun _ => rfl⟩⟩
  · next hSome =>
    refine ⟨by rw [sendInLoop_inputBuffer, hNone], s.echoMessage limit, hConsumed, ?_⟩
    have hState := handleRead_state hMessage hSome
    dsimp only
    by_cases hOpen : s.conn.state = .kConnected
    · rcases (SendLoop.sendInLoop_accepted (hState.trans hOpen) (s.echoMessage limit) call).2 with
        hTaken | ⟨hFault, hGone⟩
      · exact Or.inl (hTaken.trans (by rw [hAccepted]))
      · refine Or.inr ⟨hGone.trans hAccepted, fun hFaithful => ?_⟩
        rw [hFaithful.2] at hFault
        cases hFault
    · refine Or.inr ⟨?_, fun hFaithful => absurd hFaithful.1 hOpen⟩
      rw [TcpConnection.sendInLoop, if_pos (by rwa [hState]), hAccepted]

/-- What the loop thread does at the server besides reading. -/
theorem step_echoMove {s s' : Inbound} {label : InboundLabel} (faithful : Prop)
    (hQuiet : label.exchanges = false) (hEmpty : s.conn.inputBuffer.readable = [])
    (hStep : s.step label = some s') : EchoMove faithful s s' := by
  cases label with
  | handleRead limit script => cases hQuiet
  | send message call => cases hQuiet
  | arrive bytes =>
      obtain ⟨-, rfl⟩ := Duplex.arrive_eq_some hStep
      exact .of_same hEmpty rfl rfl rfl
  | fin =>
      obtain rfl := Option.some.inj hStep
      exact .of_same hEmpty rfl rfl rfl
  | readError errno =>
      obtain rfl := Option.some.inj hStep
      exact .of_same hEmpty rfl rfl rfl
  | shutdown =>
      obtain rfl := Option.some.inj hStep
      refine .of_same hEmpty (shutdown_inputBuffer s.conn) rfl ?_
      show s.conn.shutdown.accepted = s.conn.accepted
      unfold TcpConnection.shutdown TcpConnection.shutdownInLoop TcpConnection.beginShutdown
      split_ifs <;> rfl
  | handleWrite call =>
      obtain rfl := Option.some.inj hStep
      exact .of_same hEmpty (handleWrite_inputBuffer s.conn call) rfl
        (SendLoop.handleWrite_keeps s.conn call).2
  | handleClose =>
      obtain rfl := Option.some.inj hStep
      exact .of_same hEmpty (TcpConnection.handleClose_inputBuffer _) rfl
        (TcpConnection.handleClose_accepted _)

end Inbound

/-- What happens at the two ends and between them, when the end `true` is the server. -/
inductive EchoLabel where
  | client (label : InboundLabel)
  | read (limit : ℕ) (call : SysWrite)
  /-- The server does something else. -/
  | server (label : InboundLabel)
  | deliver (side : Bool) (n : ℕ)
  | fin (side : Bool)
  deriving DecidableEq, Repr

namespace Duplex

def echoStep (d : Duplex) : EchoLabel → Option Duplex
  | .client label => d.step (.own false label)
  | .read limit call =>
      if 0 < limit then some (d.setOwn true ((d.ends true).echoRead limit call)) else none
  | .server label => if label.exchanges then none else d.step (.own true label)
  | .deliver side n => d.step (.deliver side n)
  | .fin side => d.step (.fin side)

/-- No `HandleWrite` takes some and not all of the buffered bytes, and the server answers
on an open connection, without a fault. -/
def Faithful (d : Duplex) : EchoLabel → Prop
  | .client label => (d.ends false).Whole label
  | .read _ call => (d.ends true).conn.state = .kConnected ∧ call.harmless = true
  | .server label => (d.ends true).Whole label
  | _ => True

instance (d : Duplex) : (label : EchoLabel) → Decidable (d.Faithful label)
  | .client label => inferInstanceAs (Decidable ((d.ends false).Whole label))
  | .read _ call =>
      inferInstanceAs (Decidable ((d.ends true).conn.state = .kConnected ∧ call.harmless = true))
  | .server label => inferInstanceAs (Decidable ((d.ends true).Whole label))
  | .deliver _ _ | .fin _ => inferInstanceAs (Decidable True)

/-! ## Steps of the two ends -/

/-- The same as steps of a `Duplex`. -/
def expand (d : Duplex) : EchoLabel → List DuplexLabel
  | .client label => [.own false label]
  | .read limit call =>
      .own true (.handleRead limit [.retrieveAll]) ::
        if (d.ends true).echoMessage limit = [] then []
        else [.own true (.send ((d.ends true).echoMessage limit) call)]
  | .server label => [.own true label]
  | .deliver side n => [.deliver side n]
  | .fin side => [.fin side]

theorem setOwn_setOwn (d : Duplex) (side : Bool) {first : Inbound}
    (hSent : first.conn.sent = (d.ends side).conn.sent) (second : Inbound) :
    (d.setOwn side first).setOwn side second = d.setOwn side second := by
  simp [setOwn, hSent]

variable {d d' : Duplex} {label : EchoLabel}

/-- A read of the server is a read and a `Send`; the other steps are the same. -/
theorem echoStep_expand (hMessage : (d.ends true).conn.callbacks.message = true)
    (hStep : d.echoStep label = some d') : exec step d (d.expand label) = some d' := by
  have hSingle : ∀ small, step d small = some d' → exec step d [small] = some d' :=
    fun small hSmall => exec_cons_eq_some.mpr ⟨d', hSmall, exec_nil step d'⟩
  cases label with
  | read limit call =>
      simp only [echoStep] at hStep
      split at hStep
      case isFalse => cases hStep
      case isTrue hLimit =>
        obtain rfl := Option.some.inj hStep
        have hRead : step d (.own true (.handleRead limit [.retrieveAll])) =
            some (d.setOwn true ((d.ends true).handleRead limit [.retrieveAll])) := by
          simp [step, InboundLabel.isOwn, Inbound.step, hLimit]
        rw [expand, Inbound.echoRead_eq hMessage, exec_cons, hRead]
        split
        · rfl
        · have hSent := (Inbound.handleRead_output (d.ends true) limit [.retrieveAll]).1
          have hEnd : (d.setOwn true ((d.ends true).handleRead limit [.retrieveAll])).ends true =
              (d.ends true).handleRead limit [.retrieveAll] := by simp [setOwn]
          simp only [Option.bind_some, exec_cons, exec_nil, step, InboundLabel.isOwn, if_true,
            Inbound.step, Option.map_some, hEnd, setOwn_setOwn d true hSent]
  | server label =>
      simp only [echoStep] at hStep
      split at hStep
      · cases hStep
      · exact hSingle _ hStep
  | client label | deliver side n | fin side => exact hSingle _ hStep

/-- Reading and sending are not writes of `HandleWrite`. -/
theorem expand_whole (hFaithful : d.Faithful label) (side : Bool) :
    Meets step (WritesWhole side) d (d.expand label) := by
  cases label with
  | client label =>
      refine ⟨?_, fun _ _ => trivial⟩
      rintro rfl
      exact hFaithful
  | server label =>
      refine ⟨?_, fun _ _ => trivial⟩
      rintro rfl
      exact hFaithful
  | read limit call =>
      refine ⟨fun _ => trivial, fun next _ => ?_⟩
      split
      · trivial
      · exact ⟨fun _ => trivial, fun _ _ => trivial⟩
  | deliver side n | fin side => exact ⟨trivial, fun _ _ => trivial⟩

/-- What a step does at the server. -/
theorem echoStep_server (hMessage : (d.ends true).conn.callbacks.message = true)
    (hEmpty : (d.ends true).conn.inputBuffer.readable = [])
    (hStep : d.echoStep label = some d') :
    Inbound.EchoMove (d.Faithful label) (d.ends true) (d'.ends true) := by
  have hOther : ∀ small, step d small = some d' →
      (∀ event, small = .own true event → event.exchanges = false) →
      Inbound.EchoMove (d.Faithful label) (d.ends true) (d'.ends true) := by
    intro small hSmall hQuiet
    rcases step_ends hSmall true with hSame | ⟨event, hNext, ⟨-, hLabel⟩ | ⟨hNetwork, -⟩⟩
    · rw [hSame]
      exact .of_same hEmpty rfl rfl rfl
    · exact Inbound.step_echoMove _ (hQuiet event hLabel) hEmpty hNext
    · exact Inbound.step_echoMove _ (InboundLabel.exchanges_of_not_isOwn hNetwork) hEmpty hNext
  cases label with
  | read limit call =>
      simp only [echoStep] at hStep
      split at hStep
      case isFalse => cases hStep
      case isTrue hLimit =>
        obtain rfl := Option.some.inj hStep
        have hEnd : (d.setOwn true ((d.ends true).echoRead limit call)).ends true =
            (d.ends true).echoRead limit call := by simp [setOwn]
        rw [hEnd]
        exact Inbound.echoRead_echoMove hMessage hEmpty hLimit call
  | server label =>
      simp only [echoStep] at hStep
      split at hStep
      · cases hStep
      · next hQuiet =>
        refine hOther _ hStep fun event hLabel => ?_
        cases hLabel
        simpa using hQuiet
  | client label => exact hOther (.own false label) hStep (by simp)
  | deliver side n => exact hOther (.deliver side n) hStep (by simp)
  | fin side => exact hOther (.fin side) hStep (by simp)

/-! ## Runs -/

/-- What the server keeps between two steps. -/
structure Served (callbacks : ConnCallbacks) (s : Inbound) : Prop where
  intact : Inbound.Intact callbacks s
  empty : s.conn.inputBuffer.readable = []
  accepted : s.conn.accepted.Sublist s.consumed

theorem new_served (callbacks : ConnCallbacks) (highWaterMark : ℕ) :
    Served callbacks (Inbound.new callbacks highWaterMark) := by
  have hIntact := Inbound.new_intact callbacks highWaterMark
  have hNone : (Inbound.new callbacks highWaterMark).conn.accepted = [] := by
    unfold Inbound.new TcpConnection.connectEstablished TcpConnection.report
    split <;> rfl
  refine ⟨hIntact, ?_, by rw [hNone]; exact List.nil_sublist _⟩
  exact (List.append_eq_nil_iff.mp hIntact.kept.symm).2

section Runs

variable {callbacks : Bool → ConnCallbacks} {highWaterMark : Bool → ℕ}
  {labels : List EchoLabel}

theorem echoStep_served {callbacks : ConnCallbacks} (hMessage : callbacks.message = true)
    (hServed : Served callbacks (d.ends true)) (hStep : d.echoStep label = some d') :
    Served callbacks (d'.ends true) := by
  have hSet : (d.ends true).conn.callbacks.message = true := by
    rw [hServed.intact.callbacks_eq, hMessage]
  obtain ⟨hEmpty, message, hConsumed, hTaken⟩ := echoStep_server hSet hServed.empty hStep
  refine ⟨?_, hEmpty, ?_⟩
  · exact exec_invariant (fun d : Duplex => Inbound.Intact callbacks (d.ends true))
      (fun _ _ _ => step_intact) hServed.intact (echoStep_expand hSet hStep)
  · rw [hConsumed]
    rcases hTaken with hAccepted | ⟨hAccepted, -⟩
    · rw [hAccepted]
      exact hServed.accepted.append_right message
    · rw [hAccepted]
      exact hServed.accepted.trans (List.sublist_append_left _ message)

theorem exec_served (hMessage : (callbacks true).message = true)
    (hRun : exec echoStep (new callbacks highWaterMark) labels = some d) :
    Served (callbacks true) (d.ends true) :=
  exec_invariant (fun d : Duplex => Served (callbacks true) (d.ends true))
    (fun _ _ _ => echoStep_served hMessage) (new_served _ _) hRun

/-- A server that answers on an open connection and without a fault accepts what it takes. -/
theorem exec_accepted (hMessage : (callbacks true).message = true)
    (hMeets : Meets echoStep Faithful (new callbacks highWaterMark) labels)
    (hRun : exec echoStep (new callbacks highWaterMark) labels = some d) :
    (d.ends true).conn.accepted = (d.ends true).consumed := by
  refine (exec_invariant_of_meets (fun d : Duplex => Served (callbacks true) (d.ends true) ∧
    (d.ends true).conn.accepted = (d.ends true).consumed) ?_ ⟨new_served _ _, ?_⟩ hMeets hRun).2
  · rintro d label d' ⟨hServed, hSame⟩ hFaithful hStep
    have hSet : (d.ends true).conn.callbacks.message = true := by
      rw [hServed.intact.callbacks_eq, hMessage]
    refine ⟨echoStep_served hMessage hServed hStep, ?_⟩
    obtain ⟨-, message, hConsumed, hTaken⟩ := echoStep_server hSet hServed.empty hStep
    rcases hTaken with hAccepted | ⟨hAccepted, hNone⟩
    · rw [hAccepted, hConsumed, hSame]
    · rw [hAccepted, hConsumed, hSame, hNone hFaithful, List.append_nil]
  · exact List.sublist_nil.mp (new_served (callbacks true) (highWaterMark true)).accepted

/-- The run of an echo server is a run of two ends. -/
theorem exists_exec_step (hMessage : (callbacks true).message = true)
    (hRun : exec echoStep (new callbacks highWaterMark) labels = some d) (side : Bool) :
    ∃ expanded, exec step (new callbacks highWaterMark) expanded = some d ∧
      (Meets echoStep Faithful (new callbacks highWaterMark) labels →
        Meets step (WritesWhole side) (new callbacks highWaterMark) expanded) := by
  obtain ⟨expanded, _, hExpanded, ⟨rfl, -⟩, hWhole⟩ := exec_simulation
    (fun d d' : Duplex => d = d' ∧ Inbound.Intact (callbacks true) (d.ends true))
    (fun d _ label d' hRel hStep => by
      obtain ⟨rfl, hIntact⟩ := hRel
      have hRead := echoStep_expand (by rw [hIntact.callbacks_eq, hMessage]) hStep
      have hNext := exec_invariant _ (fun _ _ _ => step_intact) hIntact hRead
      exact ⟨d.expand label, d', hRead, ⟨rfl, hNext⟩, fun hFaithful =>
        expand_whole hFaithful side⟩)
    ⟨rfl, Inbound.new_intact _ _⟩ hRun
  exact ⟨expanded, hExpanded, hWhole⟩

/-- In every run of a client and an echo server: what has come back to the client is made of
bytes that it sent, in the order in which it sent them.  When no `HandleWrite` takes some and
not all of the buffered bytes, and the server answers on an open connection and without a
fault, then no byte is lost, and the bytes that have not come back are on their way round. -/
theorem echo_returns_bytes (hMessage : (callbacks true).message = true)
    (hRun : exec echoStep (new callbacks highWaterMark) labels = some d) :
    ((d.ends false).consumed ++ (d.ends false).conn.inputBuffer.readable ++
        (d.ends false).queue).Sublist (d.ends false).conn.accepted ∧
      (Meets echoStep Faithful (new callbacks highWaterMark) labels →
        (d.ends false).conn.accepted =
          (d.ends false).consumed ++ (d.ends false).conn.inputBuffer.readable ++
            (d.ends false).queue ++ d.wire true ++ (d.ends true).conn.outputBuffer.readable ++
            (d.ends true).queue ++ d.wire false ++
            (d.ends false).conn.outputBuffer.readable) := by
  have hServed := exec_served hMessage hRun
  obtain ⟨toServer, hToServer, hWholeThere⟩ := exists_exec_step hMessage hRun false
  obtain ⟨toClient, hToClient, hWholeBack⟩ := exists_exec_step hMessage hRun true
  have hThere : (d.ends false).conn.sent =
      (d.ends true).consumed ++ (d.ends true).queue ++ d.wire false := by
    have hSent := exec_sent hToServer false
    rwa [Bool.not_false, hServed.empty, List.append_nil] at hSent
  have hBack := exec_sent hToClient true
  rw [Bool.not_true] at hBack
  have hThinned : ∀ side, (d.ends side).conn.sent.Sublist (d.ends side).conn.accepted :=
    fun side => (List.sublist_append_left _ _).trans (exec_flows hToServer side).sound.thinned
  refine ⟨?_, fun hMeets => ?_⟩
  · calc ((d.ends false).consumed ++ (d.ends false).conn.inputBuffer.readable ++
          (d.ends false).queue).Sublist (d.ends true).conn.sent := by
          rw [hBack]
          exact List.sublist_append_left _ _
      List.Sublist _ (d.ends true).conn.accepted := hThinned true
      List.Sublist _ (d.ends true).consumed := hServed.accepted
      List.Sublist _ (d.ends false).conn.sent := by
          rw [hThere, List.append_assoc]
          exact List.sublist_append_left _ _
      List.Sublist _ (d.ends false).conn.accepted := hThinned false
  · have hFirst := exec_conserved (hWholeThere hMeets) hToServer
    have hSecond := exec_conserved (hWholeBack hMeets) hToClient
    have hTaken := exec_accepted hMessage hMeets hRun
    rw [← hFirst, hThere, ← hTaken, ← hSecond, hBack]

end Runs

/-- Three bytes reach the server in two pieces; its kernel takes one byte at first and the
rest when the socket is writable; the client has read two of them. -/
def threeBytesRound : List EchoLabel :=
  [.client (.send [1, 2, 3] (.room 3)), .deliver false 2, .read 9 (.room 1), .deliver false 1,
    .read 9 (.room 9), .server (.handleWrite (.room 9)), .deliver true 2,
    .client (.handleRead 9 [.retrieveAll])]

theorem echo_returns_bytes_threeBytesRound :
    ∃ d, exec echoStep (new (fun _ => ⟨false, true, false, false, .unset⟩) fun _ => 0)
        threeBytesRound = some d ∧
      (d.ends false).consumed = [1, 2] ∧ d.wire true = [3] ∧
      (d.ends false).conn.accepted =
        (d.ends false).consumed ++ (d.ends false).conn.inputBuffer.readable ++
          (d.ends false).queue ++ d.wire true ++ (d.ends true).conn.outputBuffer.readable ++
          (d.ends true).queue ++ d.wire false ++
          (d.ends false).conn.outputBuffer.readable := by
  have hEnd : (exec echoStep (new (fun _ => ⟨false, true, false, false, .unset⟩) fun _ => 0)
      threeBytesRound).map (fun d => ((d.ends false).consumed, d.wire true)) =
        some ([1, 2], [3]) := by
    decide +kernel
  obtain ⟨d, hRun, hSeen⟩ := Option.map_eq_some_iff.mp hEnd
  obtain ⟨hConsumed, hWire⟩ : _ ∧ _ := by simpa using hSeen
  exact ⟨d, hRun, hConsumed, hWire, (echo_returns_bytes rfl hRun).2 (by decide +kernel)⟩

end Duplex
end SolarNet
