import SolarNet.Lib.Run
import SolarNet.Transport.TcpConnection

/-!
# Conservation of output bytes

What `SendInLoop` accepts is handed to the kernel in two places, directly and by
`HandleWrite` from the output buffer.  The bytes handed over, followed by the
readable bytes of the output buffer, should be the accepted bytes.

`HandleWrite` retrieves the bytes that `Buffer::WriteFd` has retrieved already,
so a write that takes some and not all of the buffered bytes drops bytes that
were never sent.  The result of this file is that this is the only way to lose
bytes: conservation holds in all states of a run exactly when no `HandleWrite`
of the run meets such a write.
-/

namespace SolarNet

open Lib

/-- The steps that change the output side of an established connection. -/
inductive OutputLabel where
  | sendInLoop (message : List Byte) (call : SysWrite)
  | handleWrite (call : SysWrite)
  | shutdownInLoop
  | forceCloseInLoop
  deriving DecidableEq, Repr

/-- Every accepted byte was with the kernel when the event was recorded. -/
def ConnEvent.Complete : ConnEvent → Prop
  | .writeCompleteQueued sent accepted => sent = accepted
  | .deferredShutdown sent accepted => sent = accepted
  | _ => True

namespace TcpConnection

def outputStep (c : TcpConnection) : OutputLabel → Option TcpConnection
  | .sendInLoop message call => some (c.sendInLoop message call)
  | .handleWrite call => some (c.handleWrite call)
  | .shutdownInLoop => some c.shutdownInLoop
  | .forceCloseInLoop => some c.forceCloseInLoop

/-- While the connection is live, sent and buffered bytes are the accepted bytes;
completion is reported only when all accepted bytes are sent. -/
structure OutputConserved (c : TcpConnection) : Prop where
  bytes : c.state.live = true → c.sent ++ c.outputBuffer.readable = c.accepted
  complete : ∀ event ∈ c.log, event.Complete

/-- A `HandleWrite` with write interest does not meet a partial write. -/
def WritesWhole (c : TcpConnection) : OutputLabel → Prop
  | .handleWrite call =>
      c.channel.isWriting = true →
        ∀ n, call.result c.outputBuffer.readableBytes = .ok n →
          n = 0 ∨ n = c.outputBuffer.readableBytes
  | _ => True

/-- The invariant of the runs that lose nothing. -/
structure OutputInv (c : TcpConnection) : Prop where
  bytes : c.sent ++ c.outputBuffer.readable = c.accepted
  complete : ∀ event ∈ c.log, event.Complete
  writing_live : c.channel.isWriting = true → c.state.live = true

/-! ## Steps that keep the bytes -/

theorem OutputInv.record {c : TcpConnection} (hInv : OutputInv c) (event : ConnEvent)
    (hComplete : event.Complete) : OutputInv (c.record event) where
  bytes := hInv.bytes
  complete := by
    intro other hOther
    rcases List.mem_append.mp hOther with hOld | hNew
    · exact hInv.complete other hOld
    · obtain rfl := List.mem_singleton.mp hNew
      exact hComplete
  writing_live := hInv.writing_live

theorem OutputInv.report {c : TcpConnection} (hInv : OutputInv c) : OutputInv c.report := by
  unfold TcpConnection.report
  split
  · exact hInv.record _ trivial
  · exact hInv

theorem OutputInv.queueWriteComplete {c : TcpConnection} (hInv : OutputInv c)
    (hSent : c.sent = c.accepted) : OutputInv c.queueWriteComplete := by
  unfold TcpConnection.queueWriteComplete
  split
  · exact hInv.record _ hSent
  · exact hInv

theorem OutputInv.queueHighWaterMark {c : TcpConnection} (hInv : OutputInv c)
    (oldLen newLen : Nat) : OutputInv (c.queueHighWaterMark oldLen newLen) := by
  unfold TcpConnection.queueHighWaterMark
  split
  · exact hInv.record _ trivial
  · exact hInv

theorem OutputInv.beginShutdown {c : TcpConnection} (hInv : OutputInv c) :
    OutputInv c.beginShutdown := by
  unfold TcpConnection.beginShutdown
  split
  · exact ⟨hInv.bytes, hInv.complete, fun _ => rfl⟩
  · exact hInv

theorem OutputInv.shutdownInLoop {c : TcpConnection} (hInv : OutputInv c) :
    OutputInv c.shutdownInLoop := by
  unfold TcpConnection.shutdownInLoop
  split
  · exact hInv.beginShutdown
  · exact hInv.beginShutdown.record _ trivial

theorem OutputInv.forceCloseInLoop {c : TcpConnection} (hInv : OutputInv c) :
    OutputInv c.forceCloseInLoop := by
  unfold TcpConnection.forceCloseInLoop
  split
  · have hRecorded := hInv.record (.handleClose c.state) trivial
    refine OutputInv.report ⟨hRecorded.bytes, hRecorded.complete, fun hWriting => ?_⟩
    simp [beginClose] at hWriting
  · exact hInv

/-! ## Sending -/

@[simp] theorem queueHighWaterMark_state (c : TcpConnection) (oldLen newLen : Nat) :
    (c.queueHighWaterMark oldLen newLen).state = c.state := by
  unfold queueHighWaterMark
  split <;> rfl

/-- `EnableWriting` is for live connections. -/
theorem OutputInv.wantWrite {c : TcpConnection} (hInv : OutputInv c)
    (hState : c.state = .kConnected) : OutputInv c.wantWrite := by
  unfold TcpConnection.wantWrite
  split
  · exact hInv
  · refine ⟨hInv.bytes, hInv.complete, fun _ => ?_⟩
    show c.state.live = true
    rw [hState]
    rfl

@[simp] theorem bufferRest_nil (c : TcpConnection) : c.bufferRest [] = c := rfl

/-- Buffering the rest of a message of which the first part was sent. -/
theorem OutputInv.bufferRest {c : TcpConnection} {rest : List Byte}
    (hBytes : c.sent ++ c.outputBuffer.readable ++ rest = c.accepted)
    (hComplete : ∀ event ∈ c.log, event.Complete) (hState : c.state = .kConnected) :
    OutputInv (c.bufferRest rest) := by
  have hLive : c.state.live = true := by
    rw [hState]
    rfl
  unfold TcpConnection.bufferRest
  split
  · next hEmpty =>
      obtain rfl := List.length_eq_zero_iff.mp hEmpty
      exact ⟨by simpa using hBytes, hComplete, fun _ => hLive⟩
  · have hAppended : OutputInv { c with outputBuffer := c.outputBuffer.append rest } :=
      ⟨by simpa using hBytes, hComplete, fun _ => hLive⟩
    exact (hAppended.queueHighWaterMark _ _).wantWrite (by simpa using hState)

theorem OutputInv.sendInLoop {c : TcpConnection} (hInv : OutputInv c) (message : List Byte)
    (call : SysWrite) : OutputInv (c.sendInLoop message call) := by
  -- Without a direct write the whole message is buffered.
  have hBuffered : c.state = .kConnected →
      OutputInv ((c.handOver message 0).bufferRest message) := by
    intro hState
    refine OutputInv.bufferRest ?_ hInv.complete hState
    simp [handOver, ← hInv.bytes]
  unfold TcpConnection.sendInLoop
  by_cases hState : c.state = .kConnected
  · rw [if_neg (not_not.mpr hState)]
    by_cases hDirect : (!c.channel.isWriting && c.outputBuffer.readableBytes == 0) = true
    · rw [if_pos hDirect]
      cases hResult : call.result message.length with
      | error errno =>
          by_cases hFault : isFault errno call.logged = true
          · simpa only [if_pos hFault] using hInv
          · simpa only [if_neg hFault] using hBuffered hState
      | ok nwrote =>
          have hEmpty : c.outputBuffer.readable = [] := by
            simp only [Bool.and_eq_true, beq_iff_eq] at hDirect
            apply List.length_eq_zero_iff.mp
            rw [CheckedBuffer.length_readable, hDirect.2]
          have hBytes : c.sent ++ message.take nwrote ++ c.outputBuffer.readable ++
              message.drop nwrote = c.accepted ++ message := by
            simp [← hInv.bytes, hEmpty]
          show OutputInv (if message.length - nwrote = 0 then _ else _)
          split
          · next hAll =>
            -- Nothing remains, so the completion is reported with all bytes sent.
            have hDrop : message.drop nwrote = [] :=
              List.drop_eq_nil_of_le (Nat.le_of_sub_eq_zero hAll)
            rw [hDrop] at hBytes ⊢
            have hHanded : OutputInv (c.handOver message nwrote) :=
              ⟨by simpa [handOver] using hBytes, hInv.complete, hInv.writing_live⟩
            rw [bufferRest_nil]
            exact hHanded.queueWriteComplete (by simpa [handOver, hEmpty] using hBytes)
          · exact OutputInv.bufferRest hBytes hInv.complete hState
    · rw [if_neg hDirect]
      exact hBuffered hState
  · rw [if_pos hState]
    exact hInv

/-! ## `HandleWrite` -/

theorem OutputInv.drained {c : TcpConnection} (hInv : OutputInv c)
    (hSent : c.sent = c.accepted) : OutputInv c.drained := by
  have hDisabled : OutputInv { c with channel := c.channel.disableWriting } := by
    refine ⟨hInv.bytes, hInv.complete, fun hWriting => ?_⟩
    simp at hWriting
  have hQueued := hDisabled.queueWriteComplete hSent
  unfold TcpConnection.drained shutdownIfDisconnecting
  split
  · refine (hQueued.record _ ?_).shutdownInLoop
    unfold TcpConnection.queueWriteComplete
    split
    · exact hSent
    · exact hSent
  · exact hQueued

/-- The end of `HandleWrite` moves no bytes and keeps the state. -/
theorem drained_frame (c : TcpConnection) :
    c.drained.sent = c.sent ∧ c.drained.accepted = c.accepted ∧
      c.drained.outputBuffer = c.outputBuffer ∧ c.drained.state = c.state := by
  unfold drained shutdownIfDisconnecting shutdownInLoop beginShutdown queueWriteComplete record
  split_ifs <;> simp_all

theorem retrieveOutput_frame (c : TcpConnection) (n : Nat) :
    (c.retrieveOutput n).sent = c.sent ∧ (c.retrieveOutput n).accepted = c.accepted ∧
      (c.retrieveOutput n).outputBuffer = c.outputBuffer.retrieve n ∧
      (c.retrieveOutput n).state = c.state := by
  unfold retrieveOutput
  split
  · exact drained_frame _
  · exact ⟨rfl, rfl, rfl, rfl⟩

/-- `HandleWrite` when the kernel takes `n` bytes: `n` bytes are sent and twice as
many leave the buffer. -/
theorem handleWrite_ok {c : TcpConnection} {call : SysWrite} {n : Nat}
    (hWriting : c.channel.isWriting = true)
    (hResult : call.result c.outputBuffer.readableBytes = .ok n) :
    (c.handleWrite call).sent = c.sent ++ c.outputBuffer.readable.take n ∧
      (c.handleWrite call).accepted = c.accepted ∧
      (c.handleWrite call).outputBuffer.readable = c.outputBuffer.readable.drop (n + n) ∧
      (c.handleWrite call).state = c.state := by
  simp only [handleWrite, hWriting, CheckedBuffer.writeFd_ok hResult]
  by_cases hSome : 0 < n
  · simp only [Bool.not_true, Bool.false_eq_true, if_false, if_pos hSome]
    obtain ⟨hSent, hAccepted, hBuffer, hState⟩ :=
      retrieveOutput_frame (c.wrote (c.outputBuffer.retrieve n) n) n
    refine ⟨hSent, hAccepted, ?_, hState⟩
    rw [hBuffer]
    simp [wrote]
  · obtain rfl : n = 0 := by omega
    simp [wrote]

/-- `WriteFd` by itself keeps the bytes, whatever the kernel takes. -/
theorem OutputInv.wrote {c : TcpConnection} (hInv : OutputInv c) (n : Nat) :
    OutputInv (c.wrote (c.outputBuffer.retrieve n) n) := by
  refine ⟨?_, hInv.complete, hInv.writing_live⟩
  show c.sent ++ c.outputBuffer.readable.take n ++ (c.outputBuffer.retrieve n).readable = c.accepted
  rw [CheckedBuffer.readable_retrieve, List.append_assoc, List.take_append_drop, hInv.bytes]

/-- The second `Retrieve` does no harm when the buffer is empty. -/
theorem OutputInv.retrieveOutput {c : TcpConnection} (hInv : OutputInv c)
    (hEmpty : c.outputBuffer.readable = []) (n : Nat) : OutputInv (c.retrieveOutput n) := by
  have hBytes := hInv.bytes
  rw [hEmpty, List.append_nil] at hBytes
  have hRetrieved : OutputInv { c with outputBuffer := c.outputBuffer.retrieve n } :=
    ⟨by simpa [hEmpty] using hBytes, hInv.complete, hInv.writing_live⟩
  unfold TcpConnection.retrieveOutput
  split
  · exact hRetrieved.drained hBytes
  · exact hRetrieved

/-- A write that takes nothing or everything is accounted for correctly. -/
theorem OutputInv.handleWrite {c : TcpConnection} (hInv : OutputInv c) {call : SysWrite}
    (hWhole : WritesWhole c (.handleWrite call)) : OutputInv (c.handleWrite call) := by
  by_cases hWriting : c.channel.isWriting = true
  · cases hResult : call.result c.outputBuffer.readableBytes with
    | error errno =>
        simpa [TcpConnection.handleWrite, hWriting, CheckedBuffer.writeFd_error hResult]
          using hInv
    | ok n =>
        simp only [TcpConnection.handleWrite, hWriting, CheckedBuffer.writeFd_ok hResult,
          Bool.not_true, Bool.false_eq_true, if_false]
        split
        · next hSome =>
          refine (hInv.wrote n).retrieveOutput ?_ n
          obtain rfl : n = c.outputBuffer.readableBytes :=
            (hWhole hWriting n hResult).resolve_left (Nat.pos_iff_ne_zero.mp hSome)
          simp [TcpConnection.wrote, ← CheckedBuffer.length_readable]
        · exact hInv.wrote n
  · simpa [TcpConnection.handleWrite, hWriting] using hInv

/-- A partial write loses bytes at once. -/
theorem not_outputConserved_of_partial {c : TcpConnection} (hInv : OutputInv c)
    {call : SysWrite} {n : Nat} (hWriting : c.channel.isWriting = true)
    (hResult : call.result c.outputBuffer.readableBytes = .ok n) (hSome : n ≠ 0)
    (hPart : n ≠ c.outputBuffer.readableBytes) : ¬ OutputConserved (c.handleWrite call) := by
  intro hConserved
  obtain ⟨hSent, hAccepted, hReadable, hState⟩ := handleWrite_ok hWriting hResult
  have hLive : (c.handleWrite call).state.live = true := by
    rw [hState]
    exact hInv.writing_live hWriting
  have hBytes := hConserved.bytes hLive
  rw [hSent, hAccepted, hReadable, ← hInv.bytes, List.append_assoc] at hBytes
  -- The sizes differ: `n` and what is left after `2 n` do not add up.
  have hLengths := congrArg List.length (List.append_cancel_left hBytes)
  have hLe : n ≤ c.outputBuffer.readableBytes := Buffer.SysWrite_result_le hResult
  simp only [List.length_append, List.length_take, List.length_drop,
    CheckedBuffer.length_readable] at hLengths
  omega

/-! ## Runs -/

/-- A connection right after `ConnectEstablished`. -/
def established (callbacks : ConnCallbacks) (highWaterMark : Nat) : TcpConnection :=
  (new callbacks highWaterMark).connectEstablished

theorem established_outputInv (callbacks : ConnCallbacks) (highWaterMark : Nat) :
    OutputInv (established callbacks highWaterMark) := by
  refine OutputInv.report ⟨?_, ?_, fun _ => rfl⟩
  · simp [new]
  · simp [new]

theorem outputStep_inv (c : TcpConnection) (label : OutputLabel) (c' : TcpConnection)
    (hInv : OutputInv c) (hStep : outputStep c label = some c') (hWhole : WritesWhole c label) :
    OutputInv c' := by
  cases label with
  | sendInLoop message call =>
      obtain rfl := Option.some.inj hStep
      exact hInv.sendInLoop message call
  | handleWrite call =>
      obtain rfl := Option.some.inj hStep
      exact hInv.handleWrite hWhole
  | shutdownInLoop =>
      obtain rfl := Option.some.inj hStep
      exact hInv.shutdownInLoop
  | forceCloseInLoop =>
      obtain rfl := Option.some.inj hStep
      exact hInv.forceCloseInLoop

theorem writesWhole_of_conserved (c : TcpConnection) (label : OutputLabel)
    (c' : TcpConnection) (hInv : OutputInv c) (hStep : outputStep c label = some c')
    (hConserved : OutputConserved c') : WritesWhole c label := by
  cases label with
  | handleWrite call =>
      obtain rfl := Option.some.inj hStep
      intro hWriting n hResult
      by_contra hNot
      rw [not_or] at hNot
      exact not_outputConserved_of_partial hInv hWriting hResult hNot.1 hNot.2 hConserved
  | sendInLoop message call => trivial
  | shutdownInLoop => trivial
  | forceCloseInLoop => trivial

/-- Output bytes are conserved in all states of a run exactly when no `HandleWrite`
of the run, called with write interest, meets a write that takes some and not all
of the buffered bytes. -/
theorem outputConserved_iff_writesWhole (callbacks : ConnCallbacks) (highWaterMark : Nat)
    (labels : List OutputLabel) :
    (∀ pre c, pre <+: labels →
      exec outputStep (established callbacks highWaterMark) pre = some c →
      OutputConserved c) ↔
    Meets outputStep WritesWhole (established callbacks highWaterMark) labels := by
  refine forall_prefix_iff_meets OutputInv OutputConserved ?_ ?_ outputStep_inv
    writesWhole_of_conserved (established_outputInv callbacks highWaterMark) labels
  · intro c hInv
    exact ⟨fun _ => hInv.bytes, hInv.complete⟩
  · intro c label _ hStep
    cases label <;> cases hStep

/-- Ten bytes are buffered because the socket is full, and the next write takes
three of them. -/
def partialWrite : List OutputLabel :=
  [.sendInLoop [0, 1, 2, 3, 4, 5, 6, 7, 8, 9] (.error EAGAIN EAGAIN), .handleWrite (.room 3)]

/-- The three bytes that follow the three sent ones are lost. -/
theorem not_outputConserved_partialWrite :
    ∃ c, exec outputStep (established ⟨true, true, true, true, .unset⟩ 65536) partialWrite =
        some c ∧
      c.state = .kConnected ∧ c.sent = [0, 1, 2] ∧ c.outputBuffer.readable = [6, 7, 8, 9] ∧
      c.accepted = [0, 1, 2, 3, 4, 5, 6, 7, 8, 9] ∧ ¬ OutputConserved c := by
  refine ⟨_, rfl, by decide +kernel, by decide +kernel, by decide +kernel,
    by decide +kernel, ?_⟩
  intro hConserved
  have hBytes := hConserved.bytes (by decide +kernel)
  revert hBytes
  decide +kernel

end TcpConnection
end SolarNet
