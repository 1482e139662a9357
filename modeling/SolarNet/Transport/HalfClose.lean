import SolarNet.Transport.WriteInterest

/-!
# The states of a connection and the half close

A functor that `Shutdown` or `ForceClose` queued runs when the loop comes to it, and the
connection may have changed its state by then.  In every order of the functors, the
events and the calls of the owner, the state only moves forward, `ShutdownWrite` of a
`kDisconnecting` connection waits for an empty output buffer, and nothing is written to
the socket after it.
-/

namespace SolarNet

open Lib

/-- The place of a state in the life of a connection. -/
def ConnState.rank : ConnState → Nat
  | .kConnecting => 0
  | .kConnected => 1
  | .kDisconnecting => 2
  | .kDisconnected => 3

theorem ConnState.rank_le_closed (state : ConnState) :
    state.rank ≤ ConnState.rank .kDisconnected := by
  cases state <;> decide

namespace TcpConnection

/-! ## Moves -/

namespace OutputSide

theorem shutdown_rank (o : OutputSide) : o.state.rank ≤ o.shutdown.state.rank := by
  unfold OutputSide.shutdown
  by_cases hState : o.state = .kConnected
  · simp [hState, ConnState.rank]
  · simp [hState]

theorem drain_rank (o : OutputSide) : o.state.rank ≤ o.drain.state.rank := by
  unfold OutputSide.drain
  split
  · exact shutdown_rank { o with writing := false }
  · exact le_rfl

/-- `ShutdownWrite` is called when there is no write interest. -/
theorem not_writing_of_shutdown {o : OutputSide} (hMore : o.shutdowns < o.shutdown.shutdowns) :
    o.writing = false := by
  by_contra hOn
  have hWriting : o.writing = true := by simpa using hOn
  simp [OutputSide.shutdown, hWriting] at hMore

theorem drain_buffered (o : OutputSide) : o.drain.buffered = o.buffered := by
  unfold OutputSide.drain
  split <;> rfl

end OutputSide

namespace OutputMove

variable {writes : Bool} {o o' : OutputSide}

theorem rank_le (hMove : OutputMove writes o o') : o.state.rank ≤ o'.state.rank := by
  cases hMove with
  | same => exact le_rfl
  | establish hState => simp [hState, ConnState.rank]
  | buffer hState rest sent _ => exact le_rfl
  | shutdown _ => exact OutputSide.shutdown_rank o
  | close => exact ConnState.rank_le_closed o.state
  | partlyWritten _ _ _ _ _ => exact le_rfl
  | drain _ _ sent => exact OutputSide.drain_rank { o with buffered := [], sent := sent }

/-- Two moves call `ShutdownWrite`: a shutdown without write interest, and the end of
`HandleWrite`. -/
theorem buffered_of_shutdown (hMove : OutputMove writes o o') (hInv : o.Mirrors)
    (hMore : o.shutdowns < o'.shutdowns) (hState : o'.state = .kDisconnecting) :
    o'.buffered = [] := by
  cases hMove with
  | same => exact absurd hMore (lt_irrefl _)
  | establish _ => exact absurd hMore (lt_irrefl _)
  | buffer _ _ _ _ => exact absurd hMore (lt_irrefl _)
  | shutdown _ =>
      have hIdle : o.writing = false := OutputSide.not_writing_of_shutdown hMore
      have hLive : o.state.live = true :=
        OutputSide.shutdown_live (by simp [hState, ConnState.live])
      by_contra hBytes
      have hWriting := (hInv.live hLive).mpr hBytes
      simp [hIdle] at hWriting
  | close => exact absurd hMore (lt_irrefl _)
  | partlyWritten _ _ _ _ _ => exact absurd hMore (lt_irrefl _)
  | drain _ _ sent => rw [OutputSide.drain_buffered]

/-- A move that does not write hands nothing to the kernel. -/
theorem sent_eq (hMove : OutputMove writes o o') (hWrites : writes = false) :
    o'.sent = o.sent := by
  cases hMove with
  | same => rfl
  | establish _ => rfl
  | buffer _ _ _ hSent => exact hSent hWrites
  | shutdown _ => rfl
  | close => rfl
  | partlyWritten hOn _ _ _ _ => simp [hOn] at hWrites
  | drain hOn _ _ => simp [hOn] at hWrites

end OutputMove

/-- After `ShutdownWrite` no step writes: `SendInLoop` needs a `kConnected` connection and
`HandleWrite` needs write interest. -/
theorem not_performsWrite_of_shut {c : TcpConnection} (hInv : c.outputSide.Mirrors)
    (hShut : .shutdownWrite ∈ c.log) (label : ConnLabel) : c.performsWrite label = false := by
  have hSome : 0 < c.outputSide.shutdowns := List.count_pos_iff.mpr hShut
  obtain ⟨hIdle, -, hConnected⟩ := hInv.shut hSome
  change c.channel.isWriting = false at hIdle
  change c.state ≠ .kConnected at hConnected
  cases label <;> simp [performsWrite, writesDirectly, hIdle, hConnected]

/-- In every run of a connection and at every step of it: the state does not move
backwards; a step that calls `ShutdownWrite` while the connection is `kDisconnecting`
finds the output buffer empty; and a step after a `ShutdownWrite` does not write. -/
theorem halfClose_forward (callbacks : ConnCallbacks) (highWaterMark : Nat)
    (labels : List ConnLabel) (label : ConnLabel) (c c' : TcpConnection)
    (hRun : exec connStep (new callbacks highWaterMark) labels = some c)
    (hStep : c.connStep label = some c') :
    c.state.rank ≤ c'.state.rank ∧
      (c.shutdowns < c'.shutdowns → c'.state = .kDisconnecting →
        c'.outputBuffer.readableBytes = 0) ∧
      (.shutdownWrite ∈ c.log → c.performsWrite label = false ∧ c'.sent = c.sent) := by
  have hInv : c.outputSide.Mirrors := connRun_mirrors hRun
  have hMove := connStep_move hStep
  refine ⟨hMove.rank_le, fun hMore hState => ?_, fun hShut => ?_⟩
  · have hEmpty : c'.outputBuffer.readable = [] := hMove.buffered_of_shutdown hInv hMore hState
    rw [← CheckedBuffer.length_readable, hEmpty]
    rfl
  · have hSilent : c.performsWrite label = false := not_performsWrite_of_shut hInv hShut label
    exact ⟨hSilent, hMove.sent_eq hSilent⟩

/-- A `Shutdown` that waits for two bytes, and the `HandleWrite` that makes up for it. -/
theorem halfClose_forward_deferred :
    ∃ c c', exec connStep (new ⟨true, true, true, true, .server⟩ 65536)
        [.connectEstablished, .sendInLoop [7, 8] (.error EAGAIN EAGAIN), .shutdownInLoop] = some c ∧
      c.connStep (.handleWrite (.room 2)) = some c' ∧
      c.shutdowns < c'.shutdowns ∧ c'.state = .kDisconnecting ∧ c'.sent = [7, 8] ∧
      c'.outputBuffer.readableBytes = 0 := by
  refine ⟨_, _, rfl, rfl, by decide +kernel, by decide +kernel, by decide +kernel, ?_⟩
  exact (halfClose_forward ⟨true, true, true, true, .server⟩ 65536
    [.connectEstablished, .sendInLoop [7, 8] (.error EAGAIN EAGAIN), .shutdownInLoop]
    (.handleWrite (.room 2)) _ _ rfl rfl).2.1 (by decide +kernel) (by decide +kernel)

end TcpConnection
end SolarNet
