import SolarNet.Transport.TcpServer

/-!
# The calls of a `TcpServer`

`SolarNet.Transport.TcpServer` has the functions that change the members of a server.  Here
they are the steps of a machine of their own, `TcpServer.call`, which knows nothing of loops,
queues and connections.  The models of a server at work each look at another part of it: the
requests (`ServerControl`), the acceptor (`ServerQueue`), the worker loops (`ServerLoops`,
`ServerPool`), and the calls nested on the main loop (`ServerMain`).  Their steps change the
members only by runs of this machine, so what is shown here holds in all of them.
-/

namespace SolarNet

open Lib

namespace TcpServer

variable {κ : Type*}

/-! ## The property -/

/-- A server that does not run and is fully stopped has no connection and no thread
pool. -/
def FullyStoppedSound (server : TcpServer κ) : Prop :=
  server.started = false → server.stopComplete = true →
    server.connections = [] ∧ server.threadPool = false

/-- The invariant.  While the acceptor of a server that does not run is there, the
server has never run. -/
structure FlagsInv (server : TcpServer κ) : Prop where
  fresh : server.started = false → server.acceptor = true → server.stopComplete = true
  sound : FullyStoppedSound server

theorem new_flagsInv (threadNum : Nat) : FlagsInv (new threadNum : TcpServer κ) where
  fresh := fun _ _ => rfl
  sound := fun _ _ => ⟨rfl, rfl⟩

/-- A running server has nothing to show. -/
theorem FlagsInv.of_started {server : TcpServer κ} (hStarted : server.started = true) :
    FlagsInv server where
  fresh := by simp [hStarted]
  sound := by simp [FullyStoppedSound, hStarted]

/-! ## The functions -/

theorem FlagsInv.setThreadNum {server : TcpServer κ} (hInv : FlagsInv server)
    (threadNum : Nat) : FlagsInv (server.setThreadNum threadNum) := by
  unfold TcpServer.setThreadNum
  split
  · exact hInv
  · exact ⟨hInv.fresh, hInv.sound⟩

theorem FlagsInv.stopInLoop {server : TcpServer κ} (hInv : FlagsInv server) :
    FlagsInv server.stopInLoop := by
  by_cases hStarted : server.started = true
  · by_cases hEmpty : server.connections = []
    · -- Nothing is open: the pool is stopped at once.
      constructor
      · simp [TcpServer.stopInLoop, TcpServer.stopThreadPoolInLoop, hStarted, hEmpty]
      · simp [FullyStoppedSound, TcpServer.stopInLoop, TcpServer.stopThreadPoolInLoop, hStarted,
          hEmpty]
    · constructor
      · simp [TcpServer.stopInLoop, hStarted, hEmpty]
      · simp [FullyStoppedSound, TcpServer.stopInLoop, hStarted, hEmpty]
  · obtain ⟨-, -, -, hSame⟩ := server.stopInLoop_frame
    rw [hSame (by simpa using hStarted)]
    exact hInv

/-- `StartInLoop` when the server runs already, has to wait for no workers, or
listens. -/
theorem startInLoop_failed {server server' : TcpServer κ}
    (hAlone : server.started = false → server.acceptor = true → server.threadNum = 0)
    (hStart : server.startInLoop false = some server') : server' = server := by
  unfold TcpServer.startInLoop at hStart
  by_cases hStarted : server.started = true
  · simpa [hStarted] using hStart.symm
  · have hStarted : server.started = false := by simpa using hStarted
    by_cases hAcceptor : server.acceptor = true
    · simpa [hStarted, hAcceptor, hAlone hStarted hAcceptor] using hStart.symm
    · by_cases hPool : 0 < server.threadNum <;> simp [hStarted, hAcceptor, hPool] at hStart

theorem startInLoop_listens {server server' : TcpServer κ}
    (hStart : server.startInLoop true = some server') : server'.started = true := by
  unfold TcpServer.startInLoop at hStart
  by_cases hStarted : server.started = true
  · obtain rfl : server = server' := by simpa [hStarted] using hStart
    exact hStarted
  · by_cases hPool : 0 < server.threadNum
    · simp only [hStarted, hPool, Bool.false_eq_true, if_false, if_true, Bool.not_true,
        Option.ite_none_left_eq_some, Option.some.injEq] at hStart
      rw [← hStart.2]
    · simp only [hStarted, hPool, Bool.false_eq_true, if_false, Bool.not_true,
        Option.ite_none_left_eq_some, Option.some.injEq] at hStart
      rw [← hStart.2]

/-- A server that did not run runs if `Listen` has succeeded. -/
theorem startInLoop_frame {server server' : TcpServer κ} {listens : Bool}
    (hStopped : server.started = false) (hStart : server.startInLoop listens = some server') :
    server'.acceptor = server.acceptor ∧ server'.started = listens := by
  simp only [TcpServer.startInLoop, hStopped, Bool.false_eq_true, if_false,
    Option.ite_none_left_eq_some] at hStart
  obtain ⟨-, hNext⟩ := hStart
  split at hNext <;> (obtain rfl := Option.some.inj hNext; split <;> simp_all)

/-- With its acceptor in place `StartInLoop` comes to an end. -/
theorem startInLoop_ne_none {server : TcpServer κ} (hAcceptor : server.acceptor = true)
    (listens : Bool) : server.startInLoop listens ≠ none := by
  unfold TcpServer.startInLoop
  by_cases hPool : 0 < server.threadNum <;>
    by_cases hStarted : server.started = true <;>
      cases listens <;> simp [hPool, hStarted, hAcceptor]

/-- A failed `Listen` of a server with worker threads leaves the pool behind. -/
theorem startInLoop_leaves_pool {server server' : TcpServer κ}
    (hStart : server.startInLoop false = some server') (hStarted : server.started = false)
    (hPool : server.threadNum ≠ 0) :
    server'.started = false ∧ server'.stopComplete = server.stopComplete ∧
      server'.threadPool = true := by
  have hPool : 0 < server.threadNum := Nat.pos_of_ne_zero hPool
  simp only [TcpServer.startInLoop, hStarted, hPool, Bool.false_eq_true, if_false, if_true,
    Bool.not_false, Option.ite_none_left_eq_some, Option.some.injEq] at hStart
  obtain ⟨-, rfl⟩ := hStart
  exact ⟨rfl, rfl, rfl⟩

theorem FlagsInv.startInLoop {server server' : TcpServer κ} (hInv : FlagsInv server)
    {listens : Bool} (hStart : server.startInLoop listens = some server')
    (hAlone : listens = false → server.started = false → server.acceptor = true →
      server.threadNum = 0) : FlagsInv server' := by
  cases listens with
  | true => exact .of_started (startInLoop_listens hStart)
  | false =>
      rw [startInLoop_failed (hAlone rfl) hStart]
      exact hInv

variable [DecidableEq κ]

theorem FlagsInv.removeConnectionInLoop {server : TcpServer κ} (hInv : FlagsInv server)
    (conn : κ) : FlagsInv (server.removeConnectionInLoop conn) := by
  by_cases hStarted : server.started = true
  · apply FlagsInv.of_started
    rw [(server.removeConnectionInLoop_frame conn).2.1]
    exact hStarted
  · have hStarted : server.started = false := by simpa using hStarted
    by_cases hEmpty : server.connections.erase conn = []
    · constructor
      · simp [TcpServer.removeConnectionInLoop, TcpServer.stopThreadPoolInLoop, hStarted, hEmpty]
      · simp [FullyStoppedSound, TcpServer.removeConnectionInLoop,
          TcpServer.stopThreadPoolInLoop, hStarted, hEmpty]
    · -- A connection is left, so the stop was not complete before.
      have hPending : server.stopComplete ≠ true := by
        intro hComplete
        rw [(hInv.sound hStarted hComplete).1] at hEmpty
        exact hEmpty rfl
      have hSame : server.removeConnectionInLoop conn =
          { server with connections := server.connections.erase conn } := by
        simp [TcpServer.removeConnectionInLoop, hEmpty]
      rw [hSame]
      exact ⟨hInv.fresh, fun _ hComplete => absurd hComplete hPending⟩

/-! ## The machine -/

/-- A call that changes members of a server. -/
inductive ServerCall (κ : Type*) where
  | setThreadNum (threadNum : Nat)
  | startInLoop (listens : Bool)
  /-- `NewConnection` enters the connection in the table. -/
  | newConnection (conn : κ)
  | stopInLoop
  | removeConnectionInLoop (conn : κ)
  deriving DecidableEq, Repr

/-- The call does not start the server. -/
def ServerCall.keepsStopped : ServerCall κ → Prop
  | .startInLoop _ => False
  | _ => True

/-- `none` is the use of a null `m_acceptor`.  Connections come from the acceptor. -/
def call (server : TcpServer κ) : ServerCall κ → Option (TcpServer κ)
  | .setThreadNum threadNum => some (server.setThreadNum threadNum)
  | .startInLoop listens => server.startInLoop listens
  | .newConnection conn =>
      if server.acceptor then
        some { server with connections := server.connections ++ [conn] }
      else none
  | .stopInLoop => some server.stopInLoop
  | .removeConnectionInLoop conn => some (server.removeConnectionInLoop conn)

/-- A server that does not run and has no acceptor never runs again. -/
theorem exec_call_stopped {server next : TcpServer κ} {acts : List (ServerCall κ)}
    (hStopped : server.started = false ∧ server.acceptor = false)
    (hRun : exec call server acts = some next) :
    next.started = false ∧ next.acceptor = false := by
  refine exec_invariant (fun s : TcpServer κ => s.started = false ∧ s.acceptor = false) ?_
    hStopped hRun
  rintro s act s' ⟨hStarted, hNull⟩ hCall
  cases act with
  | setThreadNum threadNum =>
      obtain rfl := Option.some.inj hCall
      simp [setThreadNum, hStarted, hNull]
  | startInLoop listens =>
      -- `m_acceptor` is null.
      rw [call, startInLoop, if_neg (by simp [hStarted])] at hCall
      split at hCall <;> simp [hNull] at hCall
  | newConnection conn =>
      rw [call, if_neg (by simp [hNull])] at hCall
      cases hCall
  | stopInLoop =>
      obtain rfl := Option.some.inj hCall
      rw [s.stopInLoop_frame.2.2.2 hStarted]
      exact ⟨hStarted, hNull⟩
  | removeConnectionInLoop conn =>
      obtain rfl := Option.some.inj hCall
      obtain ⟨-, hSame, hSameAcceptor⟩ := s.removeConnectionInLoop_frame conn
      exact ⟨hSame.trans hStarted, hSameAcceptor.trans hNull⟩

/-- A server that runs, after a `StartInLoop` that listens. -/
def running (threadNum : Nat) : TcpServer κ :=
  { new threadNum with
    started := true, stopComplete := false, threadPool := decide (0 < threadNum) }

/-- Only a running server has an acceptor, and the flags are sound. -/
structure Settled (server : TcpServer κ) : Prop where
  acceptor : server.started = false → server.acceptor = false
  flags : FlagsInv server

omit [DecidableEq κ] in
theorem running_settled (threadNum : Nat) : Settled (running threadNum : TcpServer κ) :=
  ⟨nofun, .of_started rfl⟩

theorem call_settled (server : TcpServer κ) (act : ServerCall κ) (next : TcpServer κ)
    (hSettled : Settled server) (hKeeps : act.keepsStopped)
    (hCall : server.call act = some next) : Settled next := by
  cases act with
  | setThreadNum threadNum =>
      obtain rfl := Option.some.inj hCall
      refine ⟨?_, hSettled.flags.setThreadNum threadNum⟩
      unfold setThreadNum
      split <;> exact hSettled.acceptor
  | startInLoop listens => exact hKeeps.elim
  | newConnection conn =>
      obtain ⟨hThere, hNext⟩ := Option.ite_none_right_eq_some.mp hCall
      obtain rfl := Option.some.inj hNext
      have hStarted : server.started = true := by
        by_contra hStopped
        rw [hSettled.acceptor (by simpa using hStopped)] at hThere
        cases hThere
      exact ⟨fun hStopped => absurd (hStarted.symm.trans hStopped) (by simp), .of_started hStarted⟩
  | stopInLoop =>
      obtain rfl := Option.some.inj hCall
      obtain ⟨-, -, hNull, hSame⟩ := server.stopInLoop_frame
      refine ⟨fun _ => ?_, hSettled.flags.stopInLoop⟩
      cases hStarted : server.started with
      | true => exact hNull hStarted
      | false =>
          rw [hSame hStarted]
          exact hSettled.acceptor hStarted
  | removeConnectionInLoop conn =>
      obtain rfl := Option.some.inj hCall
      obtain ⟨-, hStarted, hAcceptor⟩ := server.removeConnectionInLoop_frame conn
      refine ⟨?_, hSettled.flags.removeConnectionInLoop conn⟩
      rw [hStarted, hAcceptor]
      exact hSettled.acceptor

/-- The members change by calls none of which starts the server. -/
def Calls (server next : TcpServer κ) : Prop :=
  ∃ acts, exec call server acts = some next ∧
    Meets call (fun _ act => act.keepsStopped) server acts

section Calls

variable {server next : TcpServer κ}

theorem Calls.refl (server : TcpServer κ) : Calls server server := ⟨[], rfl, trivial⟩

theorem Calls.trans {middle : TcpServer κ} (hFirst : Calls server middle)
    (hSecond : Calls middle next) : Calls server next := by
  obtain ⟨first, hFirstRun, hFirstKeeps⟩ := hFirst
  obtain ⟨second, hSecondRun, hSecondKeeps⟩ := hSecond
  exact ⟨first ++ second, exec_append_eq_some hFirstRun hSecondRun,
    hFirstKeeps.append hFirstRun hSecondKeeps⟩

theorem Calls.of_call (act : ServerCall κ) (hKeeps : act.keepsStopped)
    (hCall : server.call act = some next) : Calls server next :=
  ⟨[act], exec_cons_eq_some.mpr ⟨next, hCall, rfl⟩, hKeeps, fun _ _ => trivial⟩

theorem Calls.newConnection (hThere : server.acceptor = true) (conn : κ) :
    Calls server { server with connections := server.connections ++ [conn] } :=
  .of_call (.newConnection conn) trivial (by simp [call, hThere])

theorem Calls.stopInLoop (server : TcpServer κ) : Calls server server.stopInLoop :=
  .of_call .stopInLoop trivial rfl

theorem Calls.removeConnectionInLoop (server : TcpServer κ) (conn : κ) :
    Calls server (server.removeConnectionInLoop conn) :=
  .of_call (.removeConnectionInLoop conn) trivial rfl

theorem Calls.settled (hCalls : Calls server next) (hSettled : Settled server) :
    Settled next := by
  obtain ⟨acts, hRun, hKeeps⟩ := hCalls
  exact exec_invariant_of_meets Settled call_settled hSettled hKeeps hRun

/-- Without an acceptor no connection comes, and the acceptor does not come back. -/
theorem Calls.stopped (hCalls : Calls server next) (hNull : server.acceptor = false) :
    next.acceptor = false ∧ next.connections ⊆ server.connections := by
  obtain ⟨acts, hRun, hKeeps⟩ := hCalls
  refine exec_invariant_of_meets
    (fun other => other.acceptor = false ∧ other.connections ⊆ server.connections) ?_
    ⟨hNull, List.Subset.refl _⟩ hKeeps hRun
  rintro s act s' ⟨hAcceptor, hSubset⟩ hKeeps hCall
  cases act with
  | setThreadNum threadNum =>
      obtain rfl := Option.some.inj hCall
      unfold setThreadNum
      split <;> exact ⟨hAcceptor, hSubset⟩
  | startInLoop listens => exact hKeeps.elim
  | newConnection conn =>
      obtain ⟨hThere, -⟩ := Option.ite_none_right_eq_some.mp hCall
      rw [hAcceptor] at hThere
      cases hThere
  | stopInLoop =>
      obtain rfl := Option.some.inj hCall
      obtain ⟨hTable, -, hGone, hSame⟩ := s.stopInLoop_frame
      rw [hTable]
      cases hStarted : s.started with
      | true => exact ⟨hGone hStarted, hSubset⟩
      | false =>
          rw [hSame hStarted]
          exact ⟨hAcceptor, hSubset⟩
  | removeConnectionInLoop conn =>
      obtain rfl := Option.some.inj hCall
      obtain ⟨hTable, -, hSame⟩ := s.removeConnectionInLoop_frame conn
      rw [hTable, hSame]
      exact ⟨hAcceptor, List.Subset.trans List.erase_subset hSubset⟩

/-- A model whose steps change the members by calls does so in its runs. -/
theorem calls_of_exec {σ ι : Type*} {step : σ → ι → Option σ} (server : σ → TcpServer κ)
    (hStep : ∀ s label s', step s label = some s' → Calls (server s) (server s'))
    {s final : σ} {labels : List ι} (hRun : exec step s labels = some final) :
    Calls (server s) (server final) :=
  exec_invariant (fun t => Calls (server s) (server t))
    (fun t label t' hCalls hNext => hCalls.trans (hStep t label t' hNext)) (.refl _) hRun

end Calls

end TcpServer

end SolarNet
