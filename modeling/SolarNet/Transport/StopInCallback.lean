import SolarNet.Lib.Run
import SolarNet.Transport.ServerMain

/-!
# `Stop` from inside a callback

`StopInLoop` destroys the acceptor.  When it runs inside the accept loop, because the
callback of a new connection calls `Stop`, or while the listening channel waits in the
batch that is being dispatched, then the loop goes on with an acceptor that is gone.  The
result of this file is that these are the only ways to get there.
-/

namespace SolarNet

open Lib

namespace ServerMain

variable {κ : Type*}

/-- The loop thread will come back to the acceptor. -/
def awaitsAcceptor (s : ServerMain κ) : Prop := .acceptLoop ∈ s.stack ∨ .listener ∈ s.active

/-- After the acceptor was destroyed nothing was done with it. -/
structure AcceptorSafe (s : ServerMain κ) : Prop where
  unused : s.usedDestroyed = false
  forgotten : s.server.acceptor = false → ¬s.awaitsAcceptor

/-- A `StopInLoop` that takes effect is not inside an accept loop, and the listening
channel does not wait in the batch. -/
def StopsOutsideAccept (s : ServerMain κ) : MainLabel κ → Prop
  | .stopHere _ => s.server.started = true → ¬s.awaitsAcceptor
  | _ => True

instance [DecidableEq κ] (s : ServerMain κ) : Decidable s.awaitsAcceptor :=
  inferInstanceAs (Decidable (_ ∨ _))

instance [DecidableEq κ] (s : ServerMain κ) (label : MainLabel κ) :
    Decidable (StopsOutsideAccept s label) := by
  cases label with
  | stopHere order =>
      exact inferInstanceAs (Decidable (s.server.started = true → ¬s.awaitsAcceptor))
  | _ => exact isTrue trivial

/-- A step that does not touch the acceptor: it keeps it, it has not used it, and it does
not make the loop come back to it. -/
structure Aside (s s' : ServerMain κ) : Prop where
  acceptor_eq : s'.server.acceptor = s.server.acceptor
  unused_eq : s'.usedDestroyed = s.usedDestroyed
  awaits : s'.awaitsAcceptor → s.awaitsAcceptor

theorem Aside.safe {s s' : ServerMain κ} (hAside : Aside s s') (hSafe : s.AcceptorSafe) :
    s'.AcceptorSafe where
  unused := by rw [hAside.unused_eq, hSafe.unused]
  forgotten hNull hAwaits :=
    hSafe.forgotten (hAside.acceptor_eq.symm.trans hNull) (hAside.awaits hAwaits)

theorem Aside.trans {s s' s'' : ServerMain κ} (hFirst : Aside s s') (hSecond : Aside s' s'') :
    Aside s s'' :=
  ⟨hSecond.acceptor_eq.trans hFirst.acceptor_eq, hSecond.unused_eq.trans hFirst.unused_eq,
    fun hAwaits => hFirst.awaits (hSecond.awaits hAwaits)⟩

theorem aside_push (s : ServerMain κ) {call : MainCall κ} (hCall : call ≠ .acceptLoop) :
    Aside s (s.push call) where
  acceptor_eq := rfl
  unused_eq := rfl
  awaits hAwaits := by
    rcases hAwaits with hStack | hActive
    · exact Or.inl ((List.mem_cons.mp hStack).resolve_left hCall.symm)
    · exact Or.inr hActive

/-- The innermost call returns. -/
theorem aside_pop {s : ServerMain κ} {call : MainCall κ} {rest : List (MainCall κ)}
    (hStack : s.stack = call :: rest) : Aside s { s with stack := rest } where
  acceptor_eq := rfl
  unused_eq := rfl
  awaits hAwaits := by
    rcases hAwaits with hRest | hActive
    · left
      rw [hStack]
      exact List.mem_cons_of_mem _ hRest
    · exact Or.inr hActive

variable [DecidableEq κ]

theorem aside_setState (s : ServerMain κ) (conn : κ) (state : ConnState) :
    Aside s (s.setState conn state) :=
  ⟨rfl, rfl, id⟩

theorem aside_removeConnection (s : ServerMain κ) (conn : κ) :
    Aside s (s.removeConnection conn) := by
  have hServer : Aside s { s with server := s.server.removeConnectionInLoop conn } :=
    ⟨(s.server.removeConnectionInLoop_frame conn).2.2, rfl, id⟩
  unfold removeConnection
  split
  · exact hServer.trans (aside_push _ (by simp))
  · exact hServer

theorem aside_close (s : ServerMain κ) (conn : κ) : Aside s (s.close conn) :=
  ((aside_setState s conn .kDisconnected).trans (aside_push _ (by simp))).trans
    (aside_removeConnection _ conn)

theorem aside_newConnection (onMain : κ → Bool) (s : ServerMain κ) (conn : κ) :
    Aside s (s.newConnection onMain conn) := by
  have hAdded : Aside s { s with
      server := { s.server with connections := s.server.connections ++ [conn] }
      created := Function.update s.created conn true } := ⟨rfl, rfl, id⟩
  unfold newConnection
  split
  · exact hAdded.trans ((aside_setState _ conn .kConnected).trans (aside_push _ (by simp)))
  · exact hAdded

theorem aside_resumes {s s' : ServerMain κ} {call : MainCall κ} {rest : List (MainCall κ)}
    (hStack : s.stack = call :: rest) (hResumes : Resumes s rest call s') : Aside s s' := by
  have hPop : Aside s { s with stack := rest } := aside_pop hStack
  have hNext : ∀ more, Aside s { s with stack := .stopLoop more :: rest } := by
    intro more
    refine ⟨rfl, rfl, fun hAwaits => ?_⟩
    rcases hAwaits with hNext | hActive
    · exact hPop.awaits (Or.inl ((List.mem_cons.mp hNext).resolve_left (by simp)))
    · exact Or.inr hActive
  cases hResumes with
  | returns => exact hPop
  | report conn => exact hPop.trans (aside_push _ (by simp))
  | pass conn more => exact hNext more
  | close conn more => exact (hNext more).trans (aside_close _ conn)

omit [DecidableEq κ] in
/-- `StopInLoop` outside of the accept loop. -/
theorem AcceptorSafe.stopInLoop {s : ServerMain κ} (hSafe : s.AcceptorSafe) (order : List κ)
    (hOutside : s.server.started = true → ¬s.awaitsAcceptor) :
    (s.stopInLoop order).AcceptorSafe := by
  by_cases hStarted : s.server.started = true
  · have hAwaits := hOutside hStarted
    have hStopped : { s with server := s.server.stopInLoop }.AcceptorSafe :=
      ⟨hSafe.unused, fun _ => hAwaits⟩
    simp only [ServerMain.stopInLoop, hStarted, Bool.not_true, Bool.false_eq_true, if_false]
    split
    · exact (aside_push _ (by simp)).safe hStopped
    · exact (aside_push _ (by simp)).safe hStopped
  · have hSame : s.stopInLoop order = s := by simp [ServerMain.stopInLoop, hStarted]
    rw [hSame]
    exact hSafe

variable (onMain : κ → Bool)

omit [DecidableEq κ] in
/-- What waits for the acceptor finds it. -/
theorem AcceptorSafe.there {s : ServerMain κ} (hSafe : s.AcceptorSafe)
    (hAwaits : s.awaitsAcceptor) : s.server.acceptor = true := by
  by_contra hNull
  exact hSafe.forgotten (Bool.eq_false_of_not_eq_true hNull) hAwaits

theorem mainMove_acceptorSafe {s s' : ServerMain κ} {label : MainLabel κ}
    (hSafe : s.AcceptorSafe) (hOk : StopsOutsideAccept s label)
    (hMove : MainMove onMain s label s') : s'.AcceptorSafe := by
  cases hMove with
  | poll ready hStack hListener =>
      refine ⟨hSafe.unused, fun hNull hAwaits => ?_⟩
      rcases hAwaits with hCalls | hReady
      · simp [hStack] at hCalls
      · have hThere := hListener hReady
        change s.server.acceptor = false at hNull
        simp [hThere] at hNull
  | listener rest hActive hThere =>
      refine ⟨hSafe.unused, fun hNull => ?_⟩
      change s.server.acceptor = false at hNull
      simp [hThere] at hNull
  | destroyedListener rest hActive hNull =>
      have hThere := hSafe.there (Or.inr (by simp [hActive]))
      rw [hNull] at hThere
      cases hThere
  | handler rest hActive =>
      have hRest : Aside s { s with active := rest } := by
        refine ⟨rfl, rfl, fun hAwaits => hAwaits.imp_right fun hListener => ?_⟩
        rw [hActive]
        exact List.mem_cons_of_mem _ hListener
      exact (hRest.trans (aside_push _ (by simp))).safe hSafe
  | enter => exact (aside_push s (by simp)).safe hSafe
  | leave call rest hStack => exact (aside_pop hStack).safe hSafe
  | newConnection conn => exact (aside_newConnection onMain s conn).safe hSafe
  | acceptNone rest hStack =>
      have hThere := hSafe.there (Or.inl (by simp [hStack]))
      have hPopped : { s with stack := rest }.AcceptorSafe := (aside_pop hStack).safe hSafe
      exact ⟨by simp [hSafe.unused, hThere], hPopped.forgotten⟩
  | stopHere order => exact hSafe.stopInLoop order hOk
  | forceClose conn => exact (aside_close s conn).safe hSafe
  | forceCloseIdle conn => exact hSafe
  | handleClose conn => exact (aside_close s conn).safe hSafe
  | shutdownInLoop conn => exact (aside_setState s conn _).safe hSafe
  | proceed info call rest hStack hResumes => exact (aside_resumes hStack hResumes).safe hSafe
  | stop => exact { hSafe with }
  | workerEstablished conn => exact (aside_setState s conn _).safe hSafe
  | workerClose conn => exact { hSafe with }
  | runStop order rest hStack hActive =>
      have hPopped : { s with queue := rest }.AcceptorSafe := { hSafe with }
      -- Functors run when nothing else is in progress.
      refine hPopped.stopInLoop order fun _ hAwaits => ?_
      rcases hAwaits with hCalls | hListener
      · simp [hStack] at hCalls
      · simp [hActive] at hListener
  | runRemove order conn rest =>
      have hPopped : Aside s { s with queue := rest } := ⟨rfl, rfl, id⟩
      exact (hPopped.trans (aside_removeConnection _ conn)).safe hSafe

theorem step_acceptorSafe (s : ServerMain κ) (label : MainLabel κ) (s' : ServerMain κ)
    (hSafe : s.AcceptorSafe) (hOk : StopsOutsideAccept s label)
    (hStep : s.step onMain label = some s') : s'.AcceptorSafe := by
  obtain ⟨next, hMove, rfl⟩ := exists_mainMove_of_step onMain hStep
  exact { mainMove_acceptorSafe onMain hSafe hOk hMove with }

/-- In every run in which each `StopInLoop` that takes effect is outside of the accept
loop and does not find the listening channel in the batch: no step is made on an acceptor
that was destroyed, and no step adds a connection after that. -/
theorem acceptorSafe_of_stopsOutside (threadNum : Nat) (labels : List (MainLabel κ))
    (s : ServerMain κ) (hRun : exec (step onMain) (running threadNum) labels = some s)
    (hMeets : Meets (step onMain) StopsOutsideAccept (running threadNum) labels) :
    s.usedDestroyed = false ∧
      (s.server.acceptor = false → ∀ label s', s.step onMain label = some s' →
        s'.server.connections ⊆ s.server.connections) := by
  have hStart : (running threadNum : ServerMain κ).AcceptorSafe := ⟨rfl, nofun⟩
  have hSafe : s.AcceptorSafe :=
    exec_invariant_of_meets AcceptorSafe (step_acceptorSafe onMain) hStart hMeets hRun
  exact ⟨hSafe.unused,
    fun hNull label s' hStep => ((step_calls onMain s label s' hStep).stopped hNull).2⟩

/-- A connection is accepted, and a timer stops the server. -/
def stopInTimer : List (MainLabel Nat) :=
  [.poll [.listener], .dispatch, .accept (some 0), .leave, .accept none, .poll [.other],
    .dispatch, .stopHere [0], .proceed true, .proceed true, .proceed true, .leave,
    .proceed true]

theorem acceptorSafe_of_stopsOutside_timer :
    ∃ s, exec (step fun _ => true) (running 0) stopInTimer = some s ∧
      s.server.acceptor = false ∧ s.server.connections = [] ∧ s.usedDestroyed = false := by
  have hMeets : Meets (step fun _ => true) StopsOutsideAccept (running 0) stopInTimer := by
    decide +kernel
  refine ⟨_, rfl, by decide, by decide, ?_⟩
  exact (acceptorSafe_of_stopsOutside (fun _ => true) 0 stopInTimer _ rfl hMeets).1

/-- The callback of the first connection that is accepted calls `Stop`. -/
def stopInConnected : List (MainLabel Nat) :=
  [.poll [.listener], .dispatch, .accept (some 0), .stopHere [0], .proceed true,
    .proceed true, .proceed true, .leave, .proceed true, .leave, .accept none]

/-- When the callback returns, `HandleRead` calls `Accept` on the destroyed acceptor. -/
theorem not_acceptorSafe_stopInConnected :
    ∃ s, exec (step fun _ => true) (running 0) stopInConnected = some s ∧
      s.server.acceptor = false ∧ s.usedDestroyed = true := by
  exact ⟨_, rfl, by decide, by decide⟩

end ServerMain
end SolarNet
