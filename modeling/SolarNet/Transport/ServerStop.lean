import SolarNet.Lib.Run
import SolarNet.Transport.ServerInvariant

/-!
# `TcpServer::Stop` with worker loops

The result of this file is that `StopInLoop` leaves no connection behind in a run in
which it meets no connection that is `kConnecting`.  A connection that a worker has
not established yet is left behind.
-/

namespace SolarNet
namespace ServerLoops

open Lib

variable {κ ω : Type*} [DecidableEq κ] [DecidableEq ω] {home : κ → Option ω}

/-! ## The steps -/

/-- `NewConnection`, which runs only while the acceptor exists. -/
theorem ServerInv.newConnection {s : ServerLoops κ ω} (hInv : ServerInv home s) {conn : κ}
    (hIdle : s.mainPc = .idle) (hAcceptor : s.server.acceptor = true)
    (hNew : s.created conn = false) : ServerInv home (s.newConnection home conn) := by
  have hStarted := hInv.acceptor_started hAcceptor
  unfold ServerLoops.newConnection
  cases hHome : home conn with
  | none =>
      exact hInv.insert hStarted hIdle hNew (by simp) fun _ => rfl
  | some worker =>
      have hInserted := hInv.insert hStarted hIdle hNew
        (by simp : ConnState.kConnecting ≠ .kDisconnected)
        fun hNone => by rw [hHome] at hNone; cases hNone
      refine hInserted.postWorker ?_ (by simp) (by simp)
      rintro other hSame
      obtain rfl : conn = other := by simpa using hSame
      refine ⟨Function.update_self .., hHome, Function.update_self .., fun hMem => ?_⟩
      rw [(hInv.est worker conn hMem).2.2] at hNew
      cases hNew

/-- The next piece of `StopInLoop`, in a state that meets the condition. -/
theorem ServerInv.stopStep {s s' : ServerLoops κ ω} (hInv : ServerInv home s)
    (hMeets : MeetsEstablished s .stopStep) (hStep : s.stopStep home = some s') :
    ServerInv home s' := by
  unfold ServerLoops.stopStep at hStep
  cases hPc : s.mainPc with
  | idle => simp [hPc] at hStep
  | closing rest =>
      cases rest with
      | nil =>
          obtain rfl : { s with mainPc := .idle } = s' := by simpa [hPc] using hStep
          refine hInv.setMainPc ?_ (by simp) (by simp)
          intro _ conn hMem
          rw [hPc] at hMem
          cases hMem
      | cons conn rest =>
          have hState : s.states conn ≠ .kConnecting := by
            simpa [MeetsEstablished, hPc] using hMeets
          by_cases hConnected : s.states conn = .kConnected
          · obtain rfl : { s with mainPc := .posting conn rest } = s' := by
              simpa [hPc, hConnected] using hStep
            apply hInv.keepUnexamined (by rw [hPc]; rfl) (by simp)
            rintro _ _ ⟨⟩
            exact hState
          · obtain rfl : { s with mainPc := .secondTest conn rest } = s' := by
              simpa [hPc, hConnected] using hStep
            refine hInv.keepUnexamined (by rw [hPc]; rfl) ?_ (by simp)
            rintro _ _ ⟨⟩
            exact ⟨hState, hConnected⟩
  | secondTest conn rest =>
      obtain ⟨hState, hConnected⟩ := hInv.second conn rest hPc
      by_cases hDisconnecting : s.states conn = .kDisconnecting
      · obtain rfl : { s with mainPc := .posting conn rest } = s' := by
          simpa [hPc, hDisconnecting] using hStep
        apply hInv.keepUnexamined (by rw [hPc]; rfl) (by simp)
        rintro _ _ ⟨⟩
        exact hState
      · obtain rfl : { s with mainPc := .closing rest } = s' := by
          simpa [hPc, hDisconnecting] using hStep
        refine hInv.setMainPc ?_ (by simp) (by simp)
        intro _ other hMem
        rw [hPc] at hMem
        rcases List.mem_cons.mp hMem with rfl | hRest
        · -- Both tests have failed, so the connection is not live.
          refine Or.inr (Or.inl (ConnState.closed_of_not_live hState ?_))
          rw [ConnState.live_iff]
          exact not_or.mpr ⟨hConnected, hDisconnecting⟩
        · exact Or.inl hRest
  | posting conn rest =>
      have hState := hInv.posting conn rest hPc
      cases hHome : home conn with
      | some worker =>
          obtain rfl : { s with mainPc := .closing rest }.postWorker worker
              (.forceCloseInLoop conn) = s' := by
            simpa [hPc, hHome] using hStep
          have hPosted : ServerInv home (s.postWorker worker (.forceCloseInLoop conn)) :=
            hInv.postWorker (by simp) (by rintro _ ⟨⟩; exact ⟨hState, hHome⟩) (by simp)
          show ServerInv home
            { s.postWorker worker (.forceCloseInLoop conn) with mainPc := .closing rest }
          refine hPosted.setMainPc ?_ (by simp) (by simp)
          intro _ other hMem
          have hMem : other ∈ unexamined s.mainPc := hMem
          rw [hPc] at hMem
          rcases List.mem_cons.mp hMem with rfl | hRest
          · refine Or.inr (Or.inr ⟨worker, hHome, ?_⟩)
            simp [ServerLoops.postWorker]
          · exact Or.inl hRest
      | none =>
          obtain rfl : { s with mainPc := .closing rest }.closeHere conn = s' := by
            simpa [hPc, hHome] using hStep
          rw [closeHere_mainPc]
          refine (hInv.closeHere conn).setMainPc ?_ (by simp) (by simp)
          intro _ other hMem
          rw [mainPc_closeHere, hPc] at hMem
          rcases List.mem_cons.mp hMem with rfl | hRest
          · exact Or.inr (Or.inl (closeHere_closed hState))
          · exact Or.inl hRest

theorem ServerInv.runMain {s s' : ServerLoops κ ω} (hInv : ServerInv home s) {order : List κ}
    (hStep : s.runMain home order = some s') : ServerInv home s' := by
  unfold ServerLoops.runMain at hStep
  split at hStep
  · next rest hPc hQueue =>
    split at hStep
    · next hOrder =>
      obtain rfl := Option.some.inj hStep
      have hPopped := hInv.popMain hQueue (by simp)
      exact hPopped.beginStop hPc hOrder
    · cases hStep
  · next conn rest hPc hQueue =>
    obtain rfl := Option.some.inj hStep
    -- The table entry goes before the functor does.
    obtain ⟨hErased, hGone⟩ := hInv.erase conn
    have hCreated : s.created conn = true := by
      by_contra hNot
      have hAbsent := (hInv.fresh conn (by simpa using hNot)).2.1
      rw [hQueue] at hAbsent
      exact hAbsent (List.mem_cons_self ..)
    have hPopped := hErased.popMain hQueue (by rintro _ ⟨⟩; exact hGone)
    unfold ServerLoops.removeConnection
    cases hHome : home conn with
    | some worker =>
        exact hPopped.postWorker (by simp) (by simp)
          (by rintro _ ⟨⟩; exact ⟨hGone, hCreated⟩)
    | none => exact hPopped
  · cases hStep

theorem ServerInv.runWorker {s s' : ServerLoops κ ω} (hInv : ServerInv home s) {worker : ω}
    (hStep : s.runWorker worker = some s') : ServerInv home s' := by
  unfold ServerLoops.runWorker at hStep
  split at hStep
  · next functor rest hPc hQueue =>
    cases functor with
    | connectEstablished conn =>
        obtain rfl := Option.some.inj hStep
        have hHead : .connectEstablished conn ∈ s.workerQueues worker := by
          rw [hQueue]
          exact List.mem_cons_self ..
        obtain ⟨hState, hHome, hCreated⟩ := hInv.est worker conn hHead
        have hPopped := hInv.popWorker hQueue (by simp)
        refine hPopped.setState ?_ hCreated (by simp) (by simp) (fun _ _ => rfl) ?_ ?_
        · intro other hMem
          have hMem : .connectEstablished conn ∈
            Function.update s.workerQueues worker rest other := hMem
          by_cases hOther : other = worker
          · -- The functor was queued once.
            have hOnce := hInv.est_once worker conn
            rw [hQueue, List.count_cons_self] at hOnce
            rw [hOther, Function.update_self] at hMem
            have hPositive := List.count_pos_iff.mpr hMem
            omega
          · rw [Function.update_of_ne hOther] at hMem
            have hOtherHome := (hInv.est other conn hMem).2.1
            rw [hHome] at hOtherHome
            exact hOther (by simpa using hOtherHome.symm)
        · intro hClosed
          have hClosed : s.states conn = .kDisconnected := hClosed
          rw [hState] at hClosed
          cases hClosed
        · intro more hSecond
          exact absurd hState (hInv.second conn more hSecond).1
    | forceCloseInLoop conn =>
        have hHead : .forceCloseInLoop conn ∈ s.workerQueues worker := by
          rw [hQueue]
          exact List.mem_cons_self ..
        obtain ⟨hState, hHome⟩ := hInv.forced worker conn hHead
        obtain rfl := Option.some.inj hStep
        split
        · -- `HandleClose` begins before the functor counts as done.
          have hBegun := hInv.beginClose hPc hHome hState
          refine hBegun.popWorker hQueue ?_
          rintro _ ⟨⟩
          simp [ServerLoops.beginClose, ServerLoops.setState]
        · next hLive =>
          refine hInv.popWorker hQueue ?_
          rintro _ ⟨⟩
          exact ConnState.closed_of_not_live hState hLive
    | connectDestroyed conn =>
        have hHead : .connectDestroyed conn ∈ s.workerQueues worker := by
          rw [hQueue]
          exact List.mem_cons_self ..
        obtain ⟨hGone, hCreated⟩ := hInv.destroyed worker conn hHead
        have hPopped := hInv.popWorker hQueue (by simp)
        obtain rfl := Option.some.inj hStep
        split
        · next hConnected =>
          have hConnected : s.states conn = .kConnected := hConnected
          refine hPopped.setState ?_ hCreated (by simp) (fun hMem => absurd hMem hGone)
            (fun hMem => absurd hMem hGone) (fun _ => rfl) (by simp)
          exact hPopped.not_est (by rw [show _ = _ from hConnected]; simp)
        · exact hPopped
  · cases hStep

/-- Every step keeps the invariant when `StopInLoop` meets no connection that is not
established. -/
theorem step_inv {s s' : ServerLoops κ ω} {label : ServerLabel κ ω} (hInv : ServerInv home s)
    (hMeets : MeetsEstablished s label) (hStep : step home s label = some s') :
    ServerInv home s' := by
  cases label with
  | newConnection conn =>
      obtain ⟨⟨hIdle, hAcceptor, hNew⟩, rfl⟩ :
          (s.mainPc = .idle ∧ s.server.acceptor = true ∧ s.created conn = false) ∧
            s.newConnection home conn = s' := by
        simpa [step, and_assoc] using hStep
      exact hInv.newConnection hIdle hAcceptor hNew
  | stop =>
      obtain rfl := Option.some.inj hStep
      exact hInv.postStop
  | stopHere order =>
      obtain ⟨⟨hIdle, hOrder⟩, rfl⟩ :
          (s.mainPc = .idle ∧ order.Perm s.server.connections) ∧ s.beginStop order = s' := by
        simpa [step, and_assoc] using hStep
      exact hInv.beginStop hIdle hOrder
  | runMain order => exact hInv.runMain hStep
  | stopStep => exact hInv.stopStep hMeets hStep
  | closeHere conn =>
      obtain rfl : s.closeHere conn = s' := by
        simp only [step] at hStep
        split at hStep
        · exact Option.some.inj hStep
        · exact Option.some.inj hStep
        · cases hStep
      exact hInv.closeHere conn
  | shutdownInLoop conn =>
      obtain ⟨hConnected, rfl⟩ :
          s.states conn = .kConnected ∧ s.setState conn .kDisconnecting = s' := by
        simpa [step] using hStep
      have hState : s.states conn ≠ .kConnecting := by simp [hConnected]
      exact hInv.setState (hInv.not_est hState) (hInv.created_of_state hState) (by simp)
        (by simp) (fun _ _ => rfl) (by simp [hConnected]) (by simp)
  | forceClose conn =>
      simp only [step] at hStep
      cases hHome : home conn with
      | some worker =>
          obtain ⟨hState, rfl⟩ : s.states conn ≠ .kConnecting ∧
              s.postWorker worker (.forceCloseInLoop conn) = s' := by
            simpa [hHome] using hStep
          exact hInv.postWorker (by simp) (by rintro _ ⟨⟩; exact ⟨hState, hHome⟩) (by simp)
      | none => simp [hHome] at hStep
  | runWorker worker => exact hInv.runWorker hStep
  | handleClose worker conn =>
      obtain ⟨⟨hIdle, hHome, hState⟩, rfl⟩ :
          (s.workerPcs worker = .idle ∧ home conn = some worker ∧
            s.states conn ≠ .kConnecting) ∧ s.beginClose worker conn = s' := by
        simpa [step, and_assoc] using hStep
      exact hInv.beginClose hIdle hHome hState
  | postRemove worker =>
      simp only [step] at hStep
      split at hStep
      · next conn hClosing =>
        obtain rfl := Option.some.inj hStep
        exact hInv.postRemove hClosing
      · cases hStep

/-! ## Stopping -/

/-- In a run in which `ForceClose`, called by `StopInLoop`, never finds a connection
that is not established, every connection left by `StopInLoop` is closing or about to,
and a stopped server with nothing left to do has no connection and is fully stopped. -/
theorem stopCloses_of_meetsEstablished (home : κ → Option ω) (threadNum : Nat)
    (labels : List (ServerLabel κ ω)) (s : ServerLoops κ ω)
    (hMeets : Meets (step home) MeetsEstablished (running threadNum) labels)
    (hRun : exec (step home) (running threadNum) labels = some s) :
    StopCloses home s ∧
      (Quiescent s → s.server.started = false →
        s.server.connections = [] ∧ s.server.stopComplete = true) := by
  have hInv : ServerInv home s :=
    exec_invariant_of_meets (ServerInv home)
      (fun _ _ _ hInv hMeets hStep => step_inv hInv hMeets hStep)
      (running_inv threadNum) hMeets hRun
  refine ⟨hInv.stopCloses, fun hQuiet hStopped => ?_⟩
  have hEmpty := hInv.stopCloses.empty_of_quiescent hQuiet hStopped
  exact ⟨hEmpty, hInv.complete hStopped hEmpty⟩

/-- Connection `true` lives on the only worker, connection `false` on the main loop. -/
def oneEach : Bool → Option Unit
  | true => some ()
  | false => none

/-- Both connections are established when the server is stopped. -/
def stopAfterEstablished : List (ServerLabel Bool Unit) :=
  [.newConnection true, .newConnection false, .runWorker (), .stop, .runMain [true, false],
    .stopStep, .stopStep, .stopStep, .stopStep, .stopStep, .runWorker (), .postRemove (),
    .runMain [], .runWorker ()]

theorem stopCloses_stopAfterEstablished :
    ∃ s, exec (step oneEach) (running 1) stopAfterEstablished = some s ∧ Quiescent s ∧
      s.server.started = false ∧ StopCloses oneEach s ∧ s.server.connections = [] ∧
      s.server.stopComplete = true := by
  have hEnd : (exec (step oneEach) (running 1) stopAfterEstablished).map
      (fun s => (decide (Quiescent s), s.server.started)) = some (true, false) := by
    decide +kernel
  obtain ⟨s, hRun, hFields⟩ := Option.map_eq_some_iff.mp hEnd
  obtain ⟨hQuiet, hStopped⟩ : Quiescent s ∧ s.server.started = false := by
    simpa using hFields
  obtain ⟨hCloses, hEmpty⟩ :=
    stopCloses_of_meetsEstablished oneEach 1 stopAfterEstablished s (by decide +kernel) hRun
  exact ⟨s, hRun, hQuiet, hStopped, hCloses, hEmpty hQuiet hStopped⟩

/-- `StopInLoop` runs before the worker has run `ConnectEstablished`. -/
def stopBeforeEstablished : List (ServerLabel Unit Unit) :=
  [.newConnection (), .stop, .runMain [()], .stopStep, .stopStep, .stopStep, .runWorker ()]

/-- The connection is not closed, and the server never becomes fully stopped. -/
theorem not_stopCloses_stopBeforeEstablished :
    ∃ s, exec (step some) (running 1) stopBeforeEstablished = some s ∧ Quiescent s ∧
      s.server.started = false ∧ s.server.stopComplete = false ∧
      s.server.connections = [()] ∧ ¬StopCloses some s := by
  have hEnd : (exec (step some) (running 1) stopBeforeEstablished).map
      (fun s => (decide (Quiescent s), s.server.started, s.server.stopComplete,
        s.server.connections)) = some (true, false, false, [()]) := by
    decide +kernel
  obtain ⟨s, hRun, hFields⟩ := Option.map_eq_some_iff.mp hEnd
  obtain ⟨hQuiet, hStopped, hStuck, hLeft⟩ : Quiescent s ∧ s.server.started = false ∧
      s.server.stopComplete = false ∧ s.server.connections = [()] := by
    simpa using hFields
  refine ⟨s, hRun, hQuiet, hStopped, hStuck, hLeft, fun hCloses => ?_⟩
  rw [hCloses.empty_of_quiescent hQuiet hStopped] at hLeft
  cases hLeft

end ServerLoops
end SolarNet
