import Mathlib.Algebra.BigOperators.Group.Finset.Basic
import SolarNet.Transport.ServerStop

/-!
# `TcpServer::Stop` completes

Once `StopInLoop` has begun, the loops only have to work off what is queued.  Each
functor leads to a bounded chain of others: a `ForceClose` posts `ForceCloseInLoop`,
which enters `HandleClose`, which posts `RemoveConnection`, which posts
`ConnectDestroyed`.  `work` counts the steps that are left, and every step of a loop
takes at least one away, so the loops come to rest after at most that many steps,
whatever their interleaving, and then the server is fully stopped.
-/

namespace SolarNet

variable {κ ω : Type*}

/-- The steps that the loops take by themselves. -/
def ServerLabel.internal : ServerLabel κ ω → Bool
  | .runMain _ | .stopStep | .runWorker _ | .postRemove _ => true
  | _ => false

namespace ServerLoops

open Lib

/-! ## The work that is left -/

/-- The steps that a functor of the main loop leads to. -/
def mainFunctorWork : MainFunctor κ → ℕ
  | .stopInLoop => 1
  | .removeConnection _ => 2

def workerFunctorWork : WorkerFunctor κ → ℕ
  | .connectEstablished _ => 1
  | .forceCloseInLoop _ => 4
  | .connectDestroyed _ => 1

/-- Each connection that `StopInLoop` still has to visit takes at most two tests and a
post, and the four steps of the functor that is posted. -/
def mainPcWork : MainPc κ → ℕ
  | .idle => 0
  | .closing rest => 1 + 7 * rest.length
  | .secondTest _ rest => 7 + 7 * rest.length
  | .posting _ rest => 6 + 7 * rest.length

def workerPcWork : WorkerPc κ → ℕ
  | .idle => 0
  | .closing _ => 3

def workerWork (s : ServerLoops κ ω) (worker : ω) : ℕ :=
  ((s.workerQueues worker).map workerFunctorWork).sum + workerPcWork (s.workerPcs worker)

/-- All the steps that are left, when no `StopInLoop` starts afresh. -/
def work [Fintype ω] (s : ServerLoops κ ω) : ℕ :=
  (s.mainQueue.map mainFunctorWork).sum + mainPcWork s.mainPc + ∑ worker, s.workerWork worker

section Steps

variable [DecidableEq κ] [DecidableEq ω] [Fintype ω] {home : κ → Option ω} {s s' : ServerLoops κ ω}

omit [DecidableEq κ] in
/-- Only one worker has changed. -/
theorem sum_workerWork_of_eq (s s' : ServerLoops κ ω) (worker : ω)
    (hSame : ∀ other, other ≠ worker → s'.workerWork other = s.workerWork other) :
    ∑ other, s'.workerWork other + s.workerWork worker =
      ∑ other, s.workerWork other + s'.workerWork worker := by
  rw [← Finset.add_sum_erase _ _ (Finset.mem_univ worker),
    ← Finset.add_sum_erase _ s.workerWork (Finset.mem_univ worker)]
  have hRest : ∑ other ∈ Finset.univ.erase worker, s'.workerWork other =
      ∑ other ∈ Finset.univ.erase worker, s.workerWork other :=
    Finset.sum_congr rfl fun other hOther => hSame other (Finset.ne_of_mem_erase hOther)
  omega

omit [DecidableEq κ] in
/-- A post adds the work of the functor. -/
theorem work_postWorker (s : ServerLoops κ ω) (worker : ω) (functor : WorkerFunctor κ) :
    (s.postWorker worker functor).work = s.work + workerFunctorWork functor := by
  have hWorker : (s.postWorker worker functor).workerWork worker =
      s.workerWork worker + workerFunctorWork functor := by
    simp only [workerWork, postWorker, Function.update_self, List.map_append, List.map_cons,
      List.map_nil, List.sum_append, List.sum_singleton]
    omega
  have hSum := sum_workerWork_of_eq s (s.postWorker worker functor) worker
    (fun other hOther => by simp [workerWork, postWorker, hOther])
  simp only [work]
  rw [show (s.postWorker worker functor).mainQueue = s.mainQueue from rfl,
    show (s.postWorker worker functor).mainPc = s.mainPc from rfl]
  omega

omit [DecidableEq ω] in
/-- `closeHere` runs in place and posts nothing. -/
theorem closeHere_frame (s : ServerLoops κ ω) (conn : κ) :
    (s.closeHere conn).work = s.work ∧
      (s.closeHere conn).server.started = s.server.started := by
  unfold closeHere
  split
  · exact ⟨rfl, (s.server.removeConnectionInLoop_frame conn).2.1⟩
  · exact ⟨rfl, rfl⟩

/-- A piece of `StopInLoop`. -/
theorem stopStep_work (hStep : s.stopStep home = some s') :
    s'.work < s.work ∧ s'.server.started = s.server.started := by
  unfold stopStep at hStep
  cases hPc : s.mainPc with
  | idle => simp [hPc] at hStep
  | closing rest =>
      cases rest with
      | nil =>
          obtain rfl : { s with mainPc := .idle } = s' := by simpa [hPc] using hStep
          refine ⟨?_, rfl⟩
          simp only [work, workerWork, hPc, mainPcWork, List.length_nil]
          omega
      | cons conn rest =>
          obtain rfl := Option.some.inj (by simpa only [hPc] using hStep)
          refine ⟨?_, rfl⟩
          simp only [work, workerWork, hPc]
          split
          · simp only [mainPcWork, List.length_cons]
            omega
          · simp only [mainPcWork, List.length_cons]
            omega
  | secondTest conn rest =>
      obtain rfl := Option.some.inj (by simpa only [hPc] using hStep)
      refine ⟨?_, rfl⟩
      simp only [work, workerWork, hPc]
      split
      · simp only [mainPcWork]
        omega
      · simp only [mainPcWork]
        omega
  | posting conn rest =>
      -- Five units pay for the functor that is posted, which costs four at most.
      have hLeft : { s with mainPc := .closing rest }.work + 5 = s.work := by
        simp only [work, workerWork, hPc, mainPcWork]
        omega
      cases hHome : home conn with
      | some worker =>
          obtain rfl : { s with mainPc := .closing rest }.postWorker worker
              (.forceCloseInLoop conn) = s' := by
            simpa [hPc, hHome] using hStep
          refine ⟨?_, rfl⟩
          rw [work_postWorker, workerFunctorWork]
          omega
      | none =>
          obtain rfl : { s with mainPc := .closing rest }.closeHere conn = s' := by
            simpa [hPc, hHome] using hStep
          obtain ⟨hWork, hStarted⟩ := closeHere_frame { s with mainPc := .closing rest } conn
          refine ⟨?_, hStarted⟩
          omega

/-- `RemoveConnectionInLoop` posts at most a `ConnectDestroyed`. -/
theorem removeConnection_work (home : κ → Option ω) (s : ServerLoops κ ω) (conn : κ) :
    (s.removeConnection home conn).work ≤ s.work + 1 ∧
      (s.removeConnection home conn).server.started = s.server.started := by
  have hStarted := (s.server.removeConnectionInLoop_frame conn).2.1
  cases hHome : home conn with
  | some worker =>
      have hPost := work_postWorker { s with server := s.server.removeConnectionInLoop conn }
        worker (.connectDestroyed conn)
      simp only [removeConnection, hHome]
      exact ⟨hPost.le, hStarted⟩
  | none =>
      simp only [removeConnection, hHome]
      exact ⟨Nat.le_succ s.work, hStarted⟩

/-- A functor of the main loop, when the server does not run any more. -/
theorem runMain_work (hStopped : s.server.started = false) {order : List κ}
    (hStep : s.runMain home order = some s') :
    s'.work < s.work ∧ s'.server.started = false := by
  unfold runMain at hStep
  split at hStep
  · next rest hPc hQueue =>
    split at hStep
    · obtain rfl := Option.some.inj hStep
      refine ⟨?_, s.server.stopInLoop_frame.2.1⟩
      simp only [work, workerWork, beginStop, hStopped, hPc, hQueue, mainPcWork, mainFunctorWork,
        List.map_cons, List.sum_cons, Bool.false_eq_true, if_false]
      omega
    · cases hStep
  · next conn rest hPc hQueue =>
    obtain rfl := Option.some.inj hStep
    have hLeft : { s with mainQueue := rest }.work + 2 = s.work := by
      simp only [work, workerWork, hQueue, mainFunctorWork, List.map_cons, List.sum_cons]
      omega
    obtain ⟨hWork, hStarted⟩ := removeConnection_work home { s with mainQueue := rest } conn
    exact ⟨by omega, hStarted.trans hStopped⟩
  · cases hStep

omit [DecidableEq κ] in
/-- Taking a functor from the queue of a worker. -/
theorem work_popWorker {worker : ω} {functor : WorkerFunctor κ} {rest : List (WorkerFunctor κ)}
    (hQueue : s.workerQueues worker = functor :: rest) :
    { s with workerQueues := Function.update s.workerQueues worker rest }.work +
      workerFunctorWork functor = s.work := by
  have hSum := sum_workerWork_of_eq s
    { s with workerQueues := Function.update s.workerQueues worker rest } worker
    (fun other hOther => by simp [workerWork, hOther])
  simp only [work]
  simp only [workerWork, Function.update_self, hQueue, List.map_cons, List.sum_cons] at hSum ⊢
  omega

omit [DecidableEq κ] in
/-- A worker changes its place in `HandleClose`. -/
theorem work_setWorkerPc (s : ServerLoops κ ω) (worker : ω) (pc : WorkerPc κ) :
    { s with workerPcs := Function.update s.workerPcs worker pc }.work +
      workerPcWork (s.workerPcs worker) = s.work + workerPcWork pc := by
  have hSum := sum_workerWork_of_eq s
    { s with workerPcs := Function.update s.workerPcs worker pc } worker
    (fun other hOther => by simp [workerWork, hOther])
  simp only [work]
  simp only [workerWork, Function.update_self] at hSum ⊢
  omega

omit [DecidableEq ω] in
theorem work_setState (s : ServerLoops κ ω) (conn : κ) (state : ConnState) :
    (s.setState conn state).work = s.work := rfl

/-- `HandleClose` begins on a worker. -/
theorem work_beginClose (s : ServerLoops κ ω) {worker : ω}
    (hIdle : s.workerPcs worker = .idle) (conn : κ) :
    (s.beginClose worker conn).work = s.work + 3 := by
  have hPc := work_setWorkerPc s worker (.closing conn)
  rw [hIdle] at hPc
  exact hPc

/-- A functor of a worker. -/
theorem runWorker_work {worker : ω} (hStep : s.runWorker worker = some s') :
    s'.work < s.work ∧ s'.server.started = s.server.started := by
  unfold runWorker at hStep
  split at hStep
  case h_2 => cases hStep
  case h_1 functor rest hPc hQueue =>
    have hPopped := work_popWorker hQueue
    cases functor with
    | connectEstablished conn =>
        obtain rfl := Option.some.inj hStep
        rw [workerFunctorWork] at hPopped
        refine ⟨?_, rfl⟩
        rw [work_setState]
        omega
    | forceCloseInLoop conn =>
        obtain rfl := Option.some.inj hStep
        rw [workerFunctorWork] at hPopped
        split
        · have hBegun := work_beginClose
            { s with workerQueues := Function.update s.workerQueues worker rest } hPc conn
          exact ⟨by omega, rfl⟩
        · exact ⟨by omega, rfl⟩
    | connectDestroyed conn =>
        obtain rfl := Option.some.inj hStep
        rw [workerFunctorWork] at hPopped
        split
        · refine ⟨?_, rfl⟩
          rw [work_setState]
          omega
        · exact ⟨by omega, rfl⟩

theorem postRemove_work {worker : ω} (hStep : step home s (.postRemove worker) = some s') :
    s'.work < s.work ∧ s'.server.started = s.server.started := by
  simp only [step] at hStep
  split at hStep
  case h_2 => cases hStep
  case h_1 conn hClosing =>
    obtain rfl := Option.some.inj hStep
    refine ⟨?_, rfl⟩
    have hPc := work_setWorkerPc s worker .idle
    rw [hClosing] at hPc
    simp only [work, workerWork, workerPcWork, mainFunctorWork, List.map_append, List.map_cons,
      List.map_nil, List.sum_append, List.sum_singleton] at hPc ⊢
    omega

/-- Every step of a loop brings the rest nearer. -/
theorem internal_work {label : ServerLabel κ ω} (hInternal : label.internal = true)
    (hStopped : s.server.started = false) (hStep : step home s label = some s') :
    s'.work < s.work ∧ s'.server.started = false := by
  cases label with
  | runMain order => exact runMain_work hStopped hStep
  | stopStep =>
      obtain ⟨hWork, hStarted⟩ := stopStep_work hStep
      exact ⟨hWork, hStarted.trans hStopped⟩
  | runWorker worker =>
      obtain ⟨hWork, hStarted⟩ := runWorker_work hStep
      exact ⟨hWork, hStarted.trans hStopped⟩
  | postRemove worker =>
      obtain ⟨hWork, hStarted⟩ := postRemove_work hStep
      exact ⟨hWork, hStarted.trans hStopped⟩
  | newConnection conn | stop | stopHere order | closeHere conn | shutdownInLoop conn
  | forceClose conn | handleClose worker conn => cases hInternal

end Steps

/-! ## The loops come to rest -/

variable [DecidableEq κ] [DecidableEq ω] {home : κ → Option ω}

/-- When no loop can go on, none has anything to do. -/
theorem quiescent_of_stuck {s : ServerLoops κ ω}
    (hStuck : ∀ label : ServerLabel κ ω, label.internal = true → step home s label = none) :
    Quiescent s := by
  have hIdle : s.mainPc = .idle := by
    have hStop : s.stopStep home = none := hStuck .stopStep rfl
    unfold stopStep at hStop
    split at hStop
    · next hPc => exact hPc
    · cases hStop
    · cases hStop
    · cases hStop
    · split at hStop <;> cases hStop
  refine ⟨hIdle, ?_, fun worker => ?_⟩
  · have hMain : s.runMain home s.server.connections = none := hStuck (.runMain _) rfl
    cases hQueue : s.mainQueue with
    | nil => rfl
    | cons functor rest =>
        cases functor with
        | stopInLoop => simp [runMain, hIdle, hQueue] at hMain
        | removeConnection conn => simp [runMain, hIdle, hQueue] at hMain
  · have hPc : s.workerPcs worker = .idle := by
      have hPost : step home s (.postRemove worker) = none := hStuck (.postRemove worker) rfl
      simp only [step] at hPost
      split at hPost
      · cases hPost
      · next hPc => exact hPc
    refine ⟨?_, hPc⟩
    have hRun : s.runWorker worker = none := hStuck (.runWorker worker) rfl
    cases hQueue : s.workerQueues worker with
    | nil => rfl
    | cons functor rest =>
        cases functor with
        | connectEstablished conn => simp [runWorker, hPc, hQueue] at hRun
        | forceCloseInLoop conn => simp [runWorker, hPc, hQueue] at hRun
        | connectDestroyed conn => simp [runWorker, hPc, hQueue] at hRun

theorem stuck_of_quiescent {s : ServerLoops κ ω} (hQuiet : Quiescent s)
    {label : ServerLabel κ ω} (hInternal : label.internal = true) : step home s label = none := by
  obtain ⟨hIdle, hMain, hWorkers⟩ := hQuiet
  cases label with
  | runMain order => simp [step, runMain, hIdle, hMain]
  | stopStep => simp [step, stopStep, hIdle]
  | runWorker worker => simp [step, runWorker, hWorkers]
  | postRemove worker => simp [step, hWorkers]
  | newConnection conn | stop | stopHere order | closeHere conn | shutdownInLoop conn
  | forceClose conn | handleClose worker conn => cases hInternal

/-- A run of the loops by themselves is no longer than the work that was left. -/
theorem internal_run_bounded [Fintype ω] {s final : ServerLoops κ ω}
    {later : List (ServerLabel κ ω)} (hInternal : ∀ label ∈ later, label.internal = true)
    (hStopped : s.server.started = false) (hRun : exec (step home) s later = some final) :
    later.length + final.work ≤ s.work ∧ final.server.started = false := by
  induction later generalizing s with
  | nil =>
      obtain rfl : s = final := by simpa using hRun
      exact ⟨by simp, hStopped⟩
  | cons label later ih =>
      obtain ⟨next, hNext, hRest⟩ := exec_cons_eq_some.mp hRun
      obtain ⟨hWork, hNextStopped⟩ :=
        internal_work (hInternal label List.mem_cons_self) hStopped hNext
      obtain ⟨hLater, hFinal⟩ := ih
        (fun other hOther => hInternal other (List.mem_cons_of_mem label hOther)) hNextStopped hRest
      refine ⟨?_, hFinal⟩
      rw [List.length_cons]
      omega

/-! ## What is gone -/

/-- A connection that is not in the table any more is closed, and a stop that is complete has
taken the worker pool down. -/
structure Released (s : ServerLoops κ ω) : Prop where
  gone : ∀ conn, s.created conn = true → conn ∉ s.server.connections →
    s.states conn = .kDisconnected
  removing : ∀ conn, .removeConnection conn ∈ s.mainQueue → s.states conn = .kDisconnected
  closing : ∀ worker conn, s.workerPcs worker = .closing conn → s.states conn = .kDisconnected
  pool : s.server.stopComplete = true → s.server.threadPool = false

omit [DecidableEq κ] [DecidableEq ω] in
theorem running_released (threadNum : ℕ) : Released (running threadNum : ServerLoops κ ω) where
  gone := by simp [running]
  removing := by simp [running]
  closing := by simp [running]
  pool := by simp [running]

section Pieces

variable {s : ServerLoops κ ω}

omit [DecidableEq ω] in
/-- A closed connection stays closed. -/
theorem Released.setState (hReleased : Released s) {conn : κ} {state : ConnState}
    (hStays : s.states conn = .kDisconnected → state = .kDisconnected) :
    Released (s.setState conn state) := by
  have hState : ∀ other, s.states other = .kDisconnected →
      (s.setState conn state).states other = .kDisconnected := by
    intro other hClosed
    by_cases hSame : other = conn
    · rw [hSame] at hClosed ⊢
      simpa [ServerLoops.setState] using hStays hClosed
    · simpa [ServerLoops.setState, hSame] using hClosed
  exact ⟨fun other hCreated hGone => hState other (hReleased.gone other hCreated hGone),
    fun other hMem => hState other (hReleased.removing other hMem),
    fun worker other hPc => hState other (hReleased.closing worker other hPc), hReleased.pool⟩

omit [DecidableEq ω] in
/-- `RemoveConnectionInLoop` of a closed connection. -/
theorem Released.erase (hReleased : Released s) {conn : κ}
    (hClosed : s.states conn = .kDisconnected) :
    Released { s with server := s.server.removeConnectionInLoop conn } := by
  have hTable := (s.server.removeConnectionInLoop_frame conn).1
  refine ⟨fun other hCreated hGone => ?_, hReleased.removing, hReleased.closing, ?_⟩
  · by_cases hSame : other = conn
    · rwa [hSame]
    · rw [hTable, List.mem_erase_of_ne hSame] at hGone
      exact hReleased.gone other hCreated hGone
  · show (s.server.removeConnectionInLoop conn).stopComplete = true →
      (s.server.removeConnectionInLoop conn).threadPool = false
    unfold TcpServer.removeConnectionInLoop
    split
    · exact fun _ => rfl
    · exact hReleased.pool

omit [DecidableEq κ] [DecidableEq ω] in
theorem Released.beginStop (hReleased : Released s) (order : List κ) :
    Released (s.beginStop order) := by
  refine ⟨fun other hCreated hGone => ?_, hReleased.removing, hReleased.closing, ?_⟩
  · rw [ServerLoops.beginStop, s.server.stopInLoop_frame.1] at hGone
    exact hReleased.gone other hCreated hGone
  · show s.server.stopInLoop.stopComplete = true → s.server.stopInLoop.threadPool = false
    unfold TcpServer.stopInLoop
    split
    · exact hReleased.pool
    · dsimp only
      split
      · exact fun _ => rfl
      · simp

omit [DecidableEq κ] in
theorem Released.postWorker (hReleased : Released s) (worker : ω) (functor : WorkerFunctor κ) :
    Released (s.postWorker worker functor) :=
  ⟨hReleased.gone, hReleased.removing, hReleased.closing, hReleased.pool⟩

omit [DecidableEq ω] in
theorem Released.closeHere (hReleased : Released s) (conn : κ) : Released (s.closeHere conn) := by
  unfold ServerLoops.closeHere
  split
  · have hClosed : Released (s.setState conn .kDisconnected) := hReleased.setState fun _ => rfl
    exact hClosed.erase (by simp [ServerLoops.setState])
  · exact hReleased

/-- `HandleClose` on a worker. -/
theorem Released.beginClose (hReleased : Released s) (worker : ω) (conn : κ) :
    Released (s.beginClose worker conn) := by
  have hClosed : Released (s.setState conn .kDisconnected) := hReleased.setState fun _ => rfl
  refine ⟨hClosed.gone, hClosed.removing, fun other closing hPc => ?_, hClosed.pool⟩
  by_cases hSame : other = worker
  · obtain rfl : conn = closing := by
      simpa [ServerLoops.beginClose, hSame] using hPc
    simp [ServerLoops.beginClose, ServerLoops.setState]
  · have hBefore : s.workerPcs other = .closing closing := by
      simpa [ServerLoops.beginClose, hSame] using hPc
    exact hClosed.closing other closing hBefore

theorem Released.newConnection (hReleased : Released s) (hInv : ServerInv home s) {conn : κ}
    (hNew : s.created conn = false) : Released (s.newConnection home conn) := by
  have hInserted : Released { s with
      server := { s.server with connections := s.server.connections ++ [conn] }
      created := Function.update s.created conn true } := by
    refine ⟨fun other hCreated hGone => ?_, hReleased.removing, hReleased.closing, hReleased.pool⟩
    obtain ⟨hAbsent, hOther⟩ : other ∉ s.server.connections ∧ other ≠ conn := by
      simpa using hGone
    exact hReleased.gone other (by simpa [hOther] using hCreated) hAbsent
  -- A new connection has not been closed.
  have hFresh : s.states conn ≠ .kDisconnected := by simp [(hInv.fresh conn hNew).1]
  unfold ServerLoops.newConnection
  dsimp only
  split
  · exact (hInserted.setState fun hClosed => absurd hClosed hFresh).postWorker _ _
  · exact hInserted.setState fun hClosed => absurd hClosed hFresh

theorem Released.runWorker {s' : ServerLoops κ ω} (hReleased : Released s)
    (hInv : ServerInv home s) {worker : ω} (hStep : s.runWorker worker = some s') :
    Released s' := by
  unfold ServerLoops.runWorker at hStep
  split at hStep
  case h_2 => cases hStep
  case h_1 functor rest hIdle hQueue =>
    have hPopped : Released
        { s with workerQueues := Function.update s.workerQueues worker rest } :=
      ⟨hReleased.gone, hReleased.removing, hReleased.closing, hReleased.pool⟩
    cases functor with
    | connectEstablished conn =>
        obtain rfl := Option.some.inj hStep
        have hConnecting := (hInv.est worker conn (by simp [hQueue])).1
        exact hPopped.setState fun hClosed => by
          rw [show s.states conn = .kDisconnected from hClosed] at hConnecting
          cases hConnecting
    | forceCloseInLoop conn =>
        obtain rfl := Option.some.inj hStep
        split
        · exact hPopped.beginClose worker conn
        · exact hPopped
    | connectDestroyed conn =>
        obtain rfl := Option.some.inj hStep
        split
        · exact hPopped.setState fun _ => rfl
        · exact hPopped

theorem Released.runMain {s' : ServerLoops κ ω} (hReleased : Released s) {order : List κ}
    (hStep : s.runMain home order = some s') : Released s' := by
  unfold ServerLoops.runMain at hStep
  split at hStep
  · next rest hIdle hQueue =>
    obtain ⟨-, hNext⟩ := Option.ite_none_right_eq_some.mp hStep
    rw [← Option.some.inj hNext]
    have hPopped : Released { s with mainQueue := rest } :=
      ⟨hReleased.gone, fun other hMem => hReleased.removing other
        (by rw [hQueue]; exact List.mem_cons_of_mem _ hMem), hReleased.closing, hReleased.pool⟩
    exact hPopped.beginStop order
  · next conn rest hIdle hQueue =>
    obtain rfl := Option.some.inj hStep
    have hClosed := hReleased.removing conn (by simp [hQueue])
    have hPopped : Released { s with mainQueue := rest } :=
      ⟨hReleased.gone, fun other hMem => hReleased.removing other
        (by rw [hQueue]; exact List.mem_cons_of_mem _ hMem), hReleased.closing, hReleased.pool⟩
    have hErased := hPopped.erase hClosed
    unfold ServerLoops.removeConnection
    dsimp only
    split
    · exact hErased.postWorker _ _
    · exact hErased
  · cases hStep

theorem Released.stopStep {s' : ServerLoops κ ω} (hReleased : Released s)
    (hStep : s.stopStep home = some s') : Released s' := by
  have hPc : ∀ pc, Released { s with mainPc := pc } := fun _ =>
    ⟨hReleased.gone, hReleased.removing, hReleased.closing, hReleased.pool⟩
  unfold ServerLoops.stopStep at hStep
  split at hStep
  · cases hStep
  · obtain rfl := Option.some.inj hStep
    exact hPc _
  · obtain rfl := Option.some.inj hStep
    exact hPc _
  · obtain rfl := Option.some.inj hStep
    exact hPc _
  · next conn rest hPosting =>
    dsimp only at hStep
    split at hStep
    · obtain rfl := Option.some.inj hStep
      exact (hPc _).postWorker _ _
    · obtain rfl := Option.some.inj hStep
      exact (hPc _).closeHere conn

end Pieces

theorem step_released {s s' : ServerLoops κ ω} {label : ServerLabel κ ω}
    (hInv : ServerInv home s) (hReleased : Released s) (hStep : step home s label = some s') :
    Released s' := by
  cases label with
  | newConnection conn =>
      obtain ⟨⟨-, -, hNew⟩, hNext⟩ := Option.ite_none_right_eq_some.mp hStep
      rw [← Option.some.inj hNext]
      exact hReleased.newConnection hInv hNew
  | stop =>
      obtain rfl := Option.some.inj hStep
      refine ⟨hReleased.gone, fun conn hMem => hReleased.removing conn ?_, hReleased.closing,
        hReleased.pool⟩
      simpa using hMem
  | stopHere order =>
      obtain ⟨-, hNext⟩ := Option.ite_none_right_eq_some.mp hStep
      rw [← Option.some.inj hNext]
      exact hReleased.beginStop order
  | runMain order => exact hReleased.runMain hStep
  | stopStep => exact hReleased.stopStep hStep
  | closeHere conn =>
      simp only [step] at hStep
      split at hStep
      · obtain rfl := Option.some.inj hStep
        exact hReleased.closeHere conn
      · obtain rfl := Option.some.inj hStep
        exact hReleased.closeHere conn
      · cases hStep
  | shutdownInLoop conn =>
      obtain ⟨hConnected, hNext⟩ := Option.ite_none_right_eq_some.mp hStep
      rw [← Option.some.inj hNext]
      exact hReleased.setState fun hClosed => by rw [hConnected] at hClosed; cases hClosed
  | forceClose conn =>
      simp only [step] at hStep
      split at hStep
      · obtain ⟨-, hNext⟩ := Option.ite_none_right_eq_some.mp hStep
        rw [← Option.some.inj hNext]
        exact hReleased.postWorker _ _
      · cases hStep
  | runWorker worker => exact hReleased.runWorker hInv hStep
  | handleClose worker conn =>
      obtain ⟨-, hNext⟩ := Option.ite_none_right_eq_some.mp hStep
      rw [← Option.some.inj hNext]
      exact hReleased.beginClose worker conn
  | postRemove worker =>
      simp only [step] at hStep
      split at hStep
      · next conn hClosing =>
        obtain rfl := Option.some.inj hStep
        refine ⟨hReleased.gone, fun other hMem => ?_, fun other closing hPc => ?_, hReleased.pool⟩
        · rcases List.mem_append.mp hMem with hOld | hPosted
          · exact hReleased.removing other hOld
          · obtain rfl : other = conn := by simpa using hPosted
            exact hReleased.closing worker other hClosing
        · by_cases hSame : other = worker
          · simp [hSame] at hPc
          · exact hReleased.closing other closing (by simpa [hSame] using hPc)
      · cases hStep

/-- The two invariants of a run in which `StopInLoop` meets established connections. -/
theorem exec_released {s s' : ServerLoops κ ω} {labels : List (ServerLabel κ ω)}
    (hInv : ServerInv home s) (hReleased : Released s)
    (hMeets : Meets (step home) MeetsEstablished s labels)
    (hRun : exec (step home) s labels = some s') : ServerInv home s' ∧ Released s' :=
  exec_invariant_of_meets (fun s => ServerInv home s ∧ Released s)
    (fun _ _ _ hBoth hLabel hStep =>
      ⟨step_inv hBoth.1 hLabel hStep, step_released hBoth.1 hBoth.2 hStep⟩)
    ⟨hInv, hReleased⟩ hMeets hRun

/-- **Stopping completes.**  Take any run in which `StopInLoop` has begun, and let the
loops go on by themselves in any interleaving, where `StopInLoop` comes across no
connection that is not established.  They take at most `work` steps, and where none of
them can go on, every connection that was ever made is closed and out of the table, the
worker pool is taken down, and the server is fully stopped. -/
theorem stop_completes [Fintype ω] {threadNum : ℕ} {labels : List (ServerLabel κ ω)}
    {s : ServerLoops κ ω}
    (hMeets : Meets (step home) MeetsEstablished (running threadNum) labels)
    (hRun : exec (step home) (running threadNum) labels = some s)
    (hStopped : s.server.started = false) {later : List (ServerLabel κ ω)}
    {final : ServerLoops κ ω} (hInternal : ∀ label ∈ later, label.internal = true)
    (hLaterMeets : Meets (step home) MeetsEstablished s later)
    (hLater : exec (step home) s later = some final) :
    later.length + final.work ≤ s.work ∧
      ((∀ label : ServerLabel κ ω, label.internal = true → step home final label = none) →
        Quiescent final ∧ final.server.connections = [] ∧
          (∀ conn, final.created conn = true → final.states conn = .kDisconnected) ∧
          final.server.threadPool = false ∧ final.server.stopComplete = true) := by
  obtain ⟨hInv, hReleased⟩ :=
    exec_released (running_inv threadNum) (running_released threadNum) hMeets hRun
  obtain ⟨hFinal, hDone⟩ := exec_released hInv hReleased hLaterMeets hLater
  obtain ⟨hBound, hStill⟩ := internal_run_bounded hInternal hStopped hLater
  refine ⟨hBound, fun hStuck => ?_⟩
  have hQuiet := quiescent_of_stuck hStuck
  have hEmpty := hFinal.stopCloses.empty_of_quiescent hQuiet hStill
  have hComplete := hFinal.complete hStill hEmpty
  refine ⟨hQuiet, hEmpty, fun conn hCreated => ?_, hDone.pool hComplete, hComplete⟩
  exact hDone.gone conn hCreated (by simp [hEmpty])

/-- A worker connection and a connection of the main loop are stopped. -/
def stopRequested : List (ServerLabel Bool Unit) :=
  [.newConnection true, .newConnection false, .runWorker (), .stop, .runMain [true, false]]

def stopDrained : List (ServerLabel Bool Unit) :=
  [.stopStep, .stopStep, .stopStep, .stopStep, .stopStep, .runWorker (), .postRemove (),
    .runMain [], .runWorker ()]

theorem stop_completes_stopDrained :
    ∃ s final, exec (step oneEach) (running 1) stopRequested = some s ∧
      s.server.threadPool = true ∧ exec (step oneEach) s stopDrained = some final ∧
      stopDrained.length + final.work ≤ s.work ∧ final.server.connections = [] ∧
      final.states true = .kDisconnected ∧ final.states false = .kDisconnected ∧
      final.server.threadPool = false ∧ final.server.stopComplete = true := by
  have hEnd : (exec (step oneEach) (running 1) (stopRequested ++ stopDrained)).map
      (fun s => (decide (Quiescent s), s.created true, s.created false)) =
      some (true, true, true) := by
    decide +kernel
  obtain ⟨final, hRun, hSeen⟩ := Option.map_eq_some_iff.mp hEnd
  obtain ⟨hQuiet, hWorker, hMain⟩ :
      Quiescent final ∧ final.created true = true ∧ final.created false = true := by
    simpa using hSeen
  obtain ⟨s, hRequested, hDrained⟩ := exists_of_exec_append hRun
  have hStopped : s.server.started = false ∧ s.server.threadPool = true := by
    obtain rfl := Option.some.inj hRequested
    exact ⟨rfl, rfl⟩
  have hMeets : Meets (step oneEach) MeetsEstablished s stopDrained := by
    obtain rfl := Option.some.inj hRequested
    decide +kernel
  obtain ⟨hBound, hDone⟩ :=
    stop_completes (by decide +kernel) hRequested hStopped.1 (by decide) hMeets hDrained
  obtain ⟨-, hEmpty, hClosed, hPool, hComplete⟩ :=
    hDone fun label hInternal => stuck_of_quiescent hQuiet hInternal
  exact ⟨s, final, hRequested, hStopped.2, hDrained, hBound, hEmpty, hClosed true hWorker,
    hClosed false hMain, hPool, hComplete⟩

end ServerLoops
end SolarNet
