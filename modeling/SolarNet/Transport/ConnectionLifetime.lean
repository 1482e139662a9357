import SolarNet.Transport.PoolQuit

/-!
# How long a connection object lives

A `TcpConnection` is owned by `TcpConnectionPtr`s: one in the table of the server, one in
each functor that is about the connection, one in the vector of `StopInLoop`, one in a
`HandleClose` in progress, and those of user code.  The poller has a plain pointer to the
channel of the connection instead.  The object is destroyed when the last owner is gone,
and its destructor asserts that the connection is closed and that the poller has forgotten
the channel.

The file adds the owners and the destructor to the server with a thread pool.  Some owners
of the source live a little longer than here (the whole vector of `StopInLoop`, the
functors that were swapped out), so the destructor may run at any time after the last
owner is gone.
-/

namespace SolarNet

open Lib

/-! ## Owners -/

/-- The connections in the vector of `StopInLoop` that are left. -/
def PoolPc.conns {κ ω : Type*} : PoolPc κ ω → List κ
  | .closing rest => rest
  | .secondTest conn rest | .posting conn rest => conn :: rest
  | .idle | .quitting _ | .joining _ _ => []

/-- `HandleClose` or a functor of the worker owns the connection.  The functors that a loop
has not run are destroyed with it when `Loop()` has returned. -/
def PoolWorker.Holds {κ : Type*} (worker : PoolWorker κ) (conn : κ) : Prop :=
  worker.closing = some conn ∨
    worker.phase ≠ .exited ∧ ∃ functor ∈ worker.jobs, functor.conn? = some conn

instance {κ : Type*} [DecidableEq κ] (worker : PoolWorker κ) (conn : κ) :
    Decidable (worker.Holds conn) := inferInstanceAs (Decidable (_ ∨ _ ∧ _))

namespace ServerPool

variable {κ ω : Type*}

/-- The library owns the connection. -/
def Held (s : ServerPool κ ω) (conn : κ) : Prop :=
  conn ∈ s.server.connections ∨ conn ∈ s.mainPc.conns ∨
    .removeConnection conn ∈ s.mainQueue ∨ ∃ worker, (s.workers worker).Holds conn

instance [DecidableEq κ] [Fintype ω] (s : ServerPool κ ω) (conn : κ) :
    Decidable (s.Held conn) := inferInstanceAs (Decidable (_ ∨ _ ∨ _ ∨ _))

/-- The step reads or writes the members of the connection. -/
def Uses (s : ServerPool κ ω) (conn : κ) : LoopsLabel κ ω → Prop
  | .forceClose other | .handleClose _ other | .act _ other _ => other = conn
  | .runMain _ => s.mainQueue.head? = some (.removeConnection conn)
  | .proceed => s.mainPc.conns.head? = some conn
  | .run worker =>
      ∃ functor ∈ (s.workers worker).phase.batch.head?, functor.conn? = some conn
  | .postRemove worker => (s.workers worker).closing = some conn
  | .newConnection _ | .stop | .stopHere _ | .queueInLoop _ | .swap _ | .testQuit _ => False

end ServerPool

/-- The connection that a label names, other than by a functor. -/
def LoopsLabel.conn? {κ ω : Type*} : LoopsLabel κ ω → Option κ
  | .newConnection conn | .forceClose conn | .handleClose _ conn | .act _ conn _ => some conn
  | _ => none

/-- A server with a thread pool, and the owners of its connections. -/
structure PoolHeap (κ ω : Type*) where
  pool : ServerPool κ ω
  /-- The `TcpConnectionPtr`s of user code, and of the functors of its calls. -/
  userRefs : κ → Nat
  /-- The objects that were destroyed, as the destructor found them. -/
  destroyed : κ → Option TcpConnection

inductive HeapLabel (κ ω : Type*) where
  | server (label : LoopsLabel κ ω)
  /-- User code copies a `TcpConnectionPtr`. -/
  | copy (conn : κ)
  /-- User code drops a `TcpConnectionPtr`. -/
  | drop (conn : κ)
  /-- The destructor runs. -/
  | destroy (conn : κ)
  deriving DecidableEq, Repr

namespace PoolHeap

variable {κ ω : Type*} [DecidableEq κ] [DecidableEq ω] [Fintype ω]

/-- A running server without connections. -/
def boot (threadNum : Nat) (callbacks : κ → ConnCallbacks) (highWaterMark : κ → Nat) :
    PoolHeap κ ω where
  pool := .running threadNum callbacks highWaterMark
  userRefs := fun _ => 0
  destroyed := fun _ => none

/-- What user code or the poller needs for a step: a `TcpConnectionPtr`, or the pointer to
the channel. -/
def Entitled (h : PoolHeap κ ω) : LoopsLabel κ ω → Prop
  | .forceClose conn => 0 < h.userRefs conn
  | .handleClose _ conn | .act _ conn _ =>
      0 < h.userRefs conn ∨ (h.pool.conns conn).channel.mapped = true
  | _ => True

instance (h : PoolHeap κ ω) : (label : LoopsLabel κ ω) → Decidable (h.Entitled label)
  | .forceClose _ => inferInstanceAs (Decidable (_ < _))
  | .handleClose _ _ | .act _ _ _ => inferInstanceAs (Decidable (_ ∨ _))
  | .newConnection _ | .stop | .stopHere _ | .runMain _ | .proceed | .queueInLoop _ | .swap _
  | .run _ | .testQuit _ | .postRemove _ => inferInstanceAs (Decidable True)

/-- Nobody owns the connection. -/
def Unowned (h : PoolHeap κ ω) (conn : κ) : Prop :=
  h.userRefs conn = 0 ∧ ¬ h.pool.Held conn

instance (h : PoolHeap κ ω) (conn : κ) : Decidable (h.Unowned conn) :=
  inferInstanceAs (Decidable (_ ∧ _))

def step (home : κ → ω) (threads : List ω) (h : PoolHeap κ ω) :
    HeapLabel κ ω → Option (PoolHeap κ ω)
  | .server label =>
      if h.Entitled label then
        (h.pool.step home threads label).map fun pool => { h with pool := pool }
      else none
  -- A copy is made of a `TcpConnectionPtr` that somebody has.
  | .copy conn =>
      if ¬ h.Unowned conn then
        some { h with userRefs := Function.update h.userRefs conn (h.userRefs conn + 1) }
      else none
  | .drop conn =>
      if 0 < h.userRefs conn then
        some { h with userRefs := Function.update h.userRefs conn (h.userRefs conn - 1) }
      else none
  | .destroy conn =>
      if h.pool.created conn = true ∧ h.destroyed conn = none ∧ h.Unowned conn then
        some { h with destroyed := Function.update h.destroyed conn (h.pool.conns conn) }
      else none

end PoolHeap

/-! ## What a step can do -/

namespace ServerPool

variable {κ ω : Type*} [DecidableEq κ] [DecidableEq ω] {home : κ → ω} {threads : List ω}

/-- The steps of the server, as far as the owners of the connections are concerned. -/
inductive Turn (home : κ → ω) (threads : List ω) (s : ServerPool κ ω) :
    LoopsLabel κ ω → ServerPool κ ω → Prop where
  | newConnection (conn : κ) (hCreated : s.created conn = false) :
      Turn home threads s (.newConnection conn) (s.newConnection home conn)
  | stop : Turn home threads s .stop { s with mainQueue := s.mainQueue ++ [.stopInLoop] }
  | stopHere (order : List κ) (hOrder : order.Perm s.server.connections) :
      Turn home threads s (.stopHere order) (s.beginStop threads order)
  | runStop (order : List κ) (rest : List (MainFunctor κ))
      (hQueue : s.mainQueue = .stopInLoop :: rest) (hOrder : order.Perm s.server.connections) :
      Turn home threads s (.runMain order) ({ s with mainQueue := rest }.beginStop threads order)
  | runRemove (order : List κ) (conn : κ) (rest : List (MainFunctor κ))
      (hQueue : s.mainQueue = .removeConnection conn :: rest) :
      Turn home threads s (.runMain order)
        ({ s with mainQueue := rest }.removeConnection home threads conn)
  | setPc (pc : PoolPc κ ω) (hConns : pc.conns ⊆ s.mainPc.conns) :
      Turn home threads s .proceed { s with mainPc := pc }
  | postForceClose (conn : κ) (rest : List κ) (hPc : s.mainPc = .posting conn rest) :
      Turn home threads s .proceed
        ({ s with mainPc := .closing rest }.post (home conn) (.forceCloseInLoop conn))
  | postQuit (worker : ω) (rest : List ω) :
      Turn home threads s .proceed ({ s with mainPc := .joining worker rest }.post worker .quit)
  | poolStopped :
      Turn home threads s .proceed
        { s with server := s.server.stopThreadPoolInLoop, mainPc := .idle }
  | forceClose (conn : κ) :
      Turn home threads s (.forceClose conn) (s.post (home conn) (.forceCloseInLoop conn))
  | queueInLoop (worker : ω) : Turn home threads s (.queueInLoop worker) (s.post worker .user)
  | swap (worker : ω) (hPhase : (s.workers worker).phase = .events) :
      Turn home threads s (.swap worker) (s.setWorker worker
        { s.workers worker with phase := .functors (s.workers worker).pending, pending := [] })
  | run (worker : ω) (functor : PoolFunctor κ) (rest : List (PoolFunctor κ))
      (hBatch : (s.workers worker).phase = .functors (functor :: rest)) :
      Turn home threads s (.run worker) ((s.pop worker rest).runFunctor worker functor)
  | testQuit (worker : ω) (phase : WorkerPhase κ) (hPhase : phase.batch = [])
      (hBatch : (s.workers worker).phase = .functors []) :
      Turn home threads s (.testQuit worker)
        (s.setWorker worker { s.workers worker with phase := phase })
  | handleClose (worker : ω) (conn : κ) :
      Turn home threads s (.handleClose worker conn) (s.beginClose worker conn)
  | postRemove (worker : ω) (conn : κ) (hClosing : (s.workers worker).closing = some conn) :
      Turn home threads s (.postRemove worker) (s.endClose worker conn)
  | act (worker : ω) (conn : κ) (act : ConnAct) :
      Turn home threads s (.act worker conn act) (s.setConn conn ((s.conns conn).perform act))

theorem proceed_turn {s s' : ServerPool κ ω} (hStep : s.proceed home = some s') :
    Turn home threads s .proceed s' := by
  unfold proceed at hStep
  split at hStep
  case h_1 => cases hStep
  case h_2 hPc =>
      obtain rfl := Option.some.inj hStep
      exact .setPc _ (by simp [PoolPc.conns])
  case h_3 conn rest hPc =>
      obtain rfl := Option.some.inj hStep
      refine .setPc _ ?_
      split <;> simp [PoolPc.conns, hPc]
  case h_4 conn rest hPc =>
      obtain rfl := Option.some.inj hStep
      refine .setPc _ ?_
      split <;> simp [PoolPc.conns, hPc]
  case h_5 conn rest hPc =>
      obtain rfl := Option.some.inj hStep
      exact .postForceClose conn rest hPc
  case h_6 =>
      obtain rfl := Option.some.inj hStep
      exact .poolStopped
  case h_7 worker rest _ =>
      obtain rfl := Option.some.inj hStep
      exact .postQuit worker rest
  case h_8 worker rest _ =>
      split at hStep
      · obtain rfl := Option.some.inj hStep
        exact .setPc _ (by simp [PoolPc.conns])
      · cases hStep

theorem step_turn {s s' : ServerPool κ ω} {label : LoopsLabel κ ω}
    (hStep : s.step home threads label = some s') : Turn home threads s label s' := by
  cases label with
  | stop =>
      obtain rfl := Option.some.inj hStep
      exact .stop
  | queueInLoop worker =>
      obtain rfl := Option.some.inj hStep
      exact .queueInLoop worker
  | newConnection conn =>
      simp only [step] at hStep
      split at hStep
      · next hGuard =>
        obtain rfl := Option.some.inj hStep
        exact .newConnection conn hGuard.2.2
      · cases hStep
  | stopHere order =>
      simp only [step] at hStep
      split at hStep
      · next hGuard =>
        obtain rfl := Option.some.inj hStep
        exact .stopHere order hGuard.2
      · cases hStep
  | runMain order =>
      simp only [step, runMain] at hStep
      split at hStep
      · next rest _ hQueue =>
        split at hStep
        · next hOrder =>
          obtain rfl := Option.some.inj hStep
          exact .runStop order rest hQueue hOrder
        · cases hStep
      · next conn rest _ hQueue =>
        obtain rfl := Option.some.inj hStep
        exact .runRemove order conn rest hQueue
      · cases hStep
  | proceed => exact proceed_turn hStep
  | forceClose conn =>
      simp only [step] at hStep
      split at hStep
      · obtain rfl := Option.some.inj hStep
        exact .forceClose conn
      · cases hStep
  | swap worker =>
      simp only [step] at hStep
      split at hStep
      · next hGuard =>
        obtain rfl := Option.some.inj hStep
        exact .swap worker hGuard.1
      · cases hStep
  | run worker =>
      simp only [step, ServerPool.run] at hStep
      split at hStep
      · next functor rest hBatch _ =>
        obtain rfl := Option.some.inj hStep
        exact .run worker functor rest hBatch
      · cases hStep
  | testQuit worker =>
      simp only [step] at hStep
      split at hStep
      · next hGuard =>
        obtain rfl := Option.some.inj hStep
        refine .testQuit worker _ ?_ hGuard.1
        split <;> rfl
      · cases hStep
  | handleClose worker conn =>
      simp only [step] at hStep
      split at hStep
      · obtain rfl := Option.some.inj hStep
        exact .handleClose worker conn
      · cases hStep
  | postRemove worker =>
      simp only [step] at hStep
      split at hStep
      · next conn hClosing =>
        obtain rfl := Option.some.inj hStep
        exact .postRemove worker conn hClosing
      · cases hStep
  | act worker conn act =>
      simp only [step] at hStep
      split at hStep
      · obtain rfl := Option.some.inj hStep
        exact .act worker conn act
      · cases hStep

/-! ## What a step does to one connection -/

/-- What the use of a connection does to it. -/
inductive ConnMove (c : TcpConnection) : TcpConnection → Prop where
  | connectEstablished : ConnMove c c.connectEstablished
  | beginClose : ConnMove c c.beginClose
  | report : ConnMove c c.report
  | connectDestroyed : ConnMove c c.connectDestroyed.leavePoller
  | perform (act : ConnAct) : ConnMove c (c.perform act)

omit [DecidableEq ω] in
/-- The connection stays as it is, or is the one that changes. -/
theorem setConn_cases {s s' : ServerPool κ ω} {other : κ} {c : TcpConnection}
    (hConns : s'.conns = (s.setConn other c).conns) (hMove : ConnMove (s.conns other) c)
    (conn : κ) :
    s'.conns conn = s.conns conn ∨ other = conn ∧ ConnMove (s.conns conn) (s'.conns conn) := by
  rw [hConns]
  by_cases hSame : other = conn
  · subst hSame
    exact Or.inr ⟨rfl, by simpa [setConn] using hMove⟩
  · exact Or.inl (by simp [setConn, Ne.symm hSame])

/-- A functor of a worker changes its own connection only. -/
theorem runFunctor_conn (s : ServerPool κ ω) (worker : ω) (functor : PoolFunctor κ) (conn : κ) :
    (s.runFunctor worker functor).conns conn = s.conns conn ∨
      functor.conn? = some conn ∧
        ConnMove (s.conns conn) ((s.runFunctor worker functor).conns conn) := by
  have hOwn : ∀ other c, functor.conn? = some other → ConnMove (s.conns other) c →
      (s.runFunctor worker functor).conns = (s.setConn other c).conns →
      (s.runFunctor worker functor).conns conn = s.conns conn ∨
        functor.conn? = some conn ∧
          ConnMove (s.conns conn) ((s.runFunctor worker functor).conns conn) := by
    intro other c hConn hMove hConns
    rcases setConn_cases hConns hMove conn with hKept | ⟨rfl, hMoved⟩
    · exact Or.inl hKept
    · exact Or.inr ⟨hConn, hMoved⟩
  cases functor with
  | connectEstablished other => exact hOwn other _ rfl .connectEstablished rfl
  | connectDestroyed other => exact hOwn other _ rfl .connectDestroyed rfl
  | forceCloseInLoop other =>
      by_cases hLive : (s.conns other).state.live = true
      · have hRun : s.runFunctor worker (.forceCloseInLoop other) = s.beginClose worker other :=
          if_pos hLive
        exact hOwn other _ rfl .beginClose (by rw [hRun]; rfl)
      · have hRun : s.runFunctor worker (.forceCloseInLoop other) = s := if_neg hLive
        exact Or.inl (by rw [hRun])
  | quit | user => exact Or.inl rfl

omit [DecidableEq κ] [DecidableEq ω] in
theorem beginStop_conns (s : ServerPool κ ω) (order : List κ) :
    (s.beginStop threads order).conns = s.conns := by
  unfold beginStop
  split_ifs <;> rfl

theorem removeConnection_conns (s : ServerPool κ ω) (conn : κ) :
    (s.removeConnection home threads conn).conns = s.conns := by
  unfold removeConnection
  split <;> rfl

/-- A step leaves a connection as it is, or uses it. -/
theorem Turn.conn {s s' : ServerPool κ ω} {label : LoopsLabel κ ω}
    (hTurn : Turn home threads s label s') (conn : κ) :
    s'.conns conn = s.conns conn ∨
      s.Uses conn label ∧ ConnMove (s.conns conn) (s'.conns conn) := by
  cases hTurn with
  | stopHere order | runStop order => exact Or.inl (by rw [beginStop_conns])
  | runRemove => exact Or.inl (by rw [removeConnection_conns])
  | run worker functor rest hBatch =>
      rcases runFunctor_conn (s.pop worker rest) worker functor conn with hKept | ⟨hConn, hMove⟩
      · exact Or.inl hKept
      · exact Or.inr ⟨⟨functor, by simp [hBatch, WorkerPhase.batch], hConn⟩, hMove⟩
  | handleClose worker other => exact setConn_cases rfl .beginClose conn
  | postRemove worker other hClosing =>
      have hConns : (s.endClose worker other).conns =
          (s.setConn other (s.conns other).report).conns := rfl
      rcases setConn_cases hConns .report conn with hKept | ⟨rfl, hMove⟩
      · exact Or.inl hKept
      · exact Or.inr ⟨hClosing, hMove⟩
  | act worker other act => exact setConn_cases rfl (.perform act) conn
  | _ => exact Or.inl rfl

/-! ## What a step does to the owners of one connection -/

section Owners

variable {s s' : ServerPool κ ω} {conn : κ}

omit [DecidableEq κ] [DecidableEq ω] in
theorem held_of_table (hMem : conn ∈ s.server.connections) : s.Held conn := Or.inl hMem

omit [DecidableEq κ] [DecidableEq ω] in
theorem held_of_pc (hMem : conn ∈ s.mainPc.conns) : s.Held conn := Or.inr (Or.inl hMem)

omit [DecidableEq κ] [DecidableEq ω] in
theorem held_of_queue (hMem : .removeConnection conn ∈ s.mainQueue) : s.Held conn :=
  Or.inr (Or.inr (Or.inl hMem))

omit [DecidableEq κ] [DecidableEq ω] in
theorem held_of_worker (worker : ω) (hHolds : (s.workers worker).Holds conn) : s.Held conn :=
  Or.inr (Or.inr (Or.inr ⟨worker, hHolds⟩))

omit [DecidableEq κ] [DecidableEq ω] in
/-- The main loop changes, and owns nothing more. -/
theorem Held.of_main (hHeld : s'.Held conn) (hWorkers : s'.workers = s.workers)
    (hTable : conn ∈ s'.server.connections → conn ∈ s.server.connections)
    (hPc : conn ∈ s'.mainPc.conns → conn ∈ s.mainPc.conns)
    (hQueue : .removeConnection conn ∈ s'.mainQueue → .removeConnection conn ∈ s.mainQueue) :
    s.Held conn := by
  rcases hHeld with hMem | hMem | hMem | ⟨worker, hHolds⟩
  · exact held_of_table (hTable hMem)
  · exact held_of_pc (hPc hMem)
  · exact held_of_queue (hQueue hMem)
  · rw [hWorkers] at hHolds
    exact held_of_worker worker hHolds

omit [DecidableEq κ] in
/-- A worker changes. -/
theorem held_setWorker {P : Prop} {worker : ω} {next : PoolWorker κ}
    (hHeld : (s.setWorker worker next).Held conn)
    (hNext : next.Holds conn → s.Held conn ∨ P) : s.Held conn ∨ P := by
  rcases hHeld with hMem | hMem | hMem | ⟨other, hHolds⟩
  · exact Or.inl (held_of_table hMem)
  · exact Or.inl (held_of_pc hMem)
  · exact Or.inl (held_of_queue hMem)
  · by_cases hOther : other = worker
    · subst hOther
      exact hNext (by simpa [setWorker] using hHolds)
    · exact Or.inl (held_of_worker other (by simpa [setWorker, hOther] using hHolds))

omit [DecidableEq κ] in
/-- A functor is posted. -/
theorem held_post {worker : ω} {functor : PoolFunctor κ}
    (hHeld : (s.post worker functor).Held conn) :
    s.Held conn ∨ functor.conn? = some conn := by
  refine held_setWorker hHeld ?_
  rintro (hClosing | ⟨hPhase, job, hJob, hConn⟩)
  · exact Or.inl (held_of_worker worker (Or.inl hClosing))
  · have hJobs : job ∈ (s.workers worker).jobs ∨ job = functor := by
      simpa [PoolWorker.jobs, or_assoc] using hJob
    rcases hJobs with hOld | rfl
    · exact Or.inl (held_of_worker worker (Or.inr ⟨hPhase, job, hOld, hConn⟩))
    · exact Or.inr hConn

omit [DecidableEq κ] [DecidableEq ω] in
/-- `StopInLoop` copies the table into its vector. -/
theorem held_beginStop {order : List κ} (hOrder : order.Perm s.server.connections)
    (hHeld : (s.beginStop threads order).Held conn) : s.Held conn := by
  have hSame : (s.beginStop threads order).server.connections = s.server.connections ∧
      (s.beginStop threads order).mainQueue = s.mainQueue ∧
      (s.beginStop threads order).workers = s.workers ∧
      (conn ∈ (s.beginStop threads order).mainPc.conns → s.Held conn) := by
    unfold beginStop
    split_ifs
    · exact ⟨rfl, rfl, rfl, held_of_pc⟩
    · exact ⟨rfl, rfl, rfl, fun hMem => by simp [stopThreadPool, PoolPc.conns] at hMem⟩
    · exact ⟨rfl, rfl, rfl, fun hMem => held_of_table (hOrder.mem_iff.mp hMem)⟩
  obtain ⟨hTable, hQueue, hWorkers, hPc⟩ := hSame
  by_cases hMem : conn ∈ (s.beginStop threads order).mainPc.conns
  · exact hPc hMem
  · exact hHeld.of_main hWorkers (by rw [hTable]; exact id) (fun hIn => absurd hIn hMem)
      (by rw [hQueue]; exact id)

/-- `RemoveConnectionInLoop` hands the connection from the main queue to its worker. -/
theorem held_removeConnection {other : κ} {rest : List (MainFunctor κ)}
    (hQueue : s.mainQueue = .removeConnection other :: rest)
    (hHeld : ({ s with mainQueue := rest }.removeConnection home threads other).Held conn) :
    s.Held conn := by
  have hRemoved : ((({ s with mainQueue := rest } : ServerPool κ ω).erase other).post (home other)
      (.connectDestroyed other)).Held conn := by
    unfold removeConnection at hHeld
    split at hHeld
    · exact hHeld.of_main rfl id (by simp [stopThreadPool, PoolPc.conns]) id
    · exact hHeld
  rcases held_post hRemoved with hOld | hConn
  · refine hOld.of_main rfl List.mem_of_mem_erase id fun hMem => ?_
    rw [hQueue]
    exact List.mem_cons_of_mem _ hMem
  · obtain rfl := Option.some.inj hConn
    exact held_of_queue (by rw [hQueue]; exact List.mem_cons_self)

/-- Of the owners, a functor changes its worker only, which may begin to close the
connection of the functor. -/
theorem runFunctor_frame {worker : ω} {functor : PoolFunctor κ} {rest : List (PoolFunctor κ)}
    (hBatch : (s.workers worker).phase = .functors (functor :: rest)) :
    ∃ next : PoolWorker κ,
      ((s.pop worker rest).runFunctor worker functor).workers =
        Function.update s.workers worker next ∧
      functor :: next.jobs = (s.workers worker).jobs ∧
      (next.closing = (s.workers worker).closing ∨ next.closing = functor.conn?) ∧
      ((s.pop worker rest).runFunctor worker functor).server = s.server ∧
      ((s.pop worker rest).runFunctor worker functor).mainPc = s.mainPc ∧
      ((s.pop worker rest).runFunctor worker functor).mainQueue = s.mainQueue := by
  have hJobs : functor :: ({ s.workers worker with phase := .functors rest } :
      PoolWorker κ).jobs = (s.workers worker).jobs := by
    simp [PoolWorker.jobs, WorkerPhase.batch, hBatch]
  cases functor with
  | connectEstablished other | connectDestroyed other | user =>
      exact ⟨{ s.workers worker with phase := .functors rest }, rfl, hJobs, Or.inl rfl, rfl, rfl,
        rfl⟩
  | quit =>
      refine ⟨{ s.workers worker with phase := .functors rest, quit := true }, ?_, hJobs,
        Or.inl rfl, rfl, rfl, rfl⟩
      simp [runFunctor, pop, setWorker]
  | forceCloseInLoop other =>
      by_cases hLive : (s.conns other).state.live = true
      · have hRun : (s.pop worker rest).runFunctor worker (.forceCloseInLoop other) =
            (s.pop worker rest).beginClose worker other := if_pos hLive
        rw [hRun]
        refine ⟨{ s.workers worker with phase := .functors rest, closing := some other }, ?_, hJobs,
          Or.inr rfl, rfl, rfl, rfl⟩
        simp [ServerPool.beginClose, setConn, pop, setWorker]
      · have hRun : (s.pop worker rest).runFunctor worker (.forceCloseInLoop other) =
            s.pop worker rest := if_neg hLive
        rw [hRun]
        exact ⟨{ s.workers worker with phase := .functors rest }, rfl, hJobs, Or.inl rfl, rfl, rfl,
          rfl⟩

/-- A functor that is run owned its connection, so nothing else is owned afterwards. -/
theorem held_run {worker : ω} {functor : PoolFunctor κ} {rest : List (PoolFunctor κ)}
    (hBatch : (s.workers worker).phase = .functors (functor :: rest))
    (hHeld : ((s.pop worker rest).runFunctor worker functor).Held conn) : s.Held conn := by
  obtain ⟨next, hWorkers, hJobs, hClosing, hServer, hPc, hQueue⟩ := runFunctor_frame hBatch
  have hOwned : ∀ job ∈ (s.workers worker).jobs, job.conn? = some conn → s.Held conn := by
    intro job hJob hConn
    exact held_of_worker worker (Or.inr ⟨by simp [hBatch], job, hJob, hConn⟩)
  rcases hHeld with hMem | hMem | hMem | ⟨other, hHolds⟩
  · exact held_of_table (hServer ▸ hMem)
  · exact held_of_pc (hPc ▸ hMem)
  · exact held_of_queue (hQueue ▸ hMem)
  · by_cases hOther : other = worker
    · subst hOther
      rw [hWorkers, Function.update_self] at hHolds
      rcases hHolds with hMem | ⟨-, job, hJob, hConn⟩
      · rcases hClosing with hOld | hNew
        · exact held_of_worker other (Or.inl (hOld ▸ hMem))
        · refine hOwned functor ?_ (hNew ▸ hMem)
          rw [← hJobs]
          exact List.mem_cons_self
      · refine hOwned job ?_ hConn
        rw [← hJobs]
        exact List.mem_cons_of_mem _ hJob
    · rw [hWorkers, Function.update_of_ne hOther] at hHolds
      exact held_of_worker other hHolds

/-- A step makes nobody an owner of a connection that nobody owned, unless its label names
the connection. -/
theorem Turn.held {label : LoopsLabel κ ω} (hTurn : Turn home threads s label s')
    (hHeld : s'.Held conn) : s.Held conn ∨ label.conn? = some conn := by
  cases hTurn with
  | newConnection other hCreated =>
      by_cases hOther : other = conn
      · exact Or.inr (congrArg some hOther)
      · refine (held_post hHeld).imp_left fun hOld => hOld.of_main rfl (fun hMem => ?_) id id
        simpa [enroll, Ne.symm hOther] using hMem
  | stop => exact Or.inl (hHeld.of_main rfl id id (by simp))
  | stopHere order hOrder => exact Or.inl (held_beginStop hOrder hHeld)
  | runStop order rest hQueue hOrder =>
      have hBefore : ({ s with mainQueue := rest } : ServerPool κ ω).Held conn :=
        held_beginStop hOrder hHeld
      refine Or.inl (hBefore.of_main rfl id id fun hMem => ?_)
      rw [hQueue]
      exact List.mem_cons_of_mem _ hMem
  | runRemove order other rest hQueue => exact Or.inl (held_removeConnection hQueue hHeld)
  | setPc pc hConns => exact Or.inl (hHeld.of_main rfl id (fun hMem => hConns hMem) id)
  | postForceClose other rest hPc =>
      rcases held_post hHeld with hOld | hConn
      · refine Or.inl (hOld.of_main rfl id (fun hMem => ?_) id)
        rw [hPc]
        exact List.mem_cons_of_mem _ hMem
      · obtain rfl := Option.some.inj hConn
        exact Or.inl (held_of_pc (by rw [hPc]; exact List.mem_cons_self))
  | postQuit worker rest =>
      rcases held_post hHeld with hOld | hConn
      · exact Or.inl (hOld.of_main rfl id (by simp [PoolPc.conns]) id)
      · cases hConn
  | poolStopped => exact Or.inl (hHeld.of_main rfl id (by simp [PoolPc.conns]) id)
  | forceClose other => exact held_post hHeld
  | queueInLoop worker => exact (held_post hHeld).imp_right (by simp [PoolFunctor.conn?])
  | swap worker hPhase =>
      refine held_setWorker hHeld ?_
      rintro (hClosing | ⟨-, job, hJob, hConn⟩)
      · exact Or.inl (held_of_worker worker (Or.inl hClosing))
      · refine Or.inl (held_of_worker worker (Or.inr ⟨by simp [hPhase], job, ?_, hConn⟩))
        simpa [PoolWorker.jobs, WorkerPhase.batch, hPhase] using hJob
  | run worker functor rest hBatch => exact Or.inl (held_run hBatch hHeld)
  | testQuit worker phase hPhase hBatch =>
      refine held_setWorker hHeld ?_
      rintro (hClosing | ⟨-, job, hJob, hConn⟩)
      · exact Or.inl (held_of_worker worker (Or.inl hClosing))
      · refine Or.inl (held_of_worker worker (Or.inr ⟨by simp [hBatch], job, ?_, hConn⟩))
        rw [PoolWorker.jobs, hPhase] at hJob
        rw [PoolWorker.jobs, hBatch]
        exact hJob
  | handleClose worker other =>
      have hSet : (s.setWorker worker { s.workers worker with closing := some other }).Held conn :=
        hHeld
      refine held_setWorker hSet ?_
      rintro (hClosing | hJobs)
      · exact Or.inr hClosing
      · exact Or.inl (held_of_worker worker (Or.inr hJobs))
  | postRemove worker other hClosing =>
      left
      by_cases hOther : other = conn
      · subst hOther
        exact held_of_worker worker (Or.inl hClosing)
      · have hSet : (s.setWorker worker { s.workers worker with closing := none }).Held conn :=
          hHeld.of_main rfl id id (by simp [endClose, setWorker, Ne.symm hOther])
        refine (or_false _).mp (held_setWorker hSet ?_)
        rintro (hNone | hJobs)
        · cases hNone
        · exact Or.inl (held_of_worker worker (Or.inr hJobs))
  | act worker other act => exact Or.inl hHeld

theorem Turn.created {label : LoopsLabel κ ω} (hTurn : Turn home threads s label s')
    (hCreated : s.created conn = true) : s'.created conn = true := by
  cases hTurn with
  | newConnection other _ =>
      have hEnrolled : (s.newConnection home other).created =
          Function.update s.created other true := rfl
      rw [hEnrolled]
      by_cases hOther : conn = other
      · simp [hOther]
      · simpa [hOther] using hCreated
  | stopHere order _ | runStop order _ _ _ =>
      unfold beginStop
      split_ifs <;> exact hCreated
  | runRemove order other rest _ =>
      unfold removeConnection
      split <;> exact hCreated
  | run worker functor rest _ =>
      have hSame : ((s.pop worker rest).runFunctor worker functor).created = s.created := by
        cases functor with
        | forceCloseInLoop other =>
            show ServerPool.created (if _ then _ else _) = _
            split <;> rfl
        | _ => rfl
      rw [hSame]
      exact hCreated
  | _ => exact hCreated

/-- A step uses a connection that somebody owns, or that its label names. -/
theorem Turn.held_of_uses {label : LoopsLabel κ ω} (hTurn : Turn home threads s label s')
    (hUses : s.Uses conn label) : s.Held conn ∨ label.conn? = some conn := by
  cases hTurn with
  | runStop order rest hQueue =>
      have hHead : s.mainQueue.head? = some (.removeConnection conn) := hUses
      rw [hQueue] at hHead
      cases hHead
  | runRemove order other rest hQueue =>
      have hHead : s.mainQueue.head? = some (.removeConnection conn) := hUses
      exact Or.inl (held_of_queue (List.mem_of_mem_head? hHead))
  | setPc | postForceClose | postQuit | poolStopped =>
      have hHead : s.mainPc.conns.head? = some conn := hUses
      exact Or.inl (held_of_pc (List.mem_of_mem_head? hHead))
  | run worker functor rest hBatch =>
      obtain ⟨job, hJob, hConn⟩ := hUses
      refine Or.inl (held_of_worker worker (Or.inr ⟨by simp [hBatch], job, ?_, hConn⟩))
      exact List.mem_append_left _ (List.mem_of_mem_head? hJob)
  | postRemove worker other hClosing => exact Or.inl (held_of_worker worker (Or.inl hUses))
  | forceClose other | handleClose worker other | act worker other act =>
      exact Or.inr (congrArg some hUses)
  | newConnection | stop | stopHere | queueInLoop | swap | testQuit => exact hUses.elim

end Owners

/-! ## Closed connections have no events -/

/-- A closed connection waits for no event. -/
def Muted (c : TcpConnection) : Prop :=
  c.state = .kDisconnected → c.channel.events = Channel.kNoneEvent

theorem ConnMove.muted {c c' : TcpConnection} (hMove : ConnMove c c') (hMuted : Muted c) :
    Muted c' := by
  cases hMove with
  | connectEstablished =>
      intro hState
      rw [TcpConnection.connectEstablished, TcpConnection.report_state] at hState
      cases hState
  | beginClose =>
      intro _
      exact Channel.updateChannel_events _
  | report =>
      intro hState
      rw [TcpConnection.report_state] at hState
      rw [TcpConnection.report_channel]
      exact hMuted hState
  | connectDestroyed =>
      have hSame : c.connectDestroyed.leavePoller.channel.events =
          c.connectDestroyed.channel.events := by
        unfold TcpConnection.leavePoller
        split
        · rfl
        · exact Channel.removeChannel_events _
      intro hState
      rw [TcpConnection.leavePoller_state] at hState
      rw [hSame]
      unfold TcpConnection.connectDestroyed at hState ⊢
      split
      · rw [TcpConnection.beginDestroy, TcpConnection.report_channel]
        exact Channel.updateChannel_events _
      · next hNot =>
        rw [if_neg hNot] at hState
        exact hMuted hState
  | perform act =>
      intro hState
      have hClosed : c.state = .kDisconnected := by
        rcases (TcpConnection.perform_onlyOutput c act).state_eq with hKept | ⟨-, hShutdown⟩
        · exact hKept.symm.trans hState
        · rw [hShutdown] at hState
          cases hState
      have hNone := hMuted hClosed
      have hWriting : c.channel.isWriting = false := by rw [Channel.isWriting, hNone]; rfl
      rw [(TcpConnection.perform_inert act (by rw [hClosed]; decide) hWriting).1]
      exact hNone

/-! ## The poller and the destructor -/

/-- The assertions of the destructor. -/
structure DestructorAsserts (c : TcpConnection) : Prop where
  state_eq : c.state = .kDisconnected
  none_event : c.channel.isNoneEvent = true
  index_eq : c.channel.index = .kNew

section Phases

variable {s : ServerPool κ ω} {conn : κ} {phase : ConnPhase}

omit [DecidableEq ω] in
/-- From its creation to `ConnectDestroyed` the library owns a connection. -/
theorem PoolInv.held (hInv : PoolInv home threads s) (hAt : At home s conn phase)
    (hFresh : phase ≠ .fresh) (hDestroyed : phase ≠ .destroyed) : s.Held conn := by
  have hListed : 0 < (phase.view (home conn)).listed → s.Held conn := by
    rw [← hAt.view_eq]
    exact fun hCount => held_of_table (List.count_pos_iff.mp hCount)
  cases phase with
  | fresh => exact absurd rfl hFresh
  | destroyed => exact absurd rfl hDestroyed
  | removed =>
      have hJob : .connectDestroyed conn ∈ (s.workers (home conn)).jobs := by
        have hCount : (s.workers (home conn)).jobs.count (.connectDestroyed conn) = 1 :=
          congrArg ConnView.destroying hAt.view_eq
        exact List.count_pos_iff.mp (by omega)
      -- A loop that has returned has run every `ConnectDestroyed`.
      refine held_of_worker (home conn) (Or.inr ⟨fun hExited => ?_, _, hJob, rfl⟩)
      have hWorker := hInv.quit.worker (home conn)
      exact hWorker.quit_clean (hWorker.exited_quit hExited) conn hJob
  | assigned | opened | closing | reported => exact hListed Nat.one_pos

omit [DecidableEq ω] in
/-- While the poller has a pointer to the channel, the library owns the connection. -/
theorem PoolInv.held_of_mapped (hInv : PoolInv home threads s)
    (hMapped : (s.conns conn).channel.mapped = true) : s.Held conn := by
  obtain ⟨phase, hAt⟩ := hInv.placed conn
  have hAttached : ¬ (s.conns conn).Detached := by
    intro hDetached
    rw [hDetached.mapped_eq] at hMapped
    cases hMapped
  refine hInv.held hAt ?_ ?_
  · rintro rfl
    exact hAttached hAt.fits.1
  · rintro rfl
    exact hAttached hAt.fits.1

omit [DecidableEq ω] in
/-- A connection that the library does not own any more has been destroyed. -/
theorem PoolInv.at_destroyed (hInv : PoolInv home threads s) (hCreated : s.created conn = true)
    (hHeld : ¬ s.Held conn) : At home s conn .destroyed := by
  obtain ⟨phase, hAt⟩ := hInv.placed conn
  by_cases hPhase : phase = .destroyed
  · exact hPhase ▸ hAt
  · refine absurd (hInv.held hAt ?_ hPhase) hHeld
    rintro rfl
    have hFresh : s.created conn = false := congrArg ConnView.created hAt.view_eq
    rw [hCreated] at hFresh
    cases hFresh

end Phases

end ServerPool

/-! ## Runs -/

namespace PoolHeap

variable {κ ω : Type*} [DecidableEq κ] [DecidableEq ω] [Fintype ω] {home : κ → ω}
  {threads : List ω}

open ServerPool

/-- Closed connections have no events, and nobody has a pointer to a destroyed object,
which is as the destructor found it. -/
structure Safe (h : PoolHeap κ ω) : Prop where
  muted : ∀ conn, Muted (h.pool.conns conn)
  gone : ∀ conn c, h.destroyed conn = some c → h.pool.created conn = true ∧ h.Unowned conn ∧
    c = h.pool.conns conn ∧ c.channel.mapped = false

omit [DecidableEq κ] [DecidableEq ω] [Fintype ω] in
theorem boot_safe (threadNum : Nat) (callbacks : κ → ConnCallbacks)
    (highWaterMark : κ → Nat) : Safe (boot threadNum callbacks highWaterMark : PoolHeap κ ω) where
  muted _ _ := rfl
  gone conn c hGone := by cases hGone

omit [Fintype ω] in
/-- Nobody can make a step that uses a destroyed object. -/
theorem Safe.not_named {h : PoolHeap κ ω} (hSafe : Safe h) {label : LoopsLabel κ ω}
    (hEntitled : h.Entitled label) {pool : ServerPool κ ω}
    (hTurn : Turn home threads h.pool label pool) {conn : κ} {c : TcpConnection}
    (hGone : h.destroyed conn = some c) : label.conn? ≠ some conn := by
  obtain ⟨hCreated, ⟨hRefs, -⟩, rfl, hMapped⟩ := hSafe.gone conn c hGone
  intro hNamed
  have hNone : ¬ (0 < h.userRefs conn ∨ (h.pool.conns conn).channel.mapped = true) := by
    rw [hRefs, hMapped]
    decide
  cases hTurn with
  | newConnection other hFresh =>
      obtain rfl := Option.some.inj hNamed
      rw [hCreated] at hFresh
      cases hFresh
  | forceClose other =>
      obtain rfl := Option.some.inj hNamed
      exact hNone (Or.inl hEntitled)
  | handleClose worker other | act worker other act =>
      obtain rfl := Option.some.inj hNamed
      exact hNone hEntitled
  | _ => cases hNamed

omit [Fintype ω] in
theorem Safe.not_used {h : PoolHeap κ ω} (hSafe : Safe h) {label : LoopsLabel κ ω}
    (hEntitled : h.Entitled label) {pool : ServerPool κ ω}
    (hTurn : Turn home threads h.pool label pool) {conn : κ}
    (hUses : h.pool.Uses conn label) : h.destroyed conn = none := by
  cases hGone : h.destroyed conn with
  | none => rfl
  | some c =>
      rcases hTurn.held_of_uses hUses with hHeld | hNamed
      · exact absurd hHeld (hSafe.gone conn c hGone).2.1.2
      · exact absurd hNamed (hSafe.not_named hEntitled hTurn hGone)

omit [Fintype ω] in
theorem Safe.server {h : PoolHeap κ ω} (hSafe : Safe h) {label : LoopsLabel κ ω}
    (hEntitled : h.Entitled label) {pool : ServerPool κ ω}
    (hTurn : Turn home threads h.pool label pool) : Safe { h with pool := pool } where
  muted conn := by
    rcases hTurn.conn conn with hKept | ⟨-, hMove⟩
    · show Muted (pool.conns conn)
      rw [hKept]
      exact hSafe.muted conn
    · exact hMove.muted (hSafe.muted conn)
  gone conn c hGone := by
    obtain ⟨hCreated, ⟨hRefs, hHeld⟩, hFound, hMapped⟩ := hSafe.gone conn c hGone
    refine ⟨hTurn.created hCreated, ⟨hRefs, fun hHeld' => ?_⟩, ?_, hMapped⟩
    · rcases hTurn.held hHeld' with hOld | hNamed
      · exact hHeld hOld
      · exact hSafe.not_named hEntitled hTurn hGone hNamed
    · rcases hTurn.conn conn with hKept | ⟨hUses, -⟩
      · exact hFound.trans hKept.symm
      · rw [hSafe.not_used hEntitled hTurn hUses] at hGone
        cases hGone

omit [DecidableEq ω] [Fintype ω] in
/-- User code changes the number of its pointers to a connection that is not destroyed. -/
theorem Safe.setUserRefs {h : PoolHeap κ ω} (hSafe : Safe h) {conn : κ} (refs : Nat)
    (hAlive : h.destroyed conn = none) :
    Safe { h with userRefs := Function.update h.userRefs conn refs } where
  muted := hSafe.muted
  gone other c hGone := by
    obtain ⟨hCreated, ⟨hRefs, hHeld⟩, hFound, hMapped⟩ := hSafe.gone other c hGone
    have hOther : other ≠ conn := by
      rintro rfl
      have hContra : h.destroyed other = some c := hGone
      rw [hAlive] at hContra
      cases hContra
    exact ⟨hCreated, ⟨by simpa [hOther] using hRefs, hHeld⟩, hFound, hMapped⟩

omit [DecidableEq ω] [Fintype ω] in
theorem Safe.destroy {h : PoolHeap κ ω} (hSafe : Safe h)
    (hInv : PoolInv home threads h.pool) {conn : κ} (hCreated : h.pool.created conn = true)
    (hUnowned : h.Unowned conn) :
    Safe { h with destroyed := Function.update h.destroyed conn (h.pool.conns conn) } where
  muted := hSafe.muted
  gone other c hGone := by
    by_cases hOther : other = conn
    · subst hOther
      have hFound : h.pool.conns other = c := by simpa using hGone
      refine ⟨hCreated, hUnowned, hFound.symm, ?_⟩
      rw [← hFound]
      exact (hInv.at_destroyed hCreated hUnowned.2).fits.1.mapped_eq
    · exact hSafe.gone other c (by simpa [hOther] using hGone)

theorem step_safe {h h' : PoolHeap κ ω} {label : HeapLabel κ ω}
    (hInv : PoolInv home threads h.pool) (hSafe : Safe h)
    (hOnce : ∀ conn, h'.pool.closes conn ≤ 1) (hStep : step home threads h label = some h') :
    PoolInv home threads h'.pool ∧ Safe h' := by
  cases label with
  | server label =>
      simp only [step] at hStep
      split at hStep
      · next hEntitled =>
        obtain ⟨pool, hPool, rfl⟩ := Option.map_eq_some_iff.mp hStep
        exact ⟨step_poolInv hInv hOnce hPool, hSafe.server hEntitled (step_turn hPool)⟩
      · cases hStep
  | copy conn =>
      simp only [step] at hStep
      split at hStep
      · next hOwned =>
        obtain rfl := Option.some.inj hStep
        refine ⟨hInv, hSafe.setUserRefs _ ?_⟩
        by_contra hGone
        obtain ⟨c, hGone⟩ := Option.ne_none_iff_exists'.mp hGone
        exact hOwned (hSafe.gone conn c hGone).2.1
      · cases hStep
  | drop conn =>
      simp only [step] at hStep
      split at hStep
      · next hSome =>
        obtain rfl := Option.some.inj hStep
        refine ⟨hInv, hSafe.setUserRefs _ ?_⟩
        by_contra hGone
        obtain ⟨c, hGone⟩ := Option.ne_none_iff_exists'.mp hGone
        have hRefs := (hSafe.gone conn c hGone).2.1.1
        omega
      · cases hStep
  | destroy conn =>
      simp only [step] at hStep
      split at hStep
      · next hGuard =>
        obtain rfl := Option.some.inj hStep
        exact ⟨hInv, hSafe.destroy hInv hGuard.1 hGuard.2.2⟩
      · cases hStep

theorem step_closes_le {h h' : PoolHeap κ ω} {label : HeapLabel κ ω}
    (hStep : step home threads h label = some h') (conn : κ) :
    h.pool.closes conn ≤ h'.pool.closes conn := by
  cases label with
  | server label =>
      simp only [step] at hStep
      split at hStep
      · obtain ⟨pool, hPool, rfl⟩ := Option.map_eq_some_iff.mp hStep
        exact step_closes hPool conn
      · cases hStep
  | copy other | drop other | destroy other =>
      simp only [step] at hStep
      split at hStep
      · obtain rfl := Option.some.inj hStep
        exact le_rfl
      · cases hStep

theorem exec_safe {h h' : PoolHeap κ ω} {labels : List (HeapLabel κ ω)}
    (hInv : PoolInv home threads h.pool) (hSafe : Safe h)
    (hRun : exec (step home threads) h labels = some h')
    (hOnce : ∀ conn, h'.pool.closes conn ≤ 1) : PoolInv home threads h'.pool ∧ Safe h' := by
  refine exec_invariant (fun h : PoolHeap κ ω => (∀ conn, h.pool.closes conn ≤ 1) →
    PoolInv home threads h.pool ∧ Safe h) ?_ (fun _ => ⟨hInv, hSafe⟩) hRun hOnce
  intro h label next hKeep hStep hNext
  obtain ⟨hInv, hSafe⟩ := hKeep fun conn => (step_closes_le hStep conn).trans (hNext conn)
  exact step_safe hInv hSafe hNext hStep

omit [DecidableEq ω] [Fintype ω] in
/-- When the pool is stopped, the library owns no connection. -/
theorem not_held_of_stopped {s : ServerPool κ ω} (hInv : PoolInv home threads s)
    (hIdle : s.mainPc = .idle) (hPool : s.server.threadPool = false) (conn : κ) :
    ¬ s.Held conn := by
  have hTable : s.server.connections = [] :=
    (hInv.quit.stopped (by simp [stopping, hIdle, hPool])).2
  have hExited : ∀ worker, (s.workers worker).phase = .exited :=
    fun worker => hInv.quit.joined worker (by simp [unjoined, hPool])
  obtain ⟨phase, hAt⟩ := hInv.placed conn
  have hListed : (phase.view (home conn)).listed = 0 := by
    rw [← hAt.view_eq]
    simp [view, hTable]
  rintro (hMem | hMem | hMem | ⟨worker, hClosing | ⟨hPhase, -⟩⟩)
  · rw [hTable] at hMem
    cases hMem
  · rw [hIdle] at hMem
    cases hMem
  · obtain rfl := hAt.reported_of_mem hMem
    cases hListed
  · obtain rfl := (hInv.quit.worker worker).closing_home conn hClosing
    obtain rfl := hAt.closing_of_eq hClosing
    cases hListed
  · exact hPhase (hExited worker)

/-- On a server with `n + 1` worker loops, in every interleaving in which `HandleClose` runs
at most once for each connection: the destructor of a connection finds its assertions
true, after `ConnectDestroyed` ran on the loop of the connection, and the destroyed object
stays as it is and has no owner any more.  The library owns every connection to whose
channel the poller has a pointer.  No step uses a destroyed object.  And when the pool is
stopped, only user code keeps a connection from being destroyed. -/
theorem connections_outlive_uses (n : Nat) (home : κ → Fin (n + 1))
    (callbacks : κ → ConnCallbacks) (highWaterMark : κ → Nat)
    {labels : List (HeapLabel κ (Fin (n + 1)))} {h : PoolHeap κ (Fin (n + 1))}
    (hRun : exec (step home (List.finRange (n + 1)))
      (boot (n + 1) callbacks highWaterMark) labels = some h)
    (hOnce : ∀ conn, h.pool.closes conn ≤ 1) :
    (∀ conn c, h.destroyed conn = some c → DestructorAsserts c ∧ c = h.pool.conns conn ∧
      h.pool.destroyedOn conn = [home conn] ∧ h.Unowned conn) ∧
    (∀ conn, (h.pool.conns conn).channel.mapped = true →
      h.pool.Held conn ∧ h.destroyed conn = none) ∧
    (∀ label h' conn, step home (List.finRange (n + 1)) h (.server label) = some h' →
      h.pool.Uses conn label → h.destroyed conn = none) ∧
    (h.pool.mainPc = .idle → h.pool.server.threadPool = false →
      ∀ conn, h.pool.created conn = true → h.userRefs conn = 0 → h.destroyed conn = none →
        ∃ h', step home (List.finRange (n + 1)) h (.destroy conn) = some h') := by
  have hStart : PoolInv home (List.finRange (n + 1)) (running (n + 1) callbacks highWaterMark) :=
    ⟨running_placed _ _ _, running_quitInv n _ _ List.mem_finRange⟩
  obtain ⟨hInv, hSafe⟩ := exec_safe hStart (boot_safe _ _ _) hRun hOnce
  refine ⟨?_, ?_, ?_, ?_⟩
  · intro conn c hGone
    obtain ⟨hCreated, hUnowned, rfl, -⟩ := hSafe.gone conn c hGone
    have hAt := hInv.at_destroyed hCreated hUnowned.2
    obtain ⟨hDetached, hState⟩ := hAt.fits
    refine ⟨⟨hState, ?_, hDetached.index_eq⟩, rfl, ?_, hUnowned⟩
    · exact beq_iff_eq.mpr (hSafe.muted conn hState)
    · exact congrArg ConnView.destroyedOn hAt.view_eq
  · intro conn hMapped
    have hHeld := hInv.held_of_mapped hMapped
    refine ⟨hHeld, ?_⟩
    cases hGone : h.destroyed conn with
    | none => rfl
    | some c => exact absurd hHeld (hSafe.gone conn c hGone).2.1.2
  · intro label h' conn hStep hUses
    simp only [step] at hStep
    split at hStep
    · next hEntitled =>
      obtain ⟨pool, hPool, -⟩ := Option.map_eq_some_iff.mp hStep
      exact hSafe.not_used hEntitled (step_turn hPool) hUses
    · cases hStep
  · intro hIdle hPool conn hCreated hRefs hAlive
    have hUnowned : h.Unowned conn := ⟨hRefs, not_held_of_stopped hInv hIdle hPool conn⟩
    exact ⟨_, if_pos ⟨hCreated, hAlive, hUnowned⟩⟩

/-- The peer closes a connection while user code has a pointer to it.  The object lives on
after `ConnectDestroyed`, and is destroyed when the pointer is dropped. -/
def keptByUser : List (HeapLabel Unit (Fin 1)) :=
  [.server (.newConnection ()), .server (.swap 0), .server (.run 0), .copy (),
    .server (.testQuit 0), .server (.handleClose 0 ()), .server (.postRemove 0),
    .server (.runMain []), .server (.swap 0), .server (.run 0), .drop (), .destroy ()]

theorem connections_outlive_uses_keptByUser :
    ∃ h, exec (step (fun _ => 0) (List.finRange 1))
        (boot 1 (fun _ => ⟨true, true, false, false, .unset⟩) fun _ => 0) keptByUser = some h ∧
      ∃ c, h.destroyed () = some c ∧ DestructorAsserts c ∧ h.pool.destroyedOn () = [0] := by
  have hEnd : (exec (step (fun _ => 0) (List.finRange 1))
      (boot 1 (fun _ => ⟨true, true, false, false, .unset⟩) fun _ => 0) keptByUser).map
      (fun h => ((h.destroyed ()).isSome, h.pool.closes ())) = some (true, 1) := by
    decide +kernel
  obtain ⟨h, hRun, hSeen⟩ := Option.map_eq_some_iff.mp hEnd
  obtain ⟨hSome, hCloses⟩ := Prod.mk.inj hSeen
  obtain ⟨c, hGone⟩ := Option.isSome_iff_exists.mp hSome
  have hFacts := (connections_outlive_uses 0 (fun _ => 0) _ _ hRun
    fun _ => hCloses.le).1 () c hGone
  exact ⟨h, hRun, c, hGone, hFacts.1, hFacts.2.2.1⟩

end PoolHeap
end SolarNet
