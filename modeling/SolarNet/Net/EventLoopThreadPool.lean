import Mathlib.Data.List.Basic
import Mathlib.Data.List.Infix
import Mathlib.Data.List.Nodup
import Mathlib.Data.List.Range
import Mathlib.Data.Finset.Basic
import Mathlib.Tactic

/-!
# `EventLoopThreadPool`

The functions of `solar_net/net/event_loop_thread_pool.cpp`.  Each thread that
starts creates an `EventLoop` of its own, so the loops are numbered in the order
in which they come to be.  Which threads fail to start is an argument of `start`.

`m_thread_count` holds the configured size until `Start`, then the number of
threads that run, and 0 after `Stop`.  The results say what a pool offers along
the calls of its owner: it keeps what the documentation promises until it is
started again after a stop, and from then on it claims to run without any loop.
-/

namespace SolarNet

abbrev LoopId := Nat

/-- An `EventLoopThread` of the pool. -/
structure PoolThread where
  name : String
  loop : LoopId
  deriving DecidableEq, Repr

/-- `EventLoopThreadPool`, and the number that the next `EventLoop` will have. -/
structure EventLoopThreadPool where
  threadCount : Nat
  name : String
  threads : List PoolThread
  loops : List LoopId
  nextIndex : Nat
  started : Bool
  freshLoop : Nat
  deriving DecidableEq, Repr

namespace EventLoopThreadPool

def kMinThreadCount : Nat := 1

/-- `sizeof(size_t)` in bits. -/
def sizeBits : Nat := 64

/-- The constructor. -/
def new (threadCount : Nat) (name : String) : EventLoopThreadPool where
  threadCount := if threadCount = 0 then kMinThreadCount else threadCount
  name := name
  threads := []
  loops := []
  nextIndex := 0
  started := false
  freshLoop := 0

def buildThreadName (pool : EventLoopThreadPool) (index : Nat) : String :=
  if pool.name.isEmpty then "io-" ++ toString index
  else pool.name ++ "-" ++ toString index

/-- One turn of the loop in `Start`.  A thread that does not start is dropped. -/
def startThread (failed : Finset Nat) (pool : EventLoopThreadPool) (i : Nat) :
    EventLoopThreadPool :=
  if i ∈ failed then pool
  else
    { pool with
      loops := pool.loops ++ [pool.freshLoop]
      threads := pool.threads ++ [⟨pool.buildThreadName i, pool.freshLoop⟩]
      freshLoop := pool.freshLoop + 1 }

/-- `Start`.  The exchange on `m_started` lets one call through. -/
def start (pool : EventLoopThreadPool) (failed : Finset Nat) : EventLoopThreadPool :=
  if pool.started then pool
  else
    let cleared := { pool with started := true, threads := [], loops := [], nextIndex := 0 }
    let running := (List.range cleared.threadCount).foldl (startThread failed) cleared
    { running with threadCount := running.threads.length }

/-- `Stop`, after the threads have been joined. -/
def stop (pool : EventLoopThreadPool) : EventLoopThreadPool :=
  if pool.started then
    { pool with started := false, threads := [], loops := [], threadCount := 0, nextIndex := 0 }
  else pool

/-- `GetNextLoop`; the counter wraps as a `size_t` does. -/
def getNextLoop (pool : EventLoopThreadPool) : EventLoopThreadPool × Option LoopId :=
  if !pool.started || pool.loops.isEmpty then (pool, none)
  else
    let index := pool.nextIndex % pool.loops.length
    ({ pool with nextIndex := (pool.nextIndex + 1) % 2 ^ sizeBits }, pool.loops[index]?)

def getLoop (pool : EventLoopThreadPool) (index : Nat) : Option LoopId :=
  if !pool.started || decide (pool.loops.length ≤ index) then none
  else pool.loops[index]?

def isRunning (pool : EventLoopThreadPool) : Bool := pool.started

end EventLoopThreadPool

/-- A call on the pool; `start` carries the indices of the threads that fail. -/
inductive PoolOp where
  | start (failed : Finset Nat)
  | stop
  | getNextLoop
  deriving DecidableEq

namespace EventLoopThreadPool

def step (pool : EventLoopThreadPool) : PoolOp → EventLoopThreadPool
  | .start failed => pool.start failed
  | .stop => pool.stop
  | .getNextLoop => pool.getNextLoop.1

def run (pool : EventLoopThreadPool) (ops : List PoolOp) : EventLoopThreadPool :=
  ops.foldl step pool

/-- A running pool offers `count` loops, and one that does not run offers none. -/
structure Offers (count : Nat) (pool : EventLoopThreadPool) : Prop where
  running : pool.isRunning = true →
    pool.loops.length = count ∧ pool.loops.Nodup ∧ pool.threadCount = count ∧
      (∀ i, (pool.getLoop i).isSome = true ↔ i < count) ∧
      pool.getNextLoop.2.isSome = true
  idle : pool.isRunning = false →
    (∀ i, pool.getLoop i = none) ∧ pool.getNextLoop.2 = none

/-! ### What `Start` builds -/

/-- The pool after the loop of `Start` has taken the indices below `count`. -/
theorem startThreads_spec (pool : EventLoopThreadPool) (failed : Finset Nat) (count : Nat) :
    let after := (List.range count).foldl (startThread failed) pool
    after.loops = pool.loops ++
        List.range' pool.freshLoop (after.freshLoop - pool.freshLoop) ∧
      after.threads.length = pool.threads.length + (after.freshLoop - pool.freshLoop) ∧
      pool.freshLoop ≤ after.freshLoop ∧
      (failed = ∅ → after.freshLoop = pool.freshLoop + count) ∧
      after.started = pool.started ∧ after.nextIndex = pool.nextIndex := by
  induction count with
  | zero => simp
  | succ count ih =>
      simp only [List.range_succ, List.foldl_append, List.foldl_cons, List.foldl_nil]
      obtain ⟨hLoops, hThreads, hLe, hAll, hStarted, hIndex⟩ := ih
      generalize (List.range count).foldl (startThread failed) pool = before at *
      rw [startThread]
      split
      case isTrue hFails =>
        refine ⟨hLoops, hThreads, hLe, ?_, hStarted, hIndex⟩
        rintro rfl
        simp at hFails
      case isFalse =>
        refine ⟨?_, ?_, by dsimp only; omega, ?_, hStarted, hIndex⟩
        · have hNext : before.freshLoop + 1 - pool.freshLoop =
              (before.freshLoop - pool.freshLoop) + 1 := by omega
          have hLast : pool.freshLoop + (before.freshLoop - pool.freshLoop) =
              before.freshLoop := by omega
          simp only [hNext, List.range'_concat, hLoops, List.append_assoc, Nat.one_mul, hLast]
        · simp only [List.length_append, List.length_singleton, hThreads]
          omega
        · intro hNone
          simp only [hAll hNone]
          omega

/-- A pool after a `Start` that takes effect. -/
theorem start_spec {pool : EventLoopThreadPool} (hStopped : pool.started = false)
    (failed : Finset Nat) :
    (pool.start failed).started = true ∧ (pool.start failed).nextIndex = 0 ∧
      (pool.start failed).loops.Nodup ∧
      (pool.start failed).threadCount = (pool.start failed).loops.length ∧
      (failed = ∅ → (pool.start failed).loops.length = pool.threadCount) := by
  obtain ⟨hLoops, hThreads, -, hAll, hStarted, hIndex⟩ := startThreads_spec
    { pool with started := true, threads := [], loops := [], nextIndex := 0 } failed
    pool.threadCount
  simp only [start, hStopped, Bool.false_eq_true, if_false]
  refine ⟨hStarted, hIndex, ?_, ?_, fun hNone => ?_⟩
  · rw [hLoops]
    simpa using List.nodup_range'
  · rw [hLoops, hThreads]
    simp
  · rw [hLoops, hAll hNone]
    simp

/-! ### The phases of a pool -/

/-- Built and not started yet. -/
structure Configured (count : Nat) (pool : EventLoopThreadPool) : Prop where
  started : pool.started = false
  threadCount : pool.threadCount = count

/-- Started once. -/
structure Running (count : Nat) (pool : EventLoopThreadPool) : Prop where
  started : pool.started = true
  threadCount : pool.threadCount = count
  length : pool.loops.length = count
  nodup : pool.loops.Nodup

theorem offers_of_stopped {count : Nat} {pool : EventLoopThreadPool}
    (hStopped : pool.started = false) : Offers count pool where
  running := fun hRunning => absurd (hStopped.symm.trans hRunning) (by decide)
  idle := fun _ => ⟨fun i => by simp [getLoop, hStopped], by simp [getNextLoop, hStopped]⟩

theorem getNextLoop_isSome {pool : EventLoopThreadPool} (hStarted : pool.started = true)
    (hLoops : 0 < pool.loops.length) : pool.getNextLoop.2.isSome = true := by
  have hNonempty : pool.loops ≠ [] := List.ne_nil_of_length_pos hLoops
  have hIndex : pool.nextIndex % pool.loops.length < pool.loops.length := Nat.mod_lt _ hLoops
  simp [getNextLoop, hStarted, hNonempty, hIndex]

theorem getLoop_isSome_iff {pool : EventLoopThreadPool} (hStarted : pool.started = true)
    (i : Nat) : (pool.getLoop i).isSome = true ↔ i < pool.loops.length := by
  by_cases hLt : i < pool.loops.length
  · simp [getLoop, hStarted, hLt]
  · simp [getLoop, not_lt.mp hLt]

theorem offers_of_running {count : Nat} {pool : EventLoopThreadPool} (hPos : 0 < count)
    (hRunning : Running count pool) : Offers count pool where
  running := fun _ => by
    refine ⟨hRunning.length, hRunning.nodup, hRunning.threadCount, fun i => ?_,
      getNextLoop_isSome hRunning.started (by rw [hRunning.length]; exact hPos)⟩
    rw [getLoop_isSome_iff hRunning.started, hRunning.length]
  idle := fun hIdle => absurd (hRunning.started.symm.trans hIdle) (by decide)

theorem running_start {count : Nat} {pool : EventLoopThreadPool}
    (hConfigured : Configured count pool) : Running count (pool.start ∅) := by
  obtain ⟨hStarted, -, hNodup, hCount, hLength⟩ := start_spec hConfigured.started ∅
  have hLoops : (pool.start ∅).loops.length = count :=
    (hLength rfl).trans hConfigured.threadCount
  exact ⟨hStarted, hCount.trans hLoops, hLoops, hNodup⟩

/-- A pool of size 0 that is started claims to run and has no loop. -/
theorem not_offers_start {count : Nat} {pool : EventLoopThreadPool} (hPos : 0 < count)
    (hStopped : Configured 0 pool) : ¬Offers count (pool.start ∅) := by
  intro hOffers
  have hRunning := running_start hStopped
  have hLength := (hOffers.running hRunning.started).1
  rw [hRunning.length] at hLength
  omega

theorem running_getNextLoop {count : Nat} {pool : EventLoopThreadPool}
    (hRunning : Running count pool) : Running count pool.getNextLoop.1 := by
  rw [getNextLoop]
  split
  · exact hRunning
  · exact ⟨hRunning.started, hRunning.threadCount, hRunning.length, hRunning.nodup⟩

theorem getNextLoop_of_stopped {pool : EventLoopThreadPool} (hStopped : pool.started = false) :
    pool.getNextLoop.1 = pool := by
  simp [getNextLoop, hStopped]

theorem stop_of_stopped {pool : EventLoopThreadPool} (hStopped : pool.started = false) :
    pool.stop = pool := by
  simp [stop, hStopped]

theorem start_of_started {pool : EventLoopThreadPool} (hStarted : pool.started = true)
    (failed : Finset Nat) : pool.start failed = pool := by
  simp [start, hStarted]

/-- `Stop` forgets the size. -/
theorem configured_stop {pool : EventLoopThreadPool} (hStarted : pool.started = true) :
    Configured 0 pool.stop := by
  constructor
  · simp [stop, hStarted]
  · simp [stop, hStarted]

/-! ### Along the calls of the owner -/

/-- The pool offers its loops after every part of the calls. -/
def AlwaysOffers (count : Nat) (pool : EventLoopThreadPool) (ops : List PoolOp) : Prop :=
  ∀ prior, prior <+: ops → Offers count (pool.run prior)

theorem AlwaysOffers.head {count : Nat} {pool : EventLoopThreadPool} {ops : List PoolOp}
    (hAlways : AlwaysOffers count pool ops) : Offers count pool :=
  hAlways [] List.nil_prefix

theorem alwaysOffers_cons {count : Nat} {pool : EventLoopThreadPool} {op : PoolOp}
    {ops : List PoolOp} (hOffers : Offers count pool) :
    AlwaysOffers count pool (op :: ops) ↔ AlwaysOffers count (pool.step op) ops := by
  constructor
  · intro hAlways prior hPrior
    exact hAlways (op :: prior) (List.cons_prefix_cons.mpr ⟨rfl, hPrior⟩)
  · intro hAlways prior hPrior
    cases prior with
    | nil => exact hOffers
    | cons first prior =>
        obtain ⟨rfl, hRest⟩ := List.cons_prefix_cons.mp hPrior
        exact hAlways prior hRest

theorem alwaysOffers_nil {count : Nat} {pool : EventLoopThreadPool}
    (hOffers : Offers count pool) : AlwaysOffers count pool [] := by
  intro prior hPrior
  obtain rfl := List.prefix_nil.mp hPrior
  exact hOffers

section Calls

variable {count : Nat} {pool : EventLoopThreadPool} {ops : List PoolOp}

theorem alwaysOffers_stopped_iff (hPos : 0 < count) (hStopped : Configured 0 pool)
    (hYield : ∀ failed, PoolOp.start failed ∈ ops → failed = ∅) :
    AlwaysOffers count pool ops ↔ ¬[PoolOp.start ∅].Sublist ops := by
  have hOffers : Offers count pool := offers_of_stopped hStopped.started
  induction ops with
  | nil => simpa using alwaysOffers_nil hOffers
  | cons op ops ih =>
      rw [alwaysOffers_cons hOffers, List.cons_sublist_cons']
      have hRest : ∀ failed, PoolOp.start failed ∈ ops → failed = ∅ :=
        fun failed hMem => hYield failed (List.mem_cons_of_mem op hMem)
      cases op with
      | start failed =>
          obtain rfl : failed = ∅ := hYield failed List.mem_cons_self
          refine iff_of_false (fun hAlways => not_offers_start hPos hStopped hAlways.head) ?_
          simp
      | stop =>
          rw [step, stop_of_stopped hStopped.started]
          refine (ih hRest).trans ?_
          simp
      | getNextLoop =>
          rw [step, getNextLoop_of_stopped hStopped.started]
          refine (ih hRest).trans ?_
          simp

theorem alwaysOffers_running_iff (hPos : 0 < count) (hRunning : Running count pool)
    (hYield : ∀ failed, PoolOp.start failed ∈ ops → failed = ∅) :
    AlwaysOffers count pool ops ↔ ¬[PoolOp.stop, PoolOp.start ∅].Sublist ops := by
  induction ops generalizing pool with
  | nil => simpa using alwaysOffers_nil (offers_of_running hPos hRunning)
  | cons op ops ih =>
      rw [alwaysOffers_cons (offers_of_running hPos hRunning), List.cons_sublist_cons']
      have hRest : ∀ failed, PoolOp.start failed ∈ ops → failed = ∅ :=
        fun failed hMem => hYield failed (List.mem_cons_of_mem op hMem)
      cases op with
      | start failed =>
          rw [step, start_of_started hRunning.started, ih hRunning hRest]
          simp
      | stop =>
          rw [step, alwaysOffers_stopped_iff hPos (configured_stop hRunning.started) hRest]
          simp only [true_and, not_or, iff_and_self]
          intro hNone hPair
          exact hNone ((List.sublist_cons_self _ _).trans hPair)
      | getNextLoop =>
          rw [step, ih (running_getNextLoop hRunning) hRest]
          simp

theorem alwaysOffers_configured_iff (hPos : 0 < count) (hConfigured : Configured count pool)
    (hYield : ∀ failed, PoolOp.start failed ∈ ops → failed = ∅) :
    AlwaysOffers count pool ops ↔
      ¬[PoolOp.start ∅, PoolOp.stop, PoolOp.start ∅].Sublist ops := by
  have hOffers : Offers count pool := offers_of_stopped hConfigured.started
  induction ops with
  | nil => simpa using alwaysOffers_nil hOffers
  | cons op ops ih =>
      rw [alwaysOffers_cons hOffers, List.cons_sublist_cons']
      have hRest : ∀ failed, PoolOp.start failed ∈ ops → failed = ∅ :=
        fun failed hMem => hYield failed (List.mem_cons_of_mem op hMem)
      cases op with
      | start failed =>
          obtain rfl : failed = ∅ := hYield failed List.mem_cons_self
          rw [step, alwaysOffers_running_iff hPos (running_start hConfigured) hRest]
          simp only [true_and, not_or, iff_and_self]
          intro hNone hTriple
          exact hNone ((List.sublist_cons_self _ _).trans hTriple)
      | stop =>
          rw [step, stop_of_stopped hConfigured.started]
          refine (ih hRest).trans ?_
          simp
      | getNextLoop =>
          rw [step, getNextLoop_of_stopped hConfigured.started]
          refine (ih hRest).trans ?_
          simp

end Calls

theorem configured_new (threadCount : Nat) (name : String) :
    Configured (max 1 threadCount) (new threadCount name) := by
  constructor
  · rfl
  · simp only [new, kMinThreadCount]
    split <;> omega

/-- The pool offers its loops all along exactly when it is never started again
after a stop. -/
theorem pool_offers_loops_iff_not_restarted (threadCount : Nat) (name : String)
    (ops : List PoolOp) (hYield : ∀ failed, PoolOp.start failed ∈ ops → failed = ∅) :
    (∀ prior, prior <+: ops →
        Offers (max 1 threadCount) ((new threadCount name).run prior)) ↔
      ¬[PoolOp.start ∅, PoolOp.stop, PoolOp.start ∅].Sublist ops :=
  alwaysOffers_configured_iff (by omega) (configured_new threadCount name) hYield

theorem pool_offers_loops_iff_not_restarted_two :
    ((new 2 "io").run [.start ∅, .getNextLoop, .start ∅]).loops = [0, 1] ∧
      AlwaysOffers (max 1 2) (new 2 "io") [.start ∅, .getNextLoop, .start ∅, .stop, .stop] :=
  ⟨by decide,
    (pool_offers_loops_iff_not_restarted 2 "io" _ (by simp)).mpr (by decide)⟩

/-- After start, stop, start the pool runs, has no loop and hands out `nullptr`. -/
theorem restarted_pool_offers_nothing :
    ((new 2 "io").run [.start ∅, .stop, .start ∅]).isRunning = true ∧
      ((new 2 "io").run [.start ∅, .stop, .start ∅]).threadCount = 0 ∧
      ((new 2 "io").run [.start ∅, .stop, .start ∅]).getNextLoop.2 = none ∧
      ¬∀ prior, prior <+: [PoolOp.start ∅, .stop, .start ∅] →
        Offers (max 1 2) ((new 2 "io").run prior) := by
  refine ⟨by decide, by decide, by decide, fun hAlways => ?_⟩
  have hCount := ((hAlways _ List.prefix_rfl).running (by decide)).2.2.1
  exact absurd hCount (by decide)

end EventLoopThreadPool

end SolarNet
