import SolarNet.Net.EventLoopQuit

/-!
# `EventLoopThread`

The functions of `solar_net/net/event_loop_thread.cpp`, cut at the points where
another thread can interleave: the critical sections of `m_mutex`, the wait on
`m_cond`, every use that `Stop` makes of the loop pointer, and `Join`.

The background thread runs `ThreadFunc`, and with it the `EventLoop` of
`SolarNet.Net.EventLoop`, which lives on its stack.  The owner calls `Start` and
`Stop` one after the other.  Code on the loop thread may call `Stop` as well.
Other threads get the loop from `GetLoop()` and may then call `QueueInLoop`,
`RunInLoop` and `Quit` at any time; so may the owner, the init callback, the
handlers and the functors.

`m_started` is never reset, hence a thread is created at most once, and `m_loop`
is `nullptr` or points to the one loop.  What is undefined, or throws in the
middle of `Stop`, ends the run with a `Fault`.
-/

namespace SolarNet

open Lib

/-- The functors of the loop: the one that `Stop` posts, and all others. -/
inductive LoopTask (F : Type*) where
  /-- `[loop] { loop->Quit(); }` -/
  | quitLoop
  | user (functor : F)
  deriving DecidableEq, Repr

/-- The threads that are not the loop thread. -/
inductive Peer (T : Type*) where
  | owner
  | thread (name : T)
  deriving DecidableEq, Repr

/-- The two threads that call `Stop` and hold `m_mutex` for more than one step. -/
inductive Side where
  | owner
  | loopThread
  deriving DecidableEq, Repr

/-- How far the owner is in `Start`. -/
inductive StartStage where
  | idle
  /-- The thread is created; `m_mutex` is held, and the wait comes next. -/
  | created
  /-- Blocked on `m_cond`. -/
  | waiting
  /-- Woken up; `m_mutex` has to be acquired again. -/
  | woken
  deriving DecidableEq, Repr

/-- How far a thread is in `Stop`.  The first seven stages after `idle` are the uses of the
copied pointer that come next. -/
inductive StopStage where
  | idle
  /-- `loop->IsInLoopThread()` in `Stop`. -/
  | testThread
  /-- `IsInLoopThread()` in `RunInLoop`. -/
  | runInLoop
  /-- The critical section of `QueueInLoop`. -/
  | push
  /-- `IsInLoopThread()` in `QueueInLoop`. -/
  | pushed
  /-- `Wakeup()` in `QueueInLoop`. -/
  | wakeup
  /-- The store of `Quit`. -/
  | quit
  /-- `IsInLoopThread()` in `Quit`. -/
  | quitting
  /-- `thread->Join()`. -/
  | join
  /-- The last critical section. -/
  | finish
  | returned
  deriving DecidableEq, Repr

/-- How far the background thread is in `ThreadFunc`. -/
inductive ThreadStage where
  | absent
  | created
  /-- `EventLoop loop;` is done. -/
  | constructed
  /-- `m_loop` is set; the init callback runs under `m_mutex`. -/
  | init
  /-- `m_mutex` is released; `notify_one` comes next. -/
  | unlocked
  | notified
  /-- In `loop.Loop()`, or just out of it. -/
  | looping
  /-- `m_loop` is reset; the destructor of the loop comes next. -/
  | cleared
  | ended
  deriving DecidableEq, Repr

/-- Where the one `std::unique_ptr<Thread>` that is not null is. -/
inductive ThreadHandle where
  /-- In `m_thread`. -/
  | member
  /-- In the local variable of a call of `Stop`. -/
  | moved (side : Side)
  deriving DecidableEq, Repr

/-- What ends a run. -/
inductive Fault where
  | usedDestroyedLoop
  | joinedItself
  deriving DecidableEq, Repr

/-- The state of an `EventLoopThread`, of its loop, and of the calls in progress.  `seen` says
which threads know the loop pointer. -/
structure EventLoopThread (F T : Type*) where
  mutex : Option Side
  /-- `m_loop != nullptr` -/
  loop : Bool
  handle : Option ThreadHandle
  started : Bool
  stopped : Bool
  thread : ThreadStage
  eventLoop : EventLoop (LoopTask F) (Peer T)
  start : StartStage
  stops : Side → StopStage
  seen : Peer T → Bool
  fault : Option Fault

/-- The steps of `ThreadFunc` outside `Loop()`. -/
inductive ThreadAct where
  | construct
  | publish
  | endInit
  | notify
  | clear
  | destroy
  deriving DecidableEq, Repr

/-- A step of the system. -/
inductive ThreadLabel (F T : Type*) where
  /-- `Start` up to its wait. -/
  | startLock
  /-- The first test of the predicate in the wait. -/
  | startWait
  | spuriousWakeup
  /-- The test of the predicate after a wakeup. -/
  | startRecheck
  | thread (act : ThreadAct)
  | loop (label : LoopLabel (LoopTask F) (Peer T))
  | getLoop (peer : Peer T)
  /-- The first critical section of `Stop`. -/
  | stopLock (side : Side)
  /-- The next step of a call of `Stop`. -/
  | stopNext (side : Side)
  deriving DecidableEq, Repr

/-- The `EventLoop` on the stack is constructed and not yet destroyed. -/
def ThreadStage.alive : ThreadStage → Bool
  | .absent | .created | .ended => false
  | _ => true

namespace StopStage

/-- Not inside a call of `Stop`. -/
def free : StopStage → Bool
  | .idle | .returned => true
  | _ => false

/-- The next step of `Stop` uses the loop pointer. -/
def usesLoop : StopStage → Bool
  | .testThread | .runInLoop | .push | .pushed | .wakeup | .quit | .quitting => true
  | _ => false

end StopStage

/-- `Loop()` has not been entered, or it has returned. -/
def LoopPc.isOutside {F : Type*} : LoopPc F → Bool
  | .outside => true
  | _ => false

/-- The thread as a caller of the functions of its loop. -/
def Side.caller {T : Type*} : Side → Caller (Peer T)
  | .owner => .other .owner
  | .loopThread => .loopThread

namespace EventLoopThread

variable {F T : Type*}

/-- A freshly constructed `EventLoopThread`. -/
def new : EventLoopThread F T where
  mutex := none
  loop := false
  handle := none
  started := false
  stopped := false
  thread := .absent
  eventLoop := .new
  start := .idle
  stops := fun _ => .idle
  seen := fun _ => false
  fault := none

/-- A thread is given the value of `m_loop`. -/
def learn [DecidableEq T] (s : EventLoopThread F T) (peer : Peer T) : EventLoopThread F T :=
  { s with seen := Function.update s.seen peer (s.seen peer || s.loop) }

def setStop (s : EventLoopThread F T) (side : Side) (stage : StopStage) :
    EventLoopThread F T :=
  { s with stops := Function.update s.stops side stage }

/-- The owner is in no call. -/
def ownerFree (s : EventLoopThread F T) : Bool :=
  s.start == .idle && (s.stops .owner).free && s.eventLoop.calls (.other .owner) == .idle

/-- The loop thread is in no call. -/
def loopThreadFree (s : EventLoopThread F T) : Bool :=
  (s.stops .loopThread).free && s.eventLoop.calls .loopThread == .idle

/-! ## `Start` -/

section Start

variable [DecidableEq T]

/-- `Start` up to the wait. -/
def startLock (s : EventLoopThread F T) : EventLoopThread F T :=
  if s.started then (s.setStop .owner .idle).learn .owner
  else
    { s.setStop .owner .idle with
      mutex := some .owner
      started := true
      stopped := false
      handle := some .member
      thread := .created
      start := .created }

/-- The predicate `m_loop != nullptr`, tested under `m_mutex`: `Start` returns, or it blocks
and releases the mutex. -/
def testLoop (s : EventLoopThread F T) : EventLoopThread F T :=
  { s.learn .owner with
    mutex := none
    start := if s.loop then .idle else .waiting }

end Start

/-! ## `ThreadFunc` -/

/-- `notify_one` wakes the owner if it waits, and is lost otherwise. -/
def notify (s : EventLoopThread F T) : EventLoopThread F T :=
  { s with
    thread := .notified
    start := if s.start = .waiting then .woken else s.start }

def threadStep (s : EventLoopThread F T) (act : ThreadAct) : Option (EventLoopThread F T) :=
  match act, s.thread with
  | .construct, .created => some { s with thread := .constructed }
  | .publish, .constructed =>
      if s.mutex = none then
        some { s with mutex := some .loopThread, loop := true, thread := .init }
      else none
  | .endInit, .init =>
      if s.loopThreadFree then some { s with mutex := none, thread := .unlocked } else none
  | .notify, .unlocked => some s.notify
  | .clear, .looping =>
      -- `Loop()` has returned.
      if s.mutex = none ∧ s.loopThreadFree = true ∧ s.eventLoop.pc.isOutside = true then
        some { s with loop := false, thread := .cleared }
      else none
  | .destroy, .cleared => some { s with thread := .ended }
  | _, _ => none

/-! ## The loop -/

section Loop

variable [DecidableEq T]

/-- A thread may call functions of the loop: the loop thread from the init callback, a handler
or a functor, any other thread once it knows the pointer.  Such a call is made while the loop
is alive. -/
def mayCall (s : EventLoopThread F T) : Caller (Peer T) → Bool
  | .loopThread =>
      (s.stops .loopThread).free &&
        (s.thread == .init || s.thread == .looping && !s.eventLoop.pc.isOutside)
  | .other .owner =>
      s.start == .idle && (s.stops .owner).free && s.seen .owner && s.thread.alive
  | .other (.thread name) => s.seen (.thread name) && s.thread.alive

/-- The functor of `Stop` does not return before it has called `Quit`. -/
def quitLoopDone (s : EventLoopThread F T) : Bool :=
  match s.eventLoop.executed.getLast? with
  | some .quitLoop => s.eventLoop.quit
  | _ => true

/-- Where the threads have to be for a step of the loop. -/
def mayTake (s : EventLoopThread F T) : LoopLabel (LoopTask F) (Peer T) → Bool
  | .loop .enter => s.thread == .notified && (s.stops .loopThread).free
  | .loop .functorReturn =>
      s.thread == .looping && (s.stops .loopThread).free && s.quitLoopDone
  | .loop _ => s.thread == .looping && (s.stops .loopThread).free
  | .queueInLoop caller _ | .runInLoop caller _ | .quit caller | .finishCall caller =>
      s.mayCall caller

/-- `loop.Loop()` is entered by the step of the loop that enters it. -/
def afterLabel (stage : ThreadStage) : LoopLabel (LoopTask F) (Peer T) → ThreadStage
  | .loop .enter => .looping
  | _ => stage

def takeLabel (s : EventLoopThread F T) (label : LoopLabel (LoopTask F) (Peer T)) :
    Option (EventLoopThread F T) :=
  if s.mayTake label then
    (s.eventLoop.step label).map fun eventLoop =>
      { s with eventLoop := eventLoop, thread := afterLabel s.thread label }
  else none

end Loop

/-! ## `Stop` -/

section Stop

variable [DecidableEq T]

/-- A thread may call `Stop`: the owner between two calls, the loop thread from a handler or a
functor. -/
def mayStop (s : EventLoopThread F T) : Side → Bool
  | .owner => s.ownerFree
  | .loopThread => s.loopThreadFree && s.thread == .looping && !s.eventLoop.pc.isOutside &&
      EventLoop.inUserCode s.eventLoop.pc

/-- The first critical section of `Stop`. -/
def stopLock (s : EventLoopThread F T) (side : Side) : EventLoopThread F T :=
  if !s.started || s.stopped then s.setStop side .returned
  else
    { s with
      stopped := true
      handle := if s.handle = some ThreadHandle.member then some (.moved side)
        else s.handle }.setStop side (if s.loop then .testThread else .join)

/-- The uses of the copied pointer, one step each. -/
def use (s : EventLoopThread F T) (side : Side) : EventLoopThread F T :=
  match s.stops side with
  | .testThread => s.setStop side (if side = .loopThread then .quit else .runInLoop)
  -- On the loop thread `RunInLoop` would run the functor in place.
  | .runInLoop => s.setStop side (if side = .loopThread then .quit else .push)
  | .push =>
      { s with
        eventLoop := s.eventLoop.queueInLoop side.caller .quitLoop }.setStop side .pushed
  | .pushed => s.setStop side .wakeup
  | .quit => { s with eventLoop := s.eventLoop.quitStore side.caller }.setStop side .quitting
  | .wakeup | .quitting =>
      { s with eventLoop := s.eventLoop.finishCall side.caller }.setStop side .join
  | _ => s

/-- `if (thread != nullptr) thread->Join();`  Nobody joins itself: the library throws. -/
def joinThread (s : EventLoopThread F T) (side : Side) : Option (EventLoopThread F T) :=
  if s.handle = some (.moved side) then
    match side with
    | .loopThread => some { s with fault := some .joinedItself }
    | .owner => if s.thread = .ended then some (s.setStop .owner .finish) else none
  else some (s.setStop side .finish)

/-- The last critical section of `Stop`, and the end of its local variables. -/
def finishStop (s : EventLoopThread F T) (side : Side) : EventLoopThread F T :=
  { s with
    loop := false
    handle := if s.handle = some ThreadHandle.member ∨ s.handle = some (ThreadHandle.moved side)
      then none else s.handle }.setStop side .returned

def stopNext (s : EventLoopThread F T) (side : Side) : Option (EventLoopThread F T) :=
  match s.stops side with
  | .idle | .returned => none
  | .join => s.joinThread side
  | .finish => if s.mutex = none then some (s.finishStop side) else none
  | _ =>
      some (if s.thread.alive then s.use side
        else { s with fault := some .usedDestroyedLoop })

end Stop

/-! ## The system -/

variable [DecidableEq T]

/-- One step of the system. -/
def step (s : EventLoopThread F T) (label : ThreadLabel F T) : Option (EventLoopThread F T) :=
  if s.fault.isSome then none
  else
    match label with
    | .startLock => if s.ownerFree = true ∧ s.mutex = none then some s.startLock else none
    | .startWait => if s.start = .created then some s.testLoop else none
    | .spuriousWakeup => if s.start = .waiting then some { s with start := .woken } else none
    | .startRecheck => if s.start = .woken ∧ s.mutex = none then some s.testLoop else none
    | .thread act => s.threadStep act
    | .loop label => s.takeLabel label
    | .getLoop peer => if s.mutex = none then some (s.learn peer) else none
    | .stopLock side =>
        if s.mayStop side = true ∧ s.mutex = none then some (s.stopLock side) else none
    | .stopNext side => s.stopNext side

/-! ## What a step can do -/

/-- The steps of the system, one constructor for each. -/
inductive Moves (s : EventLoopThread F T) : ThreadLabel F T → EventLoopThread F T → Prop
  | startAgain (hFree : s.ownerFree = true) (hMutex : s.mutex = none)
      (hStarted : s.started = true) :
      Moves s .startLock ((s.setStop .owner .idle).learn .owner)
  | start (hFree : s.ownerFree = true) (hMutex : s.mutex = none) (hStarted : s.started = false) :
      Moves s .startLock { s.setStop .owner .idle with
        mutex := some .owner
        started := true
        stopped := false
        handle := some .member
        thread := .created
        start := .created }
  | startWait (hStart : s.start = .created) : Moves s .startWait s.testLoop
  | spuriousWakeup (hStart : s.start = .waiting) :
      Moves s .spuriousWakeup { s with start := .woken }
  | startRecheck (hStart : s.start = .woken) (hMutex : s.mutex = none) :
      Moves s .startRecheck s.testLoop
  | construct (hThread : s.thread = .created) :
      Moves s (.thread .construct) { s with thread := .constructed }
  | publish (hThread : s.thread = .constructed) (hMutex : s.mutex = none) :
      Moves s (.thread .publish)
        { s with mutex := some .loopThread, loop := true, thread := .init }
  | endInit (hThread : s.thread = .init) (hFree : s.loopThreadFree = true) :
      Moves s (.thread .endInit) { s with mutex := none, thread := .unlocked }
  | notify (hThread : s.thread = .unlocked) : Moves s (.thread .notify) s.notify
  | clear (hThread : s.thread = .looping) (hMutex : s.mutex = none)
      (hFree : s.loopThreadFree = true) (hPc : s.eventLoop.pc.isOutside = true) :
      Moves s (.thread .clear) { s with loop := false, thread := .cleared }
  | destroy (hThread : s.thread = .cleared) : Moves s (.thread .destroy) { s with thread := .ended }
  | loop (label : LoopLabel (LoopTask F) (Peer T)) (eventLoop : EventLoop (LoopTask F) (Peer T))
      (hMay : s.mayTake label = true) (hStep : s.eventLoop.step label = some eventLoop) :
      Moves s (.loop label)
        { s with eventLoop := eventLoop, thread := afterLabel s.thread label }
  | getLoop (peer : Peer T) (hMutex : s.mutex = none) : Moves s (.getLoop peer) (s.learn peer)
  | stopNothing (side : Side) (hMay : s.mayStop side = true) (hMutex : s.mutex = none)
      (hNothing : s.started = false ∨ s.stopped = true) :
      Moves s (.stopLock side) (s.setStop side .returned)
  | stopLock (side : Side) (hMay : s.mayStop side = true) (hMutex : s.mutex = none)
      (hStarted : s.started = true) (hStopped : s.stopped = false) :
      Moves s (.stopLock side) ({ s with
        stopped := true
        handle := if s.handle = some ThreadHandle.member then some (.moved side)
          else s.handle }.setStop side (if s.loop then .testThread else .join))
  | use (side : Side) (hUses : (s.stops side).usesLoop = true) (hAlive : s.thread.alive = true) :
      Moves s (.stopNext side) (s.use side)
  | useDestroyed (side : Side) (hUses : (s.stops side).usesLoop = true)
      (hDestroyed : s.thread.alive = false) :
      Moves s (.stopNext side) { s with fault := some .usedDestroyedLoop }
  | join (hStop : s.stops .owner = .join) (hHandle : s.handle = some (.moved .owner))
      (hEnded : s.thread = .ended) :
      Moves s (.stopNext .owner) (s.setStop .owner .finish)
  | joinItself (hStop : s.stops .loopThread = .join)
      (hHandle : s.handle = some (.moved .loopThread)) :
      Moves s (.stopNext .loopThread) { s with fault := some .joinedItself }
  | joinNothing (side : Side) (hStop : s.stops side = .join)
      (hHandle : s.handle ≠ some (.moved side)) :
      Moves s (.stopNext side) (s.setStop side .finish)
  | finishStop (side : Side) (hStop : s.stops side = .finish) (hMutex : s.mutex = none) :
      Moves s (.stopNext side) (s.finishStop side)

theorem moves_of_threadStep {s s' : EventLoopThread F T} {act : ThreadAct}
    (hStep : s.threadStep act = some s') : Moves s (.thread act) s' := by
  unfold threadStep at hStep
  split at hStep
  case h_1 hThread =>
      obtain rfl := Option.some.inj hStep
      exact .construct hThread
  case h_2 hThread =>
      simp only [Option.ite_none_right_eq_some, Option.some.injEq] at hStep
      obtain ⟨hMutex, rfl⟩ := hStep
      exact .publish hThread hMutex
  case h_3 hThread =>
      simp only [Option.ite_none_right_eq_some, Option.some.injEq] at hStep
      obtain ⟨hFree, rfl⟩ := hStep
      exact .endInit hThread hFree
  case h_4 hThread =>
      obtain rfl := Option.some.inj hStep
      exact .notify hThread
  case h_5 hThread =>
      simp only [Option.ite_none_right_eq_some, Option.some.injEq] at hStep
      obtain ⟨⟨hMutex, hFree, hPc⟩, rfl⟩ := hStep
      exact .clear hThread hMutex hFree hPc
  case h_6 hThread =>
      obtain rfl := Option.some.inj hStep
      exact .destroy hThread
  case h_7 => cases hStep

theorem moves_of_stopNext {s s' : EventLoopThread F T} {side : Side}
    (hStep : s.stopNext side = some s') : Moves s (.stopNext side) s' := by
  have hUse : (s.stops side).usesLoop = true →
      some (if s.thread.alive then s.use side
        else { s with fault := some .usedDestroyedLoop }) = some s' →
      Moves s (.stopNext side) s' := by
    intro hUses hSome
    obtain rfl := Option.some.inj hSome
    split
    · next hAlive => exact .use side hUses hAlive
    · next hDestroyed => exact .useDestroyed side hUses (by simpa using hDestroyed)
  unfold stopNext at hStep
  cases hStage : s.stops side with
  | idle | returned => simp [hStage] at hStep
  | testThread | runInLoop | push | pushed | wakeup | quit | quitting =>
      rw [hStage] at hStep hUse
      exact hUse rfl hStep
  | join =>
      simp only [hStage, joinThread] at hStep
      split at hStep
      · next hHandle =>
        cases side with
        | loopThread =>
            obtain rfl := Option.some.inj hStep
            exact .joinItself hStage hHandle
        | owner =>
            simp only [Option.ite_none_right_eq_some, Option.some.injEq] at hStep
            obtain ⟨hEnded, rfl⟩ := hStep
            exact .join hStage hHandle hEnded
      · next hHandle =>
        obtain rfl := Option.some.inj hStep
        exact .joinNothing side hStage hHandle
  | finish =>
      simp only [hStage, Option.ite_none_right_eq_some, Option.some.injEq] at hStep
      obtain ⟨hMutex, rfl⟩ := hStep
      exact .finishStop side hStage hMutex

theorem moves_of_step {s s' : EventLoopThread F T} {label : ThreadLabel F T}
    (hStep : s.step label = some s') : s.fault = none ∧ Moves s label s' := by
  simp only [step, Option.ite_none_left_eq_some] at hStep
  obtain ⟨hFault, hStep⟩ := hStep
  refine ⟨by simpa using hFault, ?_⟩
  cases label with
  | startLock =>
      simp only [Option.ite_none_right_eq_some, Option.some.injEq] at hStep
      obtain ⟨⟨hFree, hMutex⟩, rfl⟩ := hStep
      unfold startLock
      split
      · next hStarted => exact .startAgain hFree hMutex hStarted
      · next hStarted => exact .start hFree hMutex (by simpa using hStarted)
  | startWait =>
      simp only [Option.ite_none_right_eq_some, Option.some.injEq] at hStep
      obtain ⟨hStart, rfl⟩ := hStep
      exact .startWait hStart
  | spuriousWakeup =>
      simp only [Option.ite_none_right_eq_some, Option.some.injEq] at hStep
      obtain ⟨hStart, rfl⟩ := hStep
      exact .spuriousWakeup hStart
  | startRecheck =>
      simp only [Option.ite_none_right_eq_some, Option.some.injEq] at hStep
      obtain ⟨⟨hStart, hMutex⟩, rfl⟩ := hStep
      exact .startRecheck hStart hMutex
  | thread act => exact moves_of_threadStep hStep
  | loop label =>
      simp only [takeLabel, Option.ite_none_right_eq_some] at hStep
      obtain ⟨hMay, hLoop⟩ := hStep
      obtain ⟨eventLoop, hEvent, rfl⟩ := Option.map_eq_some_iff.mp hLoop
      exact .loop label eventLoop hMay hEvent
  | getLoop peer =>
      simp only [Option.ite_none_right_eq_some, Option.some.injEq] at hStep
      obtain ⟨hMutex, rfl⟩ := hStep
      exact .getLoop peer hMutex
  | stopLock side =>
      simp only [Option.ite_none_right_eq_some, Option.some.injEq] at hStep
      obtain ⟨⟨hMay, hMutex⟩, rfl⟩ := hStep
      unfold stopLock
      split
      · next hNothing => exact .stopNothing side hMay hMutex (by simpa using hNothing)
      · next hGoes =>
        have hBoth : s.started = true ∧ s.stopped = false := by simpa using hGoes
        exact .stopLock side hMay hMutex hBoth.1 hBoth.2
  | stopNext side => exact moves_of_stopNext hStep

end EventLoopThread
end SolarNet
