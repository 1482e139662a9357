import Mathlib.Data.List.Basic
import Mathlib.Tactic

/-!
# `EventLoop`: the functor queue and the wakeup descriptor

The functions of `solar_net/net/event_loop.cpp` that threads execute
concurrently, cut at the points where another thread can interleave: the
critical sections of `m_mutex`, the atomic flags, and the reads and writes of
the wakeup eventfd.

The loop thread has a program counter `LoopPc`.  It runs user code outside
`Loop()`, inside a handler, inside a functor, and while `DoPendingFunctors`
destroys its functors, which destroys what they have captured.  There it may call
`QueueInLoop`, `RunInLoop` and `Quit` like any other thread.  Each thread is
either between calls or inside one, after its first atomic step
(`CallPc`).  Handlers, timers and functors are otherwise opaque: a functor is a
value of an arbitrary type `F`, and threads are named by an arbitrary type `T`.

`m_looping` and `m_event_handling` are stored and never read, so they are left
out.
-/

namespace SolarNet

/-- Who executes a call. -/
inductive Caller (T : Type*) where
  | loopThread
  | other (thread : T)
  deriving DecidableEq, Repr

/-- How far a thread is in a call of `QueueInLoop` or `Quit`. -/
inductive CallPc where
  | idle
  /-- The functor is pushed; the test for `Wakeup` comes next. -/
  | queued
  /-- `m_quit` is stored; the test for `Wakeup` comes next. -/
  | quitting
  deriving DecidableEq, Repr

/-- How far the loop thread is in `Loop()`. -/
inductive LoopPc (F : Type*) where
  /-- Not in `Loop()`: before it is entered, or after it has returned. -/
  | outside
  /-- At `if (!m_quit)`. -/
  | top
  /-- About to enter `Poll`. -/
  | poll
  /-- Dispatching the active channels. -/
  | handling
  /-- About to enter `DoPendingFunctors`. -/
  | pending
  /-- `m_calling_pending_functors` is set; the swap comes next. -/
  | swapping
  /-- Between two functors of the batch. -/
  | batch (rest : List F)
  /-- Inside a functor of the batch. -/
  | running (rest : List F)
  /-- `m_calling_pending_functors` is reset; the functors of the batch are destroyed. -/
  | destroying
  /-- At the second test of `m_quit`. -/
  | testing
  deriving DecidableEq, Repr

/-- The state of an `EventLoop` and of the calls in progress.  The last three
fields are history: all functors in the order in which their pushes took
`m_mutex`, the functors that `DoPendingFunctors` started, and those that
`RunInLoop` ran in place. -/
structure EventLoop (F T : Type*) where
  quit : Bool
  callingPendingFunctors : Bool
  pendingFunctors : List F
  wakeupCounter : Nat
  pc : LoopPc F
  calls : Caller T → CallPc
  pushed : List F
  executed : List F
  inlined : List F

/-- The steps of the loop thread in `Loop()`. -/
inductive LoopAct where
  | enter
  | testTop
  | pollReturn
  | handleRead
  | endHandling
  | startPending
  | swap
  | runNext
  | functorReturn
  | endPending
  | destroyFunctors
  | testBottom
  deriving DecidableEq, Repr

/-- A step of the system. -/
inductive LoopLabel (F T : Type*) where
  | loop (act : LoopAct)
  | queueInLoop (caller : Caller T) (functor : F)
  | runInLoop (caller : Caller T) (functor : F)
  | quit (caller : Caller T)
  /-- The rest of `QueueInLoop` or `Quit`: the test and the `Wakeup`. -/
  | finishCall (caller : Caller T)
  deriving DecidableEq, Repr

namespace EventLoop

variable {F T : Type*}

/-- A freshly constructed loop. -/
def new : EventLoop F T where
  quit := false
  callingPendingFunctors := false
  pendingFunctors := []
  wakeupCounter := 0
  pc := .outside
  calls := fun _ => .idle
  pushed := []
  executed := []
  inlined := []

/-- `Wakeup`: add one to the eventfd. -/
def wakeup (s : EventLoop F T) : EventLoop F T :=
  { s with wakeupCounter := s.wakeupCounter + 1 }

/-- `HandleRead`: reading the eventfd resets its counter. -/
def handleRead (s : EventLoop F T) : EventLoop F T :=
  { s with wakeupCounter := 0 }

/-- One step of `Loop()` and `DoPendingFunctors()`. -/
def loopStep (s : EventLoop F T) (act : LoopAct) : Option (EventLoop F T) :=
  match act, s.pc with
  | .enter, .outside => some { s with pc := .top }
  -- When `m_quit` is set, the functors run once more without a `Poll`.
  | .testTop, .top => some { s with pc := if s.quit then .pending else .poll }
  | .pollReturn, .poll => some { s with pc := .handling }
  | .handleRead, .handling => some s.handleRead
  | .endHandling, .handling => some { s with pc := .pending }
  | .startPending, .pending =>
      some { s with callingPendingFunctors := true, pc := .swapping }
  -- The swap under `m_mutex`: later pushes go to the next batch.
  | .swap, .swapping =>
      some { s with pendingFunctors := [], pc := .batch s.pendingFunctors }
  | .runNext, .batch (functor :: rest) =>
      some { s with executed := s.executed ++ [functor], pc := .running rest }
  | .functorReturn, .running rest => some { s with pc := .batch rest }
  | .endPending, .batch [] =>
      some { s with callingPendingFunctors := false, pc := .destroying }
  -- The end of `DoPendingFunctors`, where its local vector goes out of scope.
  | .destroyFunctors, .destroying => some { s with pc := .testing }
  | .testBottom, .testing => some { s with pc := if s.quit then .outside else .top }
  | _, _ => none

/-- The loop thread executes user code. -/
def inUserCode : LoopPc F → Bool
  | .outside | .handling | .running _ | .destroying => true
  | _ => false

section Calls

variable [DecidableEq T]

/-- A thread can start a call when it is not inside one; the loop thread must
be in user code. -/
def canCall (s : EventLoop F T) (caller : Caller T) : Bool :=
  s.calls caller == .idle &&
    match caller with
    | .loopThread => inUserCode s.pc
    | .other _ => true

def setCall (s : EventLoop F T) (caller : Caller T) (pc : CallPc) : EventLoop F T :=
  { s with calls := Function.update s.calls caller pc }

/-- The critical section of `QueueInLoop`. -/
def queueInLoop (s : EventLoop F T) (caller : Caller T) (functor : F) : EventLoop F T :=
  { s with
    pendingFunctors := s.pendingFunctors ++ [functor]
    pushed := s.pushed ++ [functor] }.setCall caller .queued

/-- `RunInLoop` runs the functor in place on the loop thread. -/
def runInLoop (s : EventLoop F T) (caller : Caller T) (functor : F) : EventLoop F T :=
  match caller with
  | .loopThread => { s with inlined := s.inlined ++ [functor] }
  | .other _ => s.queueInLoop caller functor

/-- The store of `Quit`. -/
def quitStore (s : EventLoop F T) (caller : Caller T) : EventLoop F T :=
  { s with quit := true }.setCall caller .quitting

/-- Whether the call in progress issues a `Wakeup`. -/
def wakes (s : EventLoop F T) (caller : Caller T) : Bool :=
  match s.calls caller, caller with
  | .idle, _ => false
  -- `if (!IsInLoopThread() || m_calling_pending_functors)`
  | .queued, .loopThread => s.callingPendingFunctors
  | .quitting, .loopThread => false
  | _, .other _ => true

/-- The end of a call. -/
def finishCall (s : EventLoop F T) (caller : Caller T) : EventLoop F T :=
  (if s.wakes caller then s.wakeup else s).setCall caller .idle

/-- One step of the system. -/
def step (s : EventLoop F T) : LoopLabel F T → Option (EventLoop F T)
  | .loop act => if s.calls .loopThread = .idle then s.loopStep act else none
  | .queueInLoop caller functor =>
      if s.canCall caller then some (s.queueInLoop caller functor) else none
  | .runInLoop caller functor =>
      if s.canCall caller then some (s.runInLoop caller functor) else none
  | .quit caller => if s.canCall caller then some (s.quitStore caller) else none
  | .finishCall caller =>
      if s.calls caller = .idle then none else some (s.finishCall caller)

end Calls

/-! ## What a step can do -/

/-- The steps of `Loop()`, one constructor for each. -/
inductive Moves (s : EventLoop F T) : LoopAct → EventLoop F T → Prop
  | enter (hPc : s.pc = .outside) : Moves s .enter { s with pc := .top }
  | testTop (hPc : s.pc = .top) :
      Moves s .testTop { s with pc := if s.quit then .pending else .poll }
  | pollReturn (hPc : s.pc = .poll) : Moves s .pollReturn { s with pc := .handling }
  | handleRead (hPc : s.pc = .handling) : Moves s .handleRead s.handleRead
  | endHandling (hPc : s.pc = .handling) : Moves s .endHandling { s with pc := .pending }
  | startPending (hPc : s.pc = .pending) :
      Moves s .startPending { s with callingPendingFunctors := true, pc := .swapping }
  | swap (hPc : s.pc = .swapping) :
      Moves s .swap { s with pendingFunctors := [], pc := .batch s.pendingFunctors }
  | runNext (functor : F) (rest : List F) (hPc : s.pc = .batch (functor :: rest)) :
      Moves s .runNext
        { s with executed := s.executed ++ [functor], pc := .running rest }
  | functorReturn (rest : List F) (hPc : s.pc = .running rest) :
      Moves s .functorReturn { s with pc := .batch rest }
  | endPending (hPc : s.pc = .batch []) :
      Moves s .endPending { s with callingPendingFunctors := false, pc := .destroying }
  | destroyFunctors (hPc : s.pc = .destroying) :
      Moves s .destroyFunctors { s with pc := .testing }
  | testBottom (hPc : s.pc = .testing) :
      Moves s .testBottom { s with pc := if s.quit then .outside else .top }

theorem moves_of_loopStep {s s' : EventLoop F T} {act : LoopAct}
    (hStep : s.loopStep act = some s') : Moves s act s' := by
  unfold loopStep at hStep
  split at hStep
  case h_1 hPc => obtain rfl := Option.some.inj hStep; exact .enter hPc
  case h_2 hPc => obtain rfl := Option.some.inj hStep; exact .testTop hPc
  case h_3 hPc => obtain rfl := Option.some.inj hStep; exact .pollReturn hPc
  case h_4 hPc => obtain rfl := Option.some.inj hStep; exact .handleRead hPc
  case h_5 hPc => obtain rfl := Option.some.inj hStep; exact .endHandling hPc
  case h_6 hPc => obtain rfl := Option.some.inj hStep; exact .startPending hPc
  case h_7 hPc => obtain rfl := Option.some.inj hStep; exact .swap hPc
  case h_8 functor rest hPc =>
      obtain rfl := Option.some.inj hStep; exact .runNext functor rest hPc
  case h_9 rest hPc => obtain rfl := Option.some.inj hStep; exact .functorReturn rest hPc
  case h_10 hPc => obtain rfl := Option.some.inj hStep; exact .endPending hPc
  case h_11 hPc => obtain rfl := Option.some.inj hStep; exact .destroyFunctors hPc
  case h_12 hPc => obtain rfl := Option.some.inj hStep; exact .testBottom hPc
  case h_13 => cases hStep

end EventLoop
end SolarNet
