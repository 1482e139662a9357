import Mathlib.Data.Finset.Max
import Mathlib.Data.Prod.Lex
import Mathlib.Tactic

/-!
# `TimerQueue`: timers on one timerfd

The data and the functions of `solar_net/net/timer_queue.cpp`.  Times are
integer counts of nanoseconds, intervals are milliseconds as in the source.
`m_active_timers` is a finite set under the lexicographic order of
`std::pair<Time, TimerId>`, and `m_timers` is a partial map.

Three things come from outside and are therefore arguments: each reading of the
clock, the value of `m_timer_fd`, and what a user callback does.  A callback
runs on the loop thread inside `ProcessExpiredTimers` and may call back into
the queue, so one invocation is a *script*, a finite list of queue operations.
`ProcessExpiredTimers` receives one script for each iteration of its loop.

The loop keeps a pointer to the entry across the callback.  Ids are never used
twice, so the pointer is good exactly while the id is still in `m_timers`; when
it is not, the iteration ends in `useAfterFree`.
-/

namespace SolarNet

/-- `Time`: nanoseconds of the system clock. -/
abbrev Time := Int

abbrev TimerId := Int

/-- Nanoseconds in one millisecond. -/
def nanosPerMilli : Int := 1000000

/-- Nanoseconds in one second. -/
def nanosPerSecond : Int := 1000000000

/-- The fields of `it_value` that the code sets. -/
structure TimerSpec where
  tvSec : Int
  tvNsec : Int
  deriving DecidableEq, Repr

/-- The value that `SetTimerFd` computes for `expiration` at the clock reading
`now`.  Zero would disarm the timer, so it is replaced by one nanosecond. -/
def timerSpec (expiration now : Time) : TimerSpec :=
  let delay := if expiration - now < 0 then 0 else expiration - now
  let seconds := delay / nanosPerSecond
  let nanoseconds := delay - seconds * nanosPerSecond
  if seconds = 0 ∧ nanoseconds = 0 then ⟨0, 1⟩ else ⟨seconds, nanoseconds⟩

/-- What the kernel timer was last set to. -/
inductive TimerFd where
  | disarmed
  | armed (expiration : Time) (value : TimerSpec)
  deriving DecidableEq, Repr

/-- `TimerQueue::TimerEntry`; an empty `std::function` is `none`. -/
structure TimerEntry (γ : Type*) where
  id : TimerId
  expiration : Time
  interval : Int
  callback : Option γ
  deriving DecidableEq, Repr

/-- The state of a `TimerQueue`.  `timer` is the kernel object behind
`m_timer_fd`.  The last two fields are history: the ids handed out so far and
the callbacks invoked so far, each with the expiration it was due at. -/
structure TimerQueue (γ : Type*) where
  timerFd : Int
  timer : TimerFd
  timers : TimerId → Option (TimerEntry γ)
  activeTimers : Finset (Time ×ₗ TimerId)
  nextId : TimerId
  issued : List TimerId
  fired : List (Time × TimerId)

/-- A call into the queue, with the clock readings it makes. -/
inductive TimerOp (γ : Type*) where
  | runAt (time : Time) (callback : Option γ) (now : Time)
  | runAfter (delay : Int) (callback : Option γ) (start now : Time)
  | runEvery (interval : Int) (callback : Option γ) (start now : Time)
  | cancel (id : TimerId) (now : Time)
  deriving DecidableEq, Repr

namespace TimerQueue

variable {γ : Type*}

/-- The constructor; `fd` is what `timerfd_create` returned. -/
def new (fd : Int) : TimerQueue γ where
  timerFd := fd
  timer := .disarmed
  timers := fun _ => none
  activeTimers := ∅
  nextId := 1
  issued := []
  fired := []

/-- `m_active_timers.begin()`. -/
def earliest (q : TimerQueue γ) : Option (Time ×ₗ TimerId) :=
  q.activeTimers.min

/-- `SetTimerFd` on the queue's descriptor. -/
def resetTimerFd (q : TimerQueue γ) (expiration now : Time) : TimerQueue γ :=
  if q.timerFd < 0 then q
  else { q with timer := .armed expiration (timerSpec expiration now) }

/-- The zero `itimerspec` that the code passes when no timer is left. -/
def disarm (q : TimerQueue γ) : TimerQueue γ :=
  if 0 ≤ q.timerFd then { q with timer := .disarmed } else q

/-- The tail shared by `Cancel` and `ProcessExpiredTimers`. -/
def rearm (q : TimerQueue γ) (now : Time) : TimerQueue γ :=
  match q.earliest with
  | some head => q.resetTimerFd (ofLex head).1 now
  | none => q.disarm

def generateNextId (q : TimerQueue γ) : TimerQueue γ × TimerId :=
  ({ q with nextId := q.nextId + 1, issued := q.issued ++ [q.nextId] }, q.nextId)

/-- The body shared by `RunAt` and `RunEvery`. -/
def addTimer (q : TimerQueue γ) (expiration : Time) (interval : Int)
    (callback : Option γ) (now : Time) : TimerQueue γ × TimerId :=
  let (q, id) := q.generateNextId
  let entry : TimerEntry γ := ⟨id, expiration, interval, callback⟩
  let q := { q with
    activeTimers := insert (toLex (expiration, id)) q.activeTimers
    timers := Function.update q.timers id (some entry) }
  match q.earliest with
  | some head => (q.resetTimerFd (ofLex head).1 now, id)
  | none => (q, id)

def runAt (q : TimerQueue γ) (time : Time) (callback : Option γ) (now : Time) :
    TimerQueue γ × TimerId :=
  q.addTimer time 0 callback now

def runAfter (q : TimerQueue γ) (delay : Int) (callback : Option γ)
    (start now : Time) : TimerQueue γ × TimerId :=
  q.runAt (start + delay * nanosPerMilli) callback now

def runEvery (q : TimerQueue γ) (interval : Int) (callback : Option γ)
    (start now : Time) : TimerQueue γ × TimerId :=
  q.addTimer (start + interval * nanosPerMilli) interval callback now

/-- Remove an id from `m_timers`. -/
def eraseTimer (q : TimerQueue γ) (id : TimerId) : TimerQueue γ :=
  { q with timers := Function.update q.timers id none }

def cancel (q : TimerQueue γ) (id : TimerId) (now : Time) : TimerQueue γ × Bool :=
  match q.timers id with
  | none => (q, false)
  | some entry =>
      let q := { q with
        activeTimers := q.activeTimers.erase (toLex (entry.expiration, id)) }
      ((q.eraseTimer id).rearm now, true)

/-- Perform one call. -/
def apply (q : TimerQueue γ) : TimerOp γ → TimerQueue γ
  | .runAt time callback now => (q.runAt time callback now).1
  | .runAfter delay callback start now => (q.runAfter delay callback start now).1
  | .runEvery interval callback start now => (q.runEvery interval callback start now).1
  | .cancel id now => (q.cancel id now).1

/-- Perform the calls that one callback invocation makes. -/
def runScript (q : TimerQueue γ) (script : List (TimerOp γ)) : TimerQueue γ :=
  script.foldl apply q

/-! ## The expiry pass -/

/-- How one iteration of the `while` loop ends. -/
inductive Iteration (γ : Type*) where
  /-- The loop condition fails, or the earliest timer is not due. -/
  | leave
  | next (q : TimerQueue γ)
  /-- The entry was freed by its own callback and is read afterwards. -/
  | useAfterFree (id : TimerId)

/-- `if (entry->callback) entry->callback();` -/
def invoke (q : TimerQueue γ) (entry : TimerEntry γ) (id : TimerId)
    (script : List (TimerOp γ)) : TimerQueue γ :=
  match entry.callback with
  | some _ => { q with fired := q.fired ++ [(entry.expiration, id)] }.runScript script
  | none => q

/-- Put a periodic timer back one interval later. -/
def reschedule (q : TimerQueue γ) (id : TimerId) (entry : TimerEntry γ) :
    TimerQueue γ :=
  let expiration := entry.expiration + entry.interval * nanosPerMilli
  { q with
    timers := Function.update q.timers id (some { entry with expiration := expiration })
    activeTimers := insert (toLex (expiration, id)) q.activeTimers }

/-- What happens to the entry after its callback. -/
def settle (q : TimerQueue γ) (id : TimerId) : Iteration γ :=
  match q.timers id with
  | none => .useAfterFree id
  | some entry =>
      if 0 < entry.interval then .next (q.reschedule id entry)
      else .next (q.eraseTimer id)

/-- One iteration of the loop of `ProcessExpiredTimers`. -/
def expireOnce (now : Time) (script : List (TimerOp γ)) (q : TimerQueue γ) :
    Iteration γ :=
  match q.earliest with
  | none => .leave
  | some head =>
      if (ofLex head).1 > now then .leave
      else
        let id := (ofLex head).2
        let q := { q with activeTimers := q.activeTimers.erase head }
        match q.timers id with
        | none => .next q
        | some entry => (q.invoke entry id script).settle id

/-- How a pass ends.  It is unfinished when the loop asks for more iterations
than there are scripts. -/
inductive Pass (γ : Type*) where
  | done (q : TimerQueue γ)
  | useAfterFree (id : TimerId)
  | unfinished

/-- The `while` loop, one script for each iteration. -/
def expireLoop (now : Time) : List (List (TimerOp γ)) → TimerQueue γ → Pass γ
  | [], q =>
      match expireOnce now [] q with
      | .leave => .done q
      | _ => .unfinished
  | script :: scripts, q =>
      match expireOnce now script q with
      | .leave => .done q
      | .next q' => expireLoop now scripts q'
      | .useAfterFree id => .useAfterFree id

/-- `ProcessExpiredTimers(now)`; `finish` is the clock reading of the final
`ResetTimerFd`. -/
def processExpiredTimers (now finish : Time) (scripts : List (List (TimerOp γ)))
    (q : TimerQueue γ) : Pass γ :=
  match expireLoop now scripts q with
  | .done q' => .done (q'.rearm finish)
  | .useAfterFree id => .useAfterFree id
  | .unfinished => .unfinished

/-! ## Runs -/

/-- A top-level event: a call from outside a pass, or a pass. -/
inductive Action (γ : Type*) where
  | call (op : TimerOp γ)
  | process (now finish : Time) (scripts : List (List (TimerOp γ)))

/-- One top-level step; a pass that does not complete has no next state. -/
def step (q : TimerQueue γ) : Action γ → Option (TimerQueue γ)
  | .call op => some (q.apply op)
  | .process now finish scripts =>
      match processExpiredTimers now finish scripts q with
      | .done q' => some q'
      | _ => none

end TimerQueue
end SolarNet
