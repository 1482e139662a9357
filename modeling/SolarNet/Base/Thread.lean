import SolarNet.Base.Buffer
import SolarNet.Lib.Run

/-!
# `Thread`

`solar_net/base/thread.cpp`: a `std::thread` with a name, and a destructor that joins it.
The header wants `Start`, `Join`, `Detach` and the destructor to be called one after the
other.  They may be called by the owner of the object, or by `m_func` on the new thread.
The new thread runs at the same time, and uses the object: it reads `m_name`, tests
`m_func` and calls it.

`m_joined` and `m_detached` say that `Join` and `Detach` were called, and not that they did
something.  A call that comes before `Start`, or a `Join` on the thread itself, uses its
flag up.  Then the destructor does not join, and `std::thread` terminates the program.
-/

namespace SolarNet

open Lib

namespace Thread

/-- Who calls: the owner of the object, or `m_func` on the thread of the object. -/
inductive Caller where
  | owner
  | self
  deriving DecidableEq, Repr

/-- A call on the object.  `made` says whether the operating system makes the thread; if not,
the constructor of `std::thread` throws. -/
inductive Call where
  | start (made : Bool)
  | join
  | detach
  deriving DecidableEq, Repr

@[simp] def Call.isStart : Call → Bool
  | .start _ => true
  | .join | .detach => false

@[simp] def Call.isJoin : Call → Bool
  | .join => true
  | .start _ | .detach => false

@[simp] def Call.isDetach : Call → Bool
  | .detach => true
  | .start _ | .join => false

/-- Where the owner of the object is. -/
inductive OwnerPc where
  | idle
  -- In `m_thread.join()`, called by `Join`.
  | joining
  -- In `m_thread.join()`, called by the destructor through `Join`.
  | destroying
  | gone
  deriving DecidableEq, Repr

/-- Where the new thread is in the lambda of `Start`. -/
inductive BodyPc where
  | absent
  | naming
  | calling
  | running
  | finished
  deriving DecidableEq, Repr

/-- The lambda has the pointer `this`, and what runs is a member of the object. -/
def BodyPc.usesObject : BodyPc → Bool
  | .naming | .calling | .running => true
  | .absent | .finished => false

def BodyPc.pastCall : BodyPc → Bool
  | .running | .finished => true
  | .absent | .naming | .calling => false

inductive Fault where
  | terminate
  | deadObject
  deriving DecidableEq, Repr

def kMaxThreadNameLength : Nat := 15

def truncateThreadName (name : List Byte) : List Byte :=
  if name = [] then []
  else if name.length > kMaxThreadNameLength then name.take kMaxThreadNameLength
  else name

/-- What a C function reads from `c_str()`: it stops at the first NUL. -/
def cStr (name : List Byte) : List Byte := name.takeWhile (· != 0)

/-- `SetCurrentThreadName` on a thread that is called `current`. -/
def setCurrentThreadName (name : List Byte) (current : Option (List Byte)) :
    Option (List Byte) :=
  if truncateThreadName name = [] then current else some (cStr (truncateThreadName name))

/-- What the new thread is called when it calls `m_func`; without a name of its own it keeps
the one that the operating system gave it. -/
def runsAs (name : List Byte) : Option (List Byte) :=
  if name = [] then none else some (cStr (name.take kMaxThreadNameLength))

/-- How a call of `Join` ends: it returns, it waits in `m_thread.join()`, or that throws
because it would wait for itself. -/
inductive JoinResult where
  | returned
  | waits
  | threw
  deriving DecidableEq, Repr

end Thread

structure Thread where
  /-- `m_func` has a target. -/
  func : Bool
  name : List Byte
  started : Bool
  joined : Bool
  detached : Bool
  /-- `m_thread.joinable()`. -/
  joinable : Bool
  owner : Thread.OwnerPc
  body : Thread.BodyPc
  /-- The name of the new thread, once it has set one. -/
  threadName : Option (List Byte)
  launches : Nat
  invocations : Nat
  fault : Option Thread.Fault
  /-- The calls of `Start`, `Join` and `Detach`, the last one first. -/
  calls : List (Thread.Caller × Thread.Call)

namespace Thread

def new (func : Bool) (name : List Byte) : Thread where
  func := func
  name := name
  started := false
  joined := false
  detached := false
  joinable := false
  owner := .idle
  body := .absent
  threadName := none
  launches := 0
  invocations := 0
  fault := none
  calls := []

def start (s : Thread) (made : Bool) : Thread :=
  if s.started then s
  else if made then
    { s with started := true, joinable := true, body := .naming, launches := s.launches + 1 }
  else { s with started := true }

def join (s : Thread) (caller : Caller) : Thread × JoinResult :=
  if s.joined then (s, .returned)
  else if s.joinable then
    -- A thread that joins itself would never return; `std::thread` finds out.
    match caller with
    | .owner => ({ s with joined := true }, .waits)
    | .self => ({ s with joined := true }, .threw)
  else ({ s with joined := true }, .returned)

def detach (s : Thread) : Thread :=
  if s.detached then s
  else if s.joinable then { s with detached := true, joinable := false }
  else { s with detached := true }

/-- The destructor of the member `m_thread`. -/
def destroyMembers (s : Thread) : Thread :=
  if s.joinable then { s with fault := some .terminate } else { s with owner := .gone }

def destroy (s : Thread) (caller : Caller) : Thread :=
  if s.started && !s.joined && !s.detached then
    match s.join caller with
    | (s, .returned) => s.destroyMembers
    | (s, .waits) => { s with owner := .destroying }
    -- No exception leaves a destructor.
    | (s, .threw) => { s with fault := some .terminate }
  else s.destroyMembers

/-- `Start`, `Join` or `Detach`.  What the caller does with an exception is its own affair. -/
def perform (s : Thread) (caller : Caller) : Call → Thread
  | .start made => s.start made
  | .join =>
      match s.join caller with
      | (s, .waits) => { s with owner := .joining }
      | (s, _) => s
  | .detach => s.detach

/-- The lambda of `Start`, up to the call of `m_func`. -/
def runBody (s : Thread) : Option Thread :=
  match s.body with
  | .naming =>
      if s.owner = .gone then some { s with fault := some .deadObject }
      else
        let threadName := truncateThreadName s.name
        some { s with
          body := .calling
          threadName :=
            if threadName = [] then s.threadName
            else setCurrentThreadName threadName s.threadName }
  | .calling =>
      if s.owner = .gone then some { s with fault := some .deadObject }
      else if s.func then
        some { s with body := .running, invocations := s.invocations + 1 }
      else some { s with body := .finished }
  | _ => none

inductive Label where
  | call (caller : Caller) (call : Call)
  | destroy (caller : Caller)
  | joinReturns
  | runBody
  /-- `m_func` returns, or an exception leaves it. -/
  | finish (throws : Bool)
  deriving DecidableEq, Repr

/-- The calls come one after the other, and `m_func` calls only while it runs. -/
def mayCall (s : Thread) : Caller → Bool
  | .owner => s.owner == .idle
  | .self => s.owner == .idle && s.body == .running

def step (s : Thread) (label : Label) : Option Thread :=
  if s.fault.isSome then none
  else
    match label with
    | .call caller call =>
        if s.mayCall caller then
          some { s.perform caller call with calls := (caller, call) :: s.calls }
        else none
    | .destroy caller => if s.mayCall caller then some (s.destroy caller) else none
    | .joinReturns =>
        if s.body = .finished then
          match s.owner with
          | .joining => some { s with joinable := false, owner := .idle }
          | .destroying => some { s with joinable := false }.destroyMembers
          | _ => none
        else none
    | .runBody => s.runBody
    | .finish throws =>
        if s.body = .running then
          if throws then some { s with fault := some .terminate }
          else some { s with body := .finished }
        else none

/-! ## What the calls were -/

def wasCalled (kind : Call → Bool) (calls : List (Caller × Call)) : Bool :=
  calls.any fun entry => kind entry.2

/-- Some call was of this kind at the moment it was made, after these older calls. -/
def occurred (kind : Caller × Call → List (Caller × Call) → Bool) :
    List (Caller × Call) → Bool
  | [] => false
  | entry :: older => kind entry older || occurred kind older

/-- The first `Start` got a thread from the operating system. -/
def launched : List (Caller × Call) → Bool :=
  occurred fun entry older => decide (entry.2 = .start true) && !wasCalled Call.isStart older

/-- The first `Join` was called by the owner, and after `Start`. -/
def joinTakes : List (Caller × Call) → Bool :=
  occurred fun entry older =>
    decide (entry.1 = .owner) && entry.2.isJoin && !wasCalled Call.isJoin older &&
      wasCalled Call.isStart older

/-- The first `Detach` was called after `Start`. -/
def detachTakes : List (Caller × Call) → Bool :=
  occurred fun entry older =>
    entry.2.isDetach && !wasCalled Call.isDetach older && wasCalled Call.isStart older

@[simp] theorem wasCalled_cons (kind : Call → Bool) (entry : Caller × Call)
    (older : List (Caller × Call)) :
    wasCalled kind (entry :: older) = (kind entry.2 || wasCalled kind older) := rfl

@[simp] theorem launched_cons (entry : Caller × Call) (older : List (Caller × Call)) :
    launched (entry :: older) =
      ((decide (entry.2 = .start true) && !wasCalled Call.isStart older) || launched older) := rfl

@[simp] theorem joinTakes_cons (entry : Caller × Call) (older : List (Caller × Call)) :
    joinTakes (entry :: older) =
      ((decide (entry.1 = .owner) && entry.2.isJoin && !wasCalled Call.isJoin older &&
        wasCalled Call.isStart older) || joinTakes older) := rfl

@[simp] theorem detachTakes_cons (entry : Caller × Call) (older : List (Caller × Call)) :
    detachTakes (entry :: older) =
      ((entry.2.isDetach && !wasCalled Call.isDetach older &&
        wasCalled Call.isStart older) || detachTakes older) := rfl

/-- What is recognized by a call of this kind was called. -/
theorem wasCalled_of_occurred {kind : Caller × Call → List (Caller × Call) → Bool}
    {p : Call → Bool} (hKind : ∀ entry older, kind entry older = true →
      p entry.2 = true ∨ wasCalled p older = true) {calls : List (Caller × Call)}
    (hOccurred : occurred kind calls = true) : wasCalled p calls = true := by
  induction calls with
  | nil => cases hOccurred
  | cons entry older ih =>
      rw [wasCalled_cons, Bool.or_eq_true]
      rcases (Bool.or_eq_true _ _).mp hOccurred with hHere | hBefore
      · exact hKind entry older hHere
      · exact Or.inr (ih hBefore)

theorem wasCalled_of_launched {calls : List (Caller × Call)} (hLaunched : launched calls = true) :
    wasCalled Call.isStart calls = true := by
  refine wasCalled_of_occurred (fun entry older hHere => Or.inl ?_) hLaunched
  simp only [Bool.and_eq_true, decide_eq_true_eq] at hHere
  rw [hHere.1, Call.isStart]

theorem wasCalled_of_joinTakes {calls : List (Caller × Call)} (hTakes : joinTakes calls = true) :
    wasCalled Call.isJoin calls = true ∧ wasCalled Call.isStart calls = true := by
  constructor
  · refine wasCalled_of_occurred (fun entry older hHere => Or.inl ?_) hTakes
    simp only [Bool.and_eq_true] at hHere
    exact hHere.1.1.2
  · refine wasCalled_of_occurred (fun entry older hHere => Or.inr ?_) hTakes
    simp only [Bool.and_eq_true] at hHere
    exact hHere.2

theorem wasCalled_of_detachTakes {calls : List (Caller × Call)}
    (hTakes : detachTakes calls = true) : wasCalled Call.isStart calls = true := by
  refine wasCalled_of_occurred (fun entry older hHere => Or.inr ?_) hTakes
  simp only [Bool.and_eq_true] at hHere
  exact hHere.2

/-! ## What the calls do -/

theorem start_eq (s : Thread) (made : Bool) :
    s.start made =
      if s.started = false ∧ made = true then
        { s with started := true, joinable := true, body := .naming, launches := s.launches + 1 }
      else { s with started := true } := by
  obtain ⟨func, name, started⟩ := s
  cases started <;> cases made <;> rfl

theorem perform_join (s : Thread) (caller : Caller) :
    s.perform caller .join =
      { s with
        joined := true
        owner := if s.joined = false ∧ s.joinable = true ∧ caller = .owner then .joining
          else s.owner } := by
  obtain ⟨func, name, started, joined, detached, joinable⟩ := s
  cases joined <;> cases joinable <;> cases caller <;> rfl

theorem detach_eq (s : Thread) :
    s.detach = { s with detached := true, joinable := s.joinable && s.detached } := by
  obtain ⟨func, name, started, joined, detached, joinable⟩ := s
  cases detached <;> cases joinable <;> rfl

/-- The destructor joins in one case only. -/
def joinsInDestructor (s : Thread) (caller : Caller) : Bool :=
  s.started && !s.joined && !s.detached && caller == .owner

/-- The destructor ends at once when there is nothing to join.  Else it waits in the one
case, and terminates the program in all others. -/
theorem destroy_cases (s : Thread) (caller : Caller) :
    ∃ joined, s.destroy caller =
      if s.joinable = false then { s with joined := joined, owner := .gone }
      else if s.joinsInDestructor caller = true then
        { s with joined := joined, owner := .destroying }
      else { s with joined := joined, fault := some .terminate } := by
  obtain ⟨func, name, started, joined, detached, joinable⟩ := s
  refine ⟨joined || (started && !detached), ?_⟩
  cases joinable <;> cases started <;> cases joined <;> cases detached <;> cases caller <;> rfl

/-- The steps of a run, with what must hold for them. -/
inductive Move (s : Thread) : Label → Thread → Prop where
  | call {caller : Caller} {call : Call} (hIdle : s.owner = .idle) :
      Move s (.call caller call)
        { s.perform caller call with calls := (caller, call) :: s.calls }
  | destroy {caller : Caller} (hIdle : s.owner = .idle) :
      Move s (.destroy caller) (s.destroy caller)
  | joined (hBody : s.body = .finished) (hJoining : s.owner = .joining) :
      Move s .joinReturns { s with joinable := false, owner := .idle }
  | destroyed (hBody : s.body = .finished) :
      Move s .joinReturns { s with joinable := false, owner := .gone }
  | touch (hGone : s.owner = .gone) (hUses : s.body.usesObject = true) :
      Move s .runBody { s with fault := some .deadObject }
  | name (hBody : s.body = .naming) :
      Move s .runBody
        { s with
          body := .calling
          threadName :=
            if truncateThreadName s.name = [] then s.threadName
            else setCurrentThreadName (truncateThreadName s.name) s.threadName }
  | invoke (hBody : s.body = .calling) (hFunc : s.func = true) :
      Move s .runBody { s with body := .running, invocations := s.invocations + 1 }
  | skip (hBody : s.body = .calling) (hFunc : s.func = false) :
      Move s .runBody { s with body := .finished }
  | throws : Move s (.finish true) { s with fault := some .terminate }
  | returns (hBody : s.body = .running) : Move s (.finish false) { s with body := .finished }

theorem owner_of_mayCall {s : Thread} {caller : Caller} (hMay : s.mayCall caller = true) :
    s.owner = .idle := by
  cases caller with
  | owner => simpa [mayCall] using hMay
  | self =>
      simp only [mayCall, Bool.and_eq_true, beq_iff_eq] at hMay
      exact hMay.1

theorem runBody_move {s s' : Thread} (hRun : s.runBody = some s') : Move s .runBody s' := by
  unfold runBody at hRun
  split at hRun
  · next hBody =>
    split at hRun
    · next hGone =>
      obtain rfl := Option.some.inj hRun
      exact .touch hGone (by simp [hBody, BodyPc.usesObject])
    · obtain rfl := Option.some.inj hRun
      exact .name hBody
  · next hBody =>
    split at hRun
    · next hGone =>
      obtain rfl := Option.some.inj hRun
      exact .touch hGone (by simp [hBody, BodyPc.usesObject])
    · split at hRun
      · next hFunc =>
        obtain rfl := Option.some.inj hRun
        exact .invoke hBody hFunc
      · next hFunc =>
        obtain rfl := Option.some.inj hRun
        exact .skip hBody (Bool.eq_false_of_not_eq_true hFunc)
  · cases hRun

theorem step_move {s s' : Thread} {label : Label} (hStep : s.step label = some s') :
    s.fault = none ∧ Move s label s' := by
  unfold step at hStep
  split at hStep
  · cases hStep
  next hNoFault =>
  refine ⟨by simpa using hNoFault, ?_⟩
  cases label with
  | call caller call =>
      obtain ⟨hMay, hSome⟩ := Option.ite_none_right_eq_some.mp hStep
      obtain rfl := Option.some.inj hSome
      exact .call (owner_of_mayCall hMay)
  | destroy caller =>
      obtain ⟨hMay, hSome⟩ := Option.ite_none_right_eq_some.mp hStep
      obtain rfl := Option.some.inj hSome
      exact .destroy (owner_of_mayCall hMay)
  | joinReturns =>
      obtain ⟨hBody, hOwner⟩ := Option.ite_none_right_eq_some.mp hStep
      split at hOwner
      · next hJoining =>
        obtain rfl := Option.some.inj hOwner
        exact .joined hBody hJoining
      · obtain rfl := Option.some.inj hOwner
        exact .destroyed hBody
      · cases hOwner
  | runBody => exact runBody_move hStep
  | finish throws =>
      obtain ⟨hBody, hSome⟩ := Option.ite_none_right_eq_some.mp hStep
      cases throws with
      | true =>
          obtain rfl := Option.some.inj hSome
          exact .throws
      | false =>
          obtain rfl := Option.some.inj hSome
          exact .returns hBody

/-! ## The new thread -/

/-- The new thread is made once, gets its name once and calls `m_func` once. -/
structure Regular (s : Thread) : Prop where
  started : s.body ≠ .absent → s.started = true
  launches : s.launches = if s.body = .absent then 0 else 1
  invocations : s.invocations = if s.func && s.body.pastCall then 1 else 0
  unnamed : s.body = .absent ∨ s.body = .naming → s.threadName = none
  named : s.body ≠ .absent → s.body ≠ .naming →
    s.threadName = runsAs s.name

theorem new_regular (func : Bool) (name : List Byte) : Regular (new func name) where
  started hBody := absurd rfl hBody
  launches := rfl
  invocations := by simp [new, BodyPc.pastCall]
  unnamed _ := rfl
  named hBody := absurd rfl hBody

/-- What the new thread depends on. -/
theorem Regular.of_eq {s s' : Thread} (hRegular : Regular s)
    (hStarted : s.started = true → s'.started = true) (hFunc : s'.func = s.func)
    (hName : s'.name = s.name) (hBody : s'.body = s.body)
    (hThreadName : s'.threadName = s.threadName) (hLaunches : s'.launches = s.launches)
    (hInvocations : s'.invocations = s.invocations) : Regular s' where
  started hPresent := hStarted (hRegular.started (hBody ▸ hPresent))
  launches := by rw [hLaunches, hBody, hRegular.launches]
  invocations := by rw [hInvocations, hFunc, hBody, hRegular.invocations]
  unnamed hEarly := by rw [hThreadName, hRegular.unnamed (hBody ▸ hEarly)]
  named hPresent hPast := by
    rw [hThreadName, hName, hRegular.named (hBody ▸ hPresent) (hBody ▸ hPast)]

theorem truncateThreadName_eq (name : List Byte) :
    truncateThreadName name = name.take kMaxThreadNameLength := by
  unfold truncateThreadName
  split
  · next hEmpty => rw [hEmpty, List.take_nil]
  · split
    · rfl
    · next hShort => rw [List.take_of_length_le (not_lt.mp hShort)]

/-- The name that the lambda of `Start` sets; it is truncated twice. -/
theorem setCurrentThreadName_truncated (name : List Byte) (current : Option (List Byte)) :
    (if truncateThreadName name = [] then current
      else setCurrentThreadName (truncateThreadName name) current) =
      if name = [] then current else some (cStr (name.take kMaxThreadNameLength)) := by
  have hTwice : truncateThreadName (truncateThreadName name) = truncateThreadName name := by
    simp only [truncateThreadName_eq, List.take_take, min_self]
  have hEmpty : truncateThreadName name = [] ↔ name = [] := by
    rw [truncateThreadName_eq, List.take_eq_nil_iff]
    simp [kMaxThreadNameLength]
  unfold setCurrentThreadName
  rw [hTwice]
  by_cases hName : name = []
  · rw [if_pos (hEmpty.mpr hName), if_pos hName]
  · rw [if_neg (hEmpty.not.mpr hName), if_neg (hEmpty.not.mpr hName), if_neg hName,
      truncateThreadName_eq]

theorem Regular.perform {s : Thread} (hRegular : Regular s) (caller : Caller) (call : Call) :
    Regular (s.perform caller call) := by
  cases call with
  | start made =>
      simp only [Thread.perform, start_eq]
      split
      · next hFirst =>
        have hAbsent : s.body = .absent := by
          by_contra hPresent
          rw [hRegular.started hPresent] at hFirst
          cases hFirst.1
        refine ⟨fun _ => rfl, ?_, ?_, fun _ => ?_, fun _ hPast => absurd rfl hPast⟩
        · simp [hRegular.launches, hAbsent]
        · simp [hRegular.invocations, hAbsent, BodyPc.pastCall]
        · exact hRegular.unnamed (Or.inl hAbsent)
      · exact hRegular.of_eq (fun _ => rfl) rfl rfl rfl rfl rfl rfl
  | join =>
      rw [perform_join]
      exact hRegular.of_eq id rfl rfl rfl rfl rfl rfl
  | detach =>
      simp only [Thread.perform, detach_eq]
      exact hRegular.of_eq id rfl rfl rfl rfl rfl rfl

theorem Regular.destroy {s : Thread} (hRegular : Regular s) (caller : Caller) :
    Regular (s.destroy caller) := by
  obtain ⟨joined, hDestroy⟩ := destroy_cases s caller
  rw [hDestroy]
  split
  · exact hRegular.of_eq id rfl rfl rfl rfl rfl rfl
  · split <;> exact hRegular.of_eq id rfl rfl rfl rfl rfl rfl

theorem Regular.move {s s' : Thread} {label : Label} (hRegular : Regular s)
    (hMove : Move s label s') : Regular s' := by
  cases hMove with
  | call hIdle => exact (hRegular.perform _ _).of_eq id rfl rfl rfl rfl rfl rfl
  | destroy hIdle => exact hRegular.destroy _
  | joined | destroyed | touch | throws => exact hRegular.of_eq id rfl rfl rfl rfl rfl rfl
  | name hBody =>
      refine ⟨fun _ => hRegular.started (by simp [hBody]), ?_, ?_, nofun, fun _ _ => ?_⟩
      · simp [hRegular.launches, hBody]
      · simp [hRegular.invocations, hBody, BodyPc.pastCall]
      · rw [setCurrentThreadName_truncated, hRegular.unnamed (Or.inr hBody), runsAs]
  | invoke hBody hFunc =>
      have hNamed := hRegular.named (by simp [hBody]) (by simp [hBody])
      refine ⟨fun _ => hRegular.started (by simp [hBody]), ?_, ?_, nofun, fun _ _ => hNamed⟩
      · simp [hRegular.launches, hBody]
      · simp [hRegular.invocations, hBody, hFunc, BodyPc.pastCall]
  | skip hBody hFunc =>
      have hNamed := hRegular.named (by simp [hBody]) (by simp [hBody])
      refine ⟨fun _ => hRegular.started (by simp [hBody]), ?_, ?_, nofun, fun _ _ => hNamed⟩
      · simp [hRegular.launches, hBody]
      · simp [hRegular.invocations, hFunc]
  | returns hBody =>
      have hNamed := hRegular.named (by simp [hBody]) (by simp [hBody])
      refine ⟨fun _ => hRegular.started (by simp [hBody]), ?_, ?_, nofun, fun _ _ => hNamed⟩
      · simp [hRegular.launches, hBody]
      · simp [hRegular.invocations, hBody, BodyPc.pastCall]

/-! ## Who holds the new thread -/

/-- The owner of the object has the new thread until a `Join` or a `Detach` takes it. -/
structure Custody (s : Thread) : Prop where
  started : s.started = wasCalled Call.isStart s.calls
  joined : s.fault = none → s.owner = .idle ∨ s.owner = .joining →
    s.joined = wasCalled Call.isJoin s.calls
  detached : s.detached = wasCalled Call.isDetach s.calls
  present : s.body ≠ .absent ↔ launched s.calls = true
  held : s.owner ≠ .gone → (s.joinable = true ↔ launched s.calls = true ∧
    detachTakes s.calls = false ∧ (joinTakes s.calls = true → s.owner = .joining))
  waits : s.owner = .joining → joinTakes s.calls = true
  blocked : s.owner = .joining ∨ s.owner = .destroying → s.joinable = true
  released : s.owner = .gone → s.joinable = false
  ended : launched s.calls = true → s.joinable = false →
    s.body = .finished ∨ detachTakes s.calls = true

theorem new_custody (func : Bool) (name : List Byte) : Custody (new func name) where
  started := rfl
  joined _ _ := rfl
  detached := rfl
  present := ⟨fun hBody => absurd rfl hBody, nofun⟩
  held _ := ⟨nofun, fun hHeld => by cases hHeld.1⟩
  waits := nofun
  blocked hBlocked := by cases hBlocked <;> contradiction
  released := nofun
  ended := nofun

theorem Custody.start {s : Thread} (hCustody : Custody s) (hIdle : s.owner = .idle)
    (caller : Caller) (made : Bool) :
    Custody { s.start made with calls := (caller, .start made) :: s.calls } := by
  rw [start_eq]
  split
  · next hFirst =>
    obtain ⟨hUnstarted, rfl⟩ := hFirst
    have hNone : wasCalled Call.isStart s.calls = false := hCustody.started ▸ hUnstarted
    -- Nothing was there for a `Join` or a `Detach` to take.
    have hJoin : joinTakes s.calls = false := by
      by_contra hTakes
      simp [(wasCalled_of_joinTakes (Bool.eq_true_of_not_eq_false hTakes)).2] at hNone
    have hDetach : detachTakes s.calls = false := by
      by_contra hTakes
      simp [wasCalled_of_detachTakes (Bool.eq_true_of_not_eq_false hTakes)] at hNone
    exact
      { started := by simp
        joined := by simpa using hCustody.joined
        detached := by simpa using hCustody.detached
        present := by simp [hNone]
        held := fun _ => by simp [hNone, hJoin, hDetach]
        waits := by simp [hIdle]
        blocked := fun _ => rfl
        released := by simp [hIdle]
        ended := nofun }
  · next hLater =>
    have hSame : launched ((caller, .start made) :: s.calls) = launched s.calls := by
      cases hStarted : s.started with
      | true => simp [← hCustody.started, hStarted]
      | false =>
          have hFailed : made = false := by simpa [hStarted] using hLater
          simp [hFailed]
    have hDetach : detachTakes ((caller, .start made) :: s.calls) = detachTakes s.calls := by
      simp
    have hJoin : joinTakes ((caller, .start made) :: s.calls) = joinTakes s.calls := by simp
    exact
      { started := by simp
        joined := by simpa using hCustody.joined
        detached := by simpa using hCustody.detached
        present := by
          rw [hSame]
          exact hCustody.present
        held := by
          rw [hSame, hDetach, hJoin]
          exact hCustody.held
        waits := by simp [hIdle]
        blocked := by simp [hIdle]
        released := by simp [hIdle]
        ended := by
          rw [hSame, hDetach]
          exact hCustody.ended }

theorem Custody.detach {s : Thread} (hCustody : Custody s) (hIdle : s.owner = .idle)
    (caller : Caller) :
    Custody { s.detach with calls := (caller, .detach) :: s.calls } := by
  rw [detach_eq]
  have hSame : launched ((caller, .detach) :: s.calls) = launched s.calls := by simp
  have hJoin : joinTakes ((caller, .detach) :: s.calls) = joinTakes s.calls := by simp
  have hDetach : detachTakes ((caller, .detach) :: s.calls) =
      (!s.detached && s.started || detachTakes s.calls) := by
    simp [← hCustody.detached, ← hCustody.started]
  have hHeld := hCustody.held (by simp [hIdle])
  have hOn : launched s.calls = true → s.started = true := fun hLaunched =>
    hCustody.started.trans (wasCalled_of_launched hLaunched)
  refine
    { started := by simpa using hCustody.started
      joined := by simpa using hCustody.joined
      detached := by simp
      present := by
        rw [hSame]
        exact hCustody.present
      held := fun _ => ?_
      waits := by simp [hIdle]
      blocked := by simp [hIdle]
      released := by simp [hIdle]
      ended := ?_ }
  · rw [hSame, hJoin, hDetach]
    cases hDetached : s.detached with
    | true => simpa [hDetached] using hHeld
    | false =>
        constructor
        · intro hNever
          simp at hNever
        · rintro ⟨hLaunched, hTakes, -⟩
          simp [hOn hLaunched] at hTakes
  · rw [hSame, hDetach]
    intro hLaunched hGone
    cases hDetached : s.detached with
    | true =>
        rw [hDetached, Bool.and_true] at hGone
        simpa using hCustody.ended hLaunched hGone
    | false => simp [hOn hLaunched]

theorem Custody.join {s : Thread} (hCustody : Custody s) (hFault : s.fault = none)
    (hIdle : s.owner = .idle) (caller : Caller) :
    Custody { s.perform caller .join with calls := (caller, .join) :: s.calls } := by
  rw [perform_join]
  have hSame : launched ((caller, .join) :: s.calls) = launched s.calls := by simp
  have hDetach : detachTakes ((caller, .join) :: s.calls) = detachTakes s.calls := by simp
  have hJoined := hCustody.joined hFault (Or.inl hIdle)
  have hJoin : joinTakes ((caller, .join) :: s.calls) =
      (decide (caller = .owner) && !s.joined && s.started || joinTakes s.calls) := by
    simp [← hJoined, ← hCustody.started]
  have hHeld := hCustody.held (by simp [hIdle])
  have hEnded : launched ((caller, .join) :: s.calls) = true → s.joinable = false →
      s.body = .finished ∨ detachTakes ((caller, .join) :: s.calls) = true := by
    rw [hSame, hDetach]
    exact hCustody.ended
  by_cases hWaits : s.joined = false ∧ s.joinable = true ∧ caller = .owner
  · obtain ⟨hFirst, hJoinable, rfl⟩ := hWaits
    obtain ⟨hLaunched, hKept, -⟩ := hHeld.mp hJoinable
    have hOn : s.started = true := hCustody.started.trans (wasCalled_of_launched hLaunched)
    exact
      { started := by simpa using hCustody.started
        joined := by simp
        detached := by simpa using hCustody.detached
        present := by simpa using hCustody.present
        held := by simp [hFirst, hJoinable, hLaunched, hKept]
        waits := fun _ => by simp [hJoin, hFirst, hOn]
        blocked := fun _ => hJoinable
        released := by simp [hFirst, hJoinable]
        ended := hEnded }
  · have hTaken : s.joinable = true → joinTakes ((caller, .join) :: s.calls) = false := by
      intro hJoinable
      obtain ⟨-, -, hIdleTakes⟩ := hHeld.mp hJoinable
      have hNot : joinTakes s.calls = false := by
        by_contra hTakes
        rw [hIdleTakes (Bool.eq_true_of_not_eq_false hTakes)] at hIdle
        cases hIdle
      have hLate : ¬(s.joined = false ∧ caller = .owner) := fun hBoth =>
        hWaits ⟨hBoth.1, hJoinable, hBoth.2⟩
      rw [hJoin, hNot]
      cases caller <;> simp_all
    exact
      { started := by simpa using hCustody.started
        joined := by simp
        detached := by simpa using hCustody.detached
        present := by simpa using hCustody.present
        held := fun _ => by
          rw [if_neg hWaits, hSame, hDetach]
          constructor
          · intro hJoinable
            obtain ⟨hLaunched, hKept, -⟩ := hHeld.mp hJoinable
            exact ⟨hLaunched, hKept, fun hTakes => by simp [hTaken hJoinable] at hTakes⟩
          · rintro ⟨hLaunched, hKept, hIdleTakes⟩
            refine hHeld.mpr ⟨hLaunched, hKept, fun hTakes => hIdleTakes ?_⟩
            rw [hJoin, hTakes, Bool.or_true]
        waits := by simp [hWaits, hIdle]
        blocked := by simp [hWaits, hIdle]
        released := by simp [hWaits, hIdle]
        ended := hEnded }

/-- What the custody of the new thread depends on, when no call is made. -/
theorem Custody.of_body {s s' : Thread} (hCustody : Custody s)
    (hFault : s'.fault = none → s.fault = none) (hStarted : s'.started = s.started)
    (hJoined : s'.joined = s.joined) (hDetached : s'.detached = s.detached)
    (hJoinable : s'.joinable = s.joinable) (hOwner : s'.owner = s.owner)
    (hCalls : s'.calls = s.calls) (hPresent : s'.body = .absent ↔ s.body = .absent)
    (hFinished : s.body = .finished → s'.body = .finished) : Custody s' where
  started := by rw [hStarted, hCalls, hCustody.started]
  joined hNone hAlive := by
    rw [hJoined, hCalls, hCustody.joined (hFault hNone) (hOwner ▸ hAlive)]
  detached := by rw [hDetached, hCalls, hCustody.detached]
  present := by rw [Ne, hPresent, hCalls, ← hCustody.present]
  held hAlive := by
    rw [hJoinable, hCalls, hOwner]
    exact hCustody.held (hOwner ▸ hAlive)
  waits hJoining := by rw [hCalls, hCustody.waits (hOwner ▸ hJoining)]
  blocked hBlocked := by rw [hJoinable, hCustody.blocked (hOwner ▸ hBlocked)]
  released hGone := by rw [hJoinable, hCustody.released (hOwner ▸ hGone)]
  ended hLaunched hNot := by
    rw [hCalls] at hLaunched ⊢
    exact (hCustody.ended hLaunched (hJoinable ▸ hNot)).imp_left hFinished

theorem Custody.destroy {s : Thread} (hCustody : Custody s) (hIdle : s.owner = .idle)
    (caller : Caller) : Custody (s.destroy caller) := by
  have hHeld := hCustody.held (by simp [hIdle])
  obtain ⟨joined, hDestroy⟩ := destroy_cases s caller
  rw [hDestroy]
  split
  · next hNothing =>
    exact
      { started := hCustody.started
        joined := by simp
        detached := hCustody.detached
        present := hCustody.present
        held := fun hAlive => absurd rfl hAlive
        waits := nofun
        blocked := by simp
        released := fun _ => hNothing
        ended := hCustody.ended }
  · next hThere =>
    have hJoinable : s.joinable = true := Bool.eq_true_of_not_eq_false hThere
    obtain ⟨hLaunched, hKept, hTakes⟩ := hHeld.mp hJoinable
    have hNot : joinTakes s.calls ≠ true := fun hTaken => by
      simp [hIdle] at hTakes
      simp [hTakes] at hTaken
    split
    · exact
        { started := hCustody.started
          joined := by simp
          detached := hCustody.detached
          present := hCustody.present
          held := fun _ => iff_of_true hJoinable
            ⟨hLaunched, hKept, fun hTaken => absurd hTaken hNot⟩
          waits := nofun
          blocked := fun _ => hJoinable
          released := nofun
          ended := hCustody.ended }
    · exact
        { started := hCustody.started
          joined := nofun
          detached := hCustody.detached
          present := hCustody.present
          held := hCustody.held
          waits := hCustody.waits
          blocked := hCustody.blocked
          released := hCustody.released
          ended := hCustody.ended }

theorem Custody.joinReturns {s : Thread} (hCustody : Custody s) (hBody : s.body = .finished)
    (hJoining : s.owner = .joining) : Custody { s with joinable := false, owner := .idle } where
  started := hCustody.started
  joined hNone _ := hCustody.joined hNone (Or.inr hJoining)
  detached := hCustody.detached
  present := hCustody.present
  held _ := by simp [hCustody.waits hJoining]
  waits := nofun
  blocked := by simp
  released := nofun
  ended _ _ := Or.inl hBody

/-- The destructor has joined the new thread, and the members are destroyed. -/
theorem Custody.destroyed {s : Thread} (hCustody : Custody s) (hBody : s.body = .finished) :
    Custody { s with joinable := false, owner := .gone } where
  started := hCustody.started
  joined := by simp
  detached := hCustody.detached
  present := hCustody.present
  held hAlive := absurd rfl hAlive
  waits := nofun
  blocked := by simp
  released _ := rfl
  ended _ _ := Or.inl hBody

theorem Custody.move {s s' : Thread} {label : Label} (hCustody : Custody s)
    (hFault : s.fault = none) (hMove : Move s label s') : Custody s' := by
  cases hMove with
  | @call caller call hIdle =>
      cases call with
      | start made => exact hCustody.start hIdle caller made
      | join => exact hCustody.join hFault hIdle caller
      | detach => exact hCustody.detach hIdle caller
  | destroy hIdle => exact hCustody.destroy hIdle _
  | joined hBody hJoining => exact hCustody.joinReturns hBody hJoining
  | destroyed hBody => exact hCustody.destroyed hBody
  | touch | throws => exact hCustody.of_body nofun rfl rfl rfl rfl rfl rfl Iff.rfl id
  | name hBody | invoke hBody =>
      exact hCustody.of_body id rfl rfl rfl rfl rfl rfl (by simp [hBody]) (by simp [hBody])
  | skip hBody | returns hBody =>
      exact hCustody.of_body id rfl rfl rfl rfl rfl rfl (by simp [hBody]) fun _ => rfl

/-- The new thread meets a destroyed object only when a `Detach` let it go. -/
theorem Custody.detached_of_uses {s : Thread} (hCustody : Custody s) (hGone : s.owner = .gone)
    (hUses : s.body.usesObject = true) : detachTakes s.calls = true := by
  have hPresent : s.body ≠ .absent := by
    rintro hBody
    simp [hBody, BodyPc.usesObject] at hUses
  rcases hCustody.ended (hCustody.present.mp hPresent) (hCustody.released hGone) with
    hFinished | hTakes
  · simp [hFinished, BodyPc.usesObject] at hUses
  · exact hTakes

/-! ## Runs -/

theorem perform_fault (s : Thread) (caller : Caller) (call : Call) :
    (s.perform caller call).fault = s.fault := by
  cases call with
  | start made =>
      simp only [perform, start_eq]
      split <;> rfl
  | join => rw [perform_join]
  | detach => simp only [perform, detach_eq]

/-- The program is terminated by a destructor or by an exception that leaves `m_func`, and
nothing but the lambda of `Start` touches a destroyed object. -/
theorem Move.fault_cases {s s' : Thread} {label : Label} (hMove : Move s label s')
    (hFault : s.fault = none) :
    s'.fault = none ∨
      (s'.fault = some .terminate ∧
        (label = .finish true ∨ ∃ caller, label = .destroy caller)) ∨
      s'.fault = some .deadObject ∧ s'.calls = s.calls ∧ s.owner = .gone ∧
        s.body.usesObject = true := by
  cases hMove with
  | call hIdle => exact Or.inl ((perform_fault s _ _).trans hFault)
  | @destroy caller hIdle =>
      obtain ⟨joined, hDestroy⟩ := destroy_cases s caller
      rw [hDestroy]
      split
      · exact Or.inl hFault
      · split
        · exact Or.inl hFault
        · exact Or.inr (Or.inl ⟨rfl, Or.inr ⟨caller, rfl⟩⟩)
  | touch hGone hUses => exact Or.inr (Or.inr ⟨rfl, rfl, hGone, hUses⟩)
  | throws => exact Or.inr (Or.inl ⟨rfl, Or.inl rfl⟩)
  | joined | destroyed | name | invoke | skip | returns => exact Or.inl hFault

/-- `m_name` is what the constructor was given. -/
theorem Move.name_eq {s s' : Thread} {label : Label} (hMove : Move s label s') :
    s'.name = s.name := by
  cases hMove with
  | @call caller call =>
      cases call with
      | start made =>
          simp only [Thread.perform, start_eq]
          split <;> rfl
      | join => simp only [perform_join]
      | detach => simp only [Thread.perform, detach_eq]
  | @destroy caller =>
      obtain ⟨joined, hDestroy⟩ := destroy_cases s caller
      rw [hDestroy]
      split
      · rfl
      · split <;> rfl
  | joined | destroyed | touch | name | invoke | skip | throws | returns => rfl

structure Inv (s : Thread) : Prop where
  regular : Regular s
  custody : Custody s
  touched : s.fault = some .deadObject → detachTakes s.calls = true

theorem step_inv (s : Thread) (label : Label) (s' : Thread) (hInv : Inv s)
    (hStep : s.step label = some s') : Inv s' := by
  obtain ⟨hFault, hMove⟩ := step_move hStep
  refine ⟨hInv.regular.move hMove, hInv.custody.move hFault hMove, fun hDead => ?_⟩
  rcases hMove.fault_cases hFault with hNone | ⟨hTerminate, -⟩ | ⟨-, hCalls, hGone, hUses⟩
  · rw [hNone] at hDead
    cases hDead
  · rw [hTerminate] at hDead
    cases hDead
  · rw [hCalls]
    exact hInv.custody.detached_of_uses hGone hUses

theorem exec_inv {func : Bool} {name : List Byte} {labels : List Label} {s : Thread}
    (hRun : exec step (new func name) labels = some s) : Inv s :=
  exec_invariant Inv step_inv ⟨new_regular func name, new_custody func name, nofun⟩ hRun

theorem exec_name {func : Bool} {name : List Byte} {labels : List Label} {s : Thread}
    (hRun : exec step (new func name) labels = some s) : s.name = name :=
  exec_invariant (fun s => s.name = name)
    (fun _ _ _ hName hStep => (step_move hStep).2.name_eq.trans hName) rfl hRun

/-- When the destructor terminates the program. -/
theorem Custody.destroy_terminates_iff {s s' : Thread} (hCustody : Custody s) {caller : Caller}
    (hStep : s.step (.destroy caller) = some s') :
    s'.fault = some .terminate ↔
      launched s.calls = true ∧ joinTakes s.calls = false ∧ detachTakes s.calls = false ∧
        (caller = .self ∨ wasCalled Call.isJoin s.calls = true ∨
          wasCalled Call.isDetach s.calls = true) := by
  obtain ⟨hFault, hMove⟩ := step_move hStep
  cases hMove with | destroy hIdle =>
  have hHeld := hCustody.held (by simp [hIdle])
  simp only [hIdle, reduceCtorEq, imp_false, Bool.not_eq_true] at hHeld
  obtain ⟨joined, hDestroy⟩ := destroy_cases s caller
  rw [hDestroy, ← hCustody.detached, ← hCustody.joined hFault (Or.inl hIdle)]
  cases hJoinable : s.joinable with
  | false =>
      refine iff_of_false (by simp [hFault]) ?_
      rintro ⟨hLaunched, hJoin, hDetach, -⟩
      rw [hHeld.mpr ⟨hLaunched, hDetach, hJoin⟩] at hJoinable
      cases hJoinable
  | true =>
      obtain ⟨hLaunched, hDetach, hJoin⟩ := hHeld.mp hJoinable
      have hStarted : s.started = true :=
        hCustody.started.trans (wasCalled_of_launched hLaunched)
      have hJoins : s.joinsInDestructor caller = true ↔
          s.joined = false ∧ s.detached = false ∧ caller = .owner := by
        simp [joinsInDestructor, hStarted, and_assoc]
      rw [if_neg (by simp)]
      by_cases hWaits : s.joinsInDestructor caller = true
      · obtain ⟨hUnjoined, hUndetached, rfl⟩ := hJoins.mp hWaits
        rw [if_pos hWaits]
        refine iff_of_false (by simp [hFault]) ?_
        simp [hUnjoined, hUndetached]
      · rw [if_neg hWaits]
        refine iff_of_true rfl ⟨hLaunched, hJoin, hDetach, ?_⟩
        cases caller with
        | self => exact Or.inl rfl
        | owner =>
            rw [hJoins] at hWaits
            simp only [and_true, not_and, Bool.not_eq_false] at hWaits
            refine Or.inr ?_
            cases hJoined : s.joined with
            | true => exact Or.inl rfl
            | false => exact Or.inr (hWaits hJoined)

/-- A `Join` that waits does not wait for ever, if `m_func` returns. -/
theorem Custody.wait_ends {s : Thread} (hCustody : Custody s) (hFault : s.fault = none)
    (hWaits : s.owner = .joining ∨ s.owner = .destroying) :
    s.body = .running ∨ (s.step .joinReturns).isSome = true ∨
      (s.step .runBody).isSome = true := by
  have hAlive : s.owner ≠ .gone := by
    rcases hWaits with hOwner | hOwner <;> simp [hOwner]
  have hPresent : s.body ≠ .absent :=
    hCustody.present.mpr ((hCustody.held hAlive).mp (hCustody.blocked hWaits)).1
  cases hBody : s.body with
  | absent => exact absurd hBody hPresent
  | naming => simp [step, hFault, Thread.runBody, hBody, hAlive]
  | calling => cases hFunc : s.func <;> simp [step, hFault, Thread.runBody, hBody, hAlive, hFunc]
  | running => exact Or.inl rfl
  | finished =>
      refine Or.inr (Or.inl ?_)
      rcases hWaits with hOwner | hOwner <;> simp [step, hFault, hBody, hOwner]

/-- `Join` before `Start`: the destructor terminates the program.  The name has a NUL. -/
def joinedTooEarly : List Label :=
  [.call .owner .join, .call .owner (.start true), .runBody, .runBody, .finish false]

end Thread
end SolarNet
