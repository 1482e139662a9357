import SolarNet.Lib.Run

/-!
# `Socket`: who owns a file descriptor

The constructors, the move operations, `Close` and the destructor of
`solar_net/net/transport/socket.cpp`.  The objects of a process are named by
their addresses; the file descriptors that are open are the kernel's part of the
state, and the kernel hands out a number only while it is not open.

`::close` takes a descriptor off the kernel's table also when it reports an
error, and answers `EBADF` for one that is not open.  Every call is recorded
with the objects and the open descriptors that it found (`CloseCall`), and the
descriptors that enter and leave are recorded in order (`FdEvent`).

The other functions of the class pass `m_fd` to a system call and do not change
it.
-/

namespace SolarNet

def kInvalidFd : Int := -1

/-- `Socket`. -/
structure Socket where
  fd : Int
  deriving DecidableEq, Repr

/-- `Socket::IsValid`. -/
def Socket.isValid (s : Socket) : Bool := decide (0 ≤ s.fd)

/-- The value that `CreateTcp` and `CreateUdp` return for an answer of `socket()`. -/
def Socket.create (answer : Int) : Socket :=
  if answer < 0 then ⟨kInvalidFd⟩ else ⟨answer⟩

/-- A descriptor enters a `Socket`, or is handed to `::close`. -/
inductive FdEvent where
  | entered (fd : Int)
  | closed (fd : Int)
  deriving DecidableEq, Repr

def FdEvent.fd : FdEvent → Int
  | .entered fd | .closed fd => fd

/-- A call of `::close`: who makes it, with which number, and what the objects
and the open descriptors are at that moment. -/
structure CloseCall (ι : Type) where
  caller : ι
  fd : Int
  sockets : ι → Option Socket
  openFds : Finset Int

/-- The descriptor is open, the caller holds it, and no other object does. -/
def CloseCall.ByOwner {ι : Type} (call : CloseCall ι) : Prop :=
  call.fd ∈ call.openFds ∧ call.sockets call.caller = some ⟨call.fd⟩ ∧
    ∀ other, call.sockets other = some ⟨call.fd⟩ → other = call.caller

/-- The `Socket` objects of a process, the open descriptors, and the history. -/
structure FdProcess (ι : Type) where
  sockets : ι → Option Socket
  openFds : Finset Int
  calls : List (CloseCall ι)
  history : List FdEvent

namespace FdProcess

/-- No objects yet; other code may have descriptors open. -/
def new (ι : Type) (openFds : Finset Int) : FdProcess ι where
  sockets := fun _ => none
  openFds := openFds
  calls := []
  history := []

section Operations

variable {ι : Type} [DecidableEq ι]

def setSocket (p : FdProcess ι) (this : ι) (s : Socket) : FdProcess ι :=
  { p with sockets := Function.update p.sockets this (some s) }

/-- `::close(fd)`.  The kernel may report an error (`failed`); the answer is
whether the call returned 0. -/
def sysClose (p : FdProcess ι) (caller : ι) (fd : Int) (failed : Bool) :
    FdProcess ι × Bool :=
  ({ p with
      openFds := p.openFds.erase fd
      calls := p.calls ++ [⟨caller, fd, p.sockets, p.openFds⟩]
      history := p.history ++ [.closed fd] },
    decide (fd ∈ p.openFds) && !failed)

/-- `Socket::Close` of the object `this`, whose value is `s`. -/
def close (p : FdProcess ι) (this : ι) (s : Socket) (failed : Bool) : FdProcess ι × Bool :=
  if s.isValid then
    let (closed, ok) := p.sysClose this s.fd failed
    if !ok then (closed.setSocket this ⟨kInvalidFd⟩, false)
    else (closed.setSocket this ⟨kInvalidFd⟩, true)
  else (p, false)

/-- A new object holds the descriptor that the kernel just handed out. -/
def enter (p : FdProcess ι) (this : ι) (s : Socket) : FdProcess ι :=
  if s.isValid then
    { p.setSocket this s with
      openFds := insert s.fd p.openFds
      history := p.history ++ [.entered s.fd] }
  else p.setSocket this s

/-- `Socket(Socket&&)`. -/
def moveConstruct (p : FdProcess ι) (this other : ι) (source : Socket) : FdProcess ι :=
  (p.setSocket this ⟨source.fd⟩).setSocket other ⟨kInvalidFd⟩

/-- `operator=(Socket&&)`. -/
def moveAssign (p : FdProcess ι) (this other : ι) (target source : Socket) (failed : Bool) :
    FdProcess ι :=
  if this ≠ other then
    ((p.close this target failed).1.setSocket this ⟨source.fd⟩).setSocket other ⟨kInvalidFd⟩
  else p

/-- `~Socket`, after which the object is gone. -/
def destroy (p : FdProcess ι) (this : ι) (s : Socket) (failed : Bool) : FdProcess ι :=
  let closed := (p.close this s failed).1
  { closed with sockets := Function.update closed.sockets this none }

end Operations

end FdProcess

/-- What the program does with its `Socket` objects.  An object is built from a
fresh descriptor or from `kInvalidFd` (`construct`), or from the answer of
`socket()` (`create`); `failed` is the answer of `::close` where it is called. -/
inductive SocketOp (ι : Type) where
  | construct (this : ι) (fd : Int)
  | create (this : ι) (answer : Int)
  | moveConstruct (this other : ι)
  | moveAssign (this other : ι) (failed : Bool)
  | close (this : ι) (failed : Bool)
  | destroy (this : ι) (failed : Bool)
  deriving DecidableEq, Repr

namespace SocketOp

variable {ι : Type} [DecidableEq ι]

/-- A step is enabled when the objects it names exist, a new object has a free
place, and a descriptor that enters is not open. -/
def step (p : FdProcess ι) : SocketOp ι → Option (FdProcess ι)
  | .construct this fd =>
      match p.sockets this with
      | none => if fd = kInvalidFd ∨ (0 ≤ fd ∧ fd ∉ p.openFds)
          then some (p.enter this ⟨fd⟩) else none
      | some _ => none
  | .create this answer =>
      match p.sockets this with
      | none => if answer < 0 ∨ answer ∉ p.openFds
          then some (p.enter this (Socket.create answer)) else none
      | some _ => none
  | .moveConstruct this other =>
      match p.sockets this, p.sockets other with
      | none, some source => some (p.moveConstruct this other source)
      | _, _ => none
  | .moveAssign this other failed =>
      match p.sockets this, p.sockets other with
      | some target, some source => some (p.moveAssign this other target source failed)
      | _, _ => none
  | .close this failed => (p.sockets this).map fun s => (p.close this s failed).1
  | .destroy this failed => (p.sockets this).map fun s => p.destroy this s failed

/-- The object is moved from, or closed. -/
def empties (i : ι) : SocketOp ι → Prop
  | .moveConstruct _ other => other = i
  | .moveAssign this other _ => other = i ∧ this ≠ i
  | .close this _ => this = i
  | _ => False

/-- The object is built, or another object is moved to it. -/
def fills (i : ι) : SocketOp ι → Prop
  | .construct this _ | .create this _ | .moveConstruct this _ => this = i
  | .moveAssign this other _ => this = i ∧ other ≠ i
  | _ => False

end SocketOp

namespace FdProcess

variable {ι : Type}

/-- The object holds a descriptor of the kernel. -/
def Holds (p : FdProcess ι) (i : ι) (fd : Int) : Prop :=
  0 ≤ fd ∧ p.sockets i = some ⟨fd⟩

/-- What happened to a descriptor, in order. -/
def eventsOf (p : FdProcess ι) (fd : Int) : List FdEvent :=
  p.history.filter fun event => decide (event.fd = fd)

/-- `count` times entered and closed, in turn. -/
def closedTurns (fd : Int) (count : Nat) : List FdEvent :=
  (List.replicate count [FdEvent.entered fd, FdEvent.closed fd]).flatten

/-- The ownership invariant.  The history of a descriptor ends with its entry
while an object holds it, and with a call of `::close` otherwise. -/
structure Owned (p : FdProcess ι) : Prop where
  valid : ∀ i s, p.sockets i = some s → s.fd = kInvalidFd ∨ 0 ≤ s.fd
  opened : ∀ i fd, p.Holds i fd → fd ∈ p.openFds
  unique : ∀ i j fd, p.Holds i fd → p.Holds j fd → i = j
  byOwner : ∀ call ∈ p.calls, call.ByOwner
  held : ∀ i fd, p.Holds i fd → ∃ count, p.eventsOf fd = closedTurns fd count ++ [.entered fd]
  free : ∀ fd, (∀ i, ¬p.Holds i fd) → ∃ count, p.eventsOf fd = closedTurns fd count

theorem closedTurns_succ (fd : Int) (count : Nat) :
    closedTurns fd (count + 1) = closedTurns fd count ++ [.entered fd, .closed fd] := by
  simp [closedTurns, List.replicate_succ']

theorem owned_new (openFds : Finset Int) : Owned (new ι openFds) where
  valid := by simp [new]
  opened := by simp [Holds, new]
  unique := by simp [Holds, new]
  byOwner := by simp [new]
  held := by simp [Holds, new]
  free := fun fd _ => ⟨0, by simp [eventsOf, new, closedTurns]⟩

theorem Holds.fd_eq {p : FdProcess ι} {i : ι} {fd : Int} (hHeld : p.Holds i fd) {s : Socket}
    (hSocket : p.sockets i = some s) : s.fd = fd := by
  obtain rfl : s = ⟨fd⟩ := Option.some.inj (hSocket.symm.trans hHeld.2)
  rfl

/-- An object without a descriptor of the kernel. -/
theorem not_holds_of_idle {p : FdProcess ι} {i : ι}
    (hIdle : p.sockets i = none ∨ p.sockets i = some ⟨kInvalidFd⟩) (fd : Int) :
    ¬p.Holds i fd := by
  intro hHeld
  rcases hIdle with hNone | hInvalid
  · exact absurd (hNone.symm.trans hHeld.2) (by simp)
  · obtain rfl := hHeld.fd_eq hInvalid
    exact absurd hHeld.1 (by decide)

/-- The invariant depends on the objects only through who holds what, up to a
permutation of the objects. -/
theorem Owned.of_perm {p q : FdProcess ι} (hOwned : Owned p) (carried : Equiv.Perm ι)
    (hOpen : q.openFds = p.openFds) (hCalls : q.calls = p.calls)
    (hHistory : q.history = p.history)
    (hValid : ∀ i s, q.sockets i = some s → s.fd = kInvalidFd ∨ 0 ≤ s.fd)
    (hHolds : ∀ i fd, q.Holds i fd ↔ p.Holds (carried i) fd) : Owned q where
  valid := hValid
  opened := fun i fd hHeld => by
    rw [hOpen]
    exact hOwned.opened _ fd ((hHolds i fd).mp hHeld)
  unique := fun i j fd hI hJ =>
    carried.injective (hOwned.unique _ _ fd ((hHolds i fd).mp hI) ((hHolds j fd).mp hJ))
  byOwner := by
    rw [hCalls]
    exact hOwned.byOwner
  held := fun i fd hHeld => by
    rw [eventsOf, hHistory]
    exact hOwned.held _ fd ((hHolds i fd).mp hHeld)
  free := fun fd hFree => by
    rw [eventsOf, hHistory]
    refine hOwned.free fd fun i hHeld => hFree (carried.symm i) ?_
    rw [hHolds, Equiv.apply_symm_apply]
    exact hHeld

theorem eventsOf_append (p : FdProcess ι) (event : FdEvent) (fd : Int) :
    eventsOf { p with history := p.history ++ [event] } fd =
      p.eventsOf fd ++ if event.fd = fd then [event] else [] := by
  by_cases hFd : event.fd = fd
  · simp [eventsOf, hFd]
  · simp [eventsOf, hFd]

section Steps

variable [DecidableEq ι]

theorem setSocket_sockets (p : FdProcess ι) (this : ι) (s : Socket) (i : ι) :
    (p.setSocket this s).sockets i = if i = this then some s else p.sockets i := by
  simp [setSocket, Function.update_apply]

theorem holds_setSocket_this (p : FdProcess ι) (this : ι) (s : Socket) (fd : Int) :
    (p.setSocket this s).Holds this fd ↔ 0 ≤ fd ∧ s.fd = fd := by
  simp only [Holds, setSocket_sockets, if_true, Option.some.injEq]
  cases s
  simp

theorem holds_setSocket_of_ne (p : FdProcess ι) {this i : ι} (s : Socket) (hNe : i ≠ this)
    (fd : Int) : (p.setSocket this s).Holds i fd ↔ p.Holds i fd := by
  simp only [Holds, setSocket_sockets, if_neg hNe]

theorem valid_setSocket {p : FdProcess ι} {this : ι} {s : Socket}
    (hValid : ∀ i t, p.sockets i = some t → t.fd = kInvalidFd ∨ 0 ≤ t.fd)
    (hNew : s.fd = kInvalidFd ∨ 0 ≤ s.fd) :
    ∀ i t, (p.setSocket this s).sockets i = some t → t.fd = kInvalidFd ∨ 0 ≤ t.fd := by
  intro i t hSocket
  rw [setSocket_sockets] at hSocket
  split at hSocket
  · rw [← Option.some.inj hSocket]
    exact hNew
  · exact hValid i t hSocket

/-- `Close` of a valid object, in one piece. -/
theorem close_of_valid (p : FdProcess ι) (this : ι) {s : Socket} (hValid : 0 ≤ s.fd)
    (failed : Bool) :
    (p.close this s failed).1 =
      (p.sysClose this s.fd failed).1.setSocket this ⟨kInvalidFd⟩ := by
  have hIsValid : s.isValid = true := by simpa [Socket.isValid] using hValid
  simp only [close, hIsValid, if_true]
  split
  · rfl
  · rfl

theorem close_of_invalid (p : FdProcess ι) (this : ι) {s : Socket} (hInvalid : ¬0 ≤ s.fd)
    (failed : Bool) : (p.close this s failed).1 = p := by
  simp [close, Socket.isValid, hInvalid]

/-- Closing leaves the object with `kInvalidFd`. -/
theorem close_this {p : FdProcess ι} (hOwned : Owned p) {this : ι} {s : Socket}
    (hThis : p.sockets this = some s) (failed : Bool) :
    (p.close this s failed).1.sockets this = some ⟨kInvalidFd⟩ := by
  rcases hOwned.valid this s hThis with hInvalid | hFd
  · rw [close_of_invalid p this (by rw [hInvalid]; decide), hThis, ← hInvalid]
  · rw [close_of_valid p this hFd, setSocket_sockets, if_pos rfl]

theorem close_other (p : FdProcess ι) {this i : ι} (s : Socket) (hOther : i ≠ this)
    (failed : Bool) : (p.close this s failed).1.sockets i = p.sockets i := by
  by_cases hValid : 0 ≤ s.fd
  · rw [close_of_valid p this hValid, setSocket_sockets, if_neg hOther]
    rfl
  · rw [close_of_invalid p this hValid]

/-- Who holds something after a close is another object, with another descriptor. -/
theorem holds_closed_iff {p : FdProcess ι} (hOwned : Owned p) {this : ι} {s : Socket}
    (hThis : p.sockets this = some s) (hFd : 0 ≤ s.fd) (failed : Bool) (i : ι) (fd : Int) :
    ((p.sysClose this s.fd failed).1.setSocket this ⟨kInvalidFd⟩).Holds i fd ↔
      p.Holds i fd ∧ s.fd ≠ fd := by
  by_cases hEq : i = this
  · subst hEq
    rw [holds_setSocket_this]
    constructor
    · rintro ⟨hNonneg, rfl⟩
      exact absurd hNonneg (by decide)
    · rintro ⟨hBefore, hNe⟩
      exact absurd (hBefore.fd_eq hThis) hNe
  · rw [holds_setSocket_of_ne _ _ hEq]
    constructor
    · intro hBefore
      refine ⟨hBefore, ?_⟩
      rintro rfl
      exact hEq (hOwned.unique i this s.fd hBefore ⟨hFd, hThis⟩)
    · exact And.left

theorem owned_close {p : FdProcess ι} (hOwned : Owned p) {this : ι} {s : Socket}
    (hThis : p.sockets this = some s) (failed : Bool) : Owned (p.close this s failed).1 := by
  rcases hOwned.valid this s hThis with hInvalid | hFd
  · rw [close_of_invalid p this (by rw [hInvalid]; decide)]
    exact hOwned
  have hHeld : p.Holds this s.fd := ⟨hFd, hThis⟩
  rw [close_of_valid p this hFd]
  have hHolds := holds_closed_iff hOwned hThis hFd failed
  have hEvents : ∀ fd,
      ((p.sysClose this s.fd failed).1.setSocket this ⟨kInvalidFd⟩).eventsOf fd =
        p.eventsOf fd ++ if s.fd = fd then [.closed s.fd] else [] :=
    fun fd => eventsOf_append p (.closed s.fd) fd
  constructor
  case valid => exact valid_setSocket hOwned.valid (.inl rfl)
  case opened =>
    intro i fd hAfter
    obtain ⟨hBefore, hNe⟩ := (hHolds i fd).mp hAfter
    exact Finset.mem_erase.mpr ⟨hNe.symm, hOwned.opened i fd hBefore⟩
  case unique =>
    intro i j fd hI hJ
    exact hOwned.unique i j fd ((hHolds i fd).mp hI).1 ((hHolds j fd).mp hJ).1
  case byOwner =>
    intro call hCall
    rcases List.mem_append.mp hCall with hOld | hNew
    · exact hOwned.byOwner call hOld
    · obtain rfl := List.mem_singleton.mp hNew
      exact ⟨hOwned.opened this s.fd hHeld, hThis, fun other hOther =>
        hOwned.unique other this s.fd ⟨hFd, hOther⟩ hHeld⟩
  case held =>
    intro i fd hAfter
    obtain ⟨hBefore, hNe⟩ := (hHolds i fd).mp hAfter
    rw [hEvents, if_neg hNe, List.append_nil]
    exact hOwned.held i fd hBefore
  case free =>
    intro fd hFree
    rw [hEvents]
    by_cases hEq : s.fd = fd
    · subst hEq
      obtain ⟨count, hCount⟩ := hOwned.held this s.fd hHeld
      exact ⟨count + 1, by simp [hCount, closedTurns_succ]⟩
    · rw [if_neg hEq, List.append_nil]
      exact hOwned.free fd fun i hBefore => hFree i ((hHolds i fd).mpr ⟨hBefore, hEq⟩)

theorem owned_setSocket_invalid {p : FdProcess ι} (hOwned : Owned p) {this : ι}
    (hThis : p.sockets this = none) : Owned (p.setSocket this ⟨kInvalidFd⟩) := by
  refine hOwned.of_perm (Equiv.refl ι) rfl rfl rfl
    (valid_setSocket hOwned.valid (.inl rfl)) fun i fd => ?_
  rw [Equiv.refl_apply]
  by_cases hEq : i = this
  · subst hEq
    exact iff_of_false (not_holds_of_idle (.inr (by simp [setSocket_sockets])) fd)
      (not_holds_of_idle (.inl hThis) fd)
  · exact holds_setSocket_of_ne p _ hEq fd

/-- A new object with a valid descriptor, in one piece. -/
theorem enter_of_valid (p : FdProcess ι) (this : ι) {s : Socket} (hValid : 0 ≤ s.fd) :
    p.enter this s = { p.setSocket this s with
      openFds := insert s.fd p.openFds
      history := p.history ++ [.entered s.fd] } := by
  have hIsValid : s.isValid = true := by simpa [Socket.isValid] using hValid
  rw [enter, if_pos hIsValid]

/-- A new object holds its descriptor, and the others hold what they held. -/
theorem holds_enter_iff {p : FdProcess ι} {this : ι} {s : Socket} (hThis : p.sockets this = none)
    (hFd : 0 ≤ s.fd) (i : ι) (fd : Int) :
    (p.enter this s).Holds i fd ↔ (i = this ∧ s.fd = fd) ∨ p.Holds i fd := by
  rw [enter_of_valid p this hFd]
  change (p.setSocket this s).Holds i fd ↔ _
  by_cases hEq : i = this
  · subst hEq
    rw [holds_setSocket_this]
    constructor
    · exact fun hNew => .inl ⟨rfl, hNew.2⟩
    · rintro (⟨-, rfl⟩ | hBefore)
      · exact ⟨hFd, rfl⟩
      · exact absurd hBefore (not_holds_of_idle (.inl hThis) fd)
  · rw [holds_setSocket_of_ne p s hEq]
    simp [hEq]

theorem owned_enter {p : FdProcess ι} (hOwned : Owned p) {this : ι} {s : Socket}
    (hThis : p.sockets this = none)
    (hFresh : s.fd = kInvalidFd ∨ (0 ≤ s.fd ∧ s.fd ∉ p.openFds)) : Owned (p.enter this s) := by
  rcases hFresh with hInvalid | ⟨hFd, hClosed⟩
  · obtain rfl : s = ⟨kInvalidFd⟩ := by
      rw [← hInvalid]
    exact owned_setSocket_invalid hOwned hThis
  have hNotHeld : ∀ i, ¬p.Holds i s.fd := fun i hHeld => hClosed (hOwned.opened i s.fd hHeld)
  have hHolds := holds_enter_iff hThis hFd
  have hEvents : ∀ fd, (p.enter this s).eventsOf fd =
      p.eventsOf fd ++ if s.fd = fd then [.entered s.fd] else [] := by
    rw [enter_of_valid p this hFd]
    exact eventsOf_append p (.entered s.fd)
  constructor
  case valid =>
    rw [enter_of_valid p this hFd]
    exact valid_setSocket hOwned.valid (.inr hFd)
  case opened =>
    intro i fd hAfter
    rw [enter_of_valid p this hFd]
    rcases (hHolds i fd).mp hAfter with ⟨-, rfl⟩ | hBefore
    · exact Finset.mem_insert_self _ _
    · exact Finset.mem_insert_of_mem (hOwned.opened i fd hBefore)
  case unique =>
    intro i j fd hI hJ
    rcases (hHolds i fd).mp hI with ⟨rfl, rfl⟩ | hBeforeI
    · rcases (hHolds j _).mp hJ with ⟨rfl, -⟩ | hBeforeJ
      · rfl
      · exact absurd hBeforeJ (hNotHeld j)
    · rcases (hHolds j fd).mp hJ with ⟨-, rfl⟩ | hBeforeJ
      · exact absurd hBeforeI (hNotHeld i)
      · exact hOwned.unique i j fd hBeforeI hBeforeJ
  case byOwner =>
    rw [enter_of_valid p this hFd]
    exact hOwned.byOwner
  case held =>
    intro i fd hAfter
    rw [hEvents]
    rcases (hHolds i fd).mp hAfter with ⟨-, rfl⟩ | hBefore
    · obtain ⟨count, hCount⟩ := hOwned.free s.fd hNotHeld
      exact ⟨count, by rw [hCount, if_pos rfl]⟩
    · have hNe : s.fd ≠ fd := by
        rintro rfl
        exact hNotHeld i hBefore
      rw [if_neg hNe, List.append_nil]
      exact hOwned.held i fd hBefore
  case free =>
    intro fd hFree
    have hNe : s.fd ≠ fd := fun hEq => hFree this ((hHolds this fd).mpr (.inl ⟨rfl, hEq⟩))
    rw [hEvents, if_neg hNe, List.append_nil]
    exact hOwned.free fd fun i hBefore => hFree i ((hHolds i fd).mpr (.inr hBefore))

/-- The descriptor of one object goes to another one, which has none. -/
theorem owned_transfer {p : FdProcess ι} (hOwned : Owned p) {this other : ι} {source : Socket}
    (hNe : this ≠ other)
    (hIdle : p.sockets this = none ∨ p.sockets this = some ⟨kInvalidFd⟩)
    (hOther : p.sockets other = some source) :
    Owned ((p.setSocket this ⟨source.fd⟩).setSocket other ⟨kInvalidFd⟩) := by
  have hValid : ∀ i t, (p.setSocket this ⟨source.fd⟩).sockets i = some t →
      t.fd = kInvalidFd ∨ 0 ≤ t.fd :=
    valid_setSocket hOwned.valid (hOwned.valid other source hOther)
  refine hOwned.of_perm (Equiv.swap this other) rfl rfl rfl
    (valid_setSocket hValid (.inl rfl)) fun i fd => ?_
  by_cases hI : i = other
  · subst hI
    rw [Equiv.swap_apply_right]
    exact iff_of_false (not_holds_of_idle (.inr (by simp [setSocket_sockets])) fd)
      (not_holds_of_idle hIdle fd)
  · rw [holds_setSocket_of_ne _ _ hI]
    by_cases hJ : i = this
    · subst hJ
      rw [holds_setSocket_this, Equiv.swap_apply_left]
      constructor
      · rintro ⟨hFd, rfl⟩
        exact ⟨hFd, hOther⟩
      · exact fun hHeld => ⟨hHeld.1, hHeld.fd_eq hOther⟩
    · rw [holds_setSocket_of_ne p _ hJ, Equiv.swap_apply_of_ne_of_ne hJ hI]

/-- An object that holds nothing goes. -/
theorem owned_drop {p : FdProcess ι} (hOwned : Owned p) {this : ι}
    (hThis : p.sockets this = some ⟨kInvalidFd⟩) :
    Owned { p with sockets := Function.update p.sockets this none } := by
  refine hOwned.of_perm (Equiv.refl ι) rfl rfl rfl ?_ ?_
  · intro i s hSocket
    by_cases hEq : i = this
    · subst hEq
      simp at hSocket
    · simp only [Function.update_of_ne hEq] at hSocket
      exact hOwned.valid i s hSocket
  · intro i fd
    rw [Equiv.refl_apply]
    by_cases hEq : i = this
    · subst hEq
      exact iff_of_false (not_holds_of_idle (.inl (by simp)) fd)
        (not_holds_of_idle (.inr hThis) fd)
    · simp only [Holds, Function.update_of_ne hEq]

end Steps

end FdProcess

namespace SocketOp

variable {ι : Type} [DecidableEq ι]

/-- What a step can do. -/
theorem step_cases {p q : FdProcess ι} {op : SocketOp ι} (hStep : op.step p = some q) :
    (∃ this s, p.sockets this = none ∧
      (s.fd = kInvalidFd ∨ (0 ≤ s.fd ∧ s.fd ∉ p.openFds)) ∧
      (∀ i, op.fills i ↔ this = i) ∧ (∀ i, ¬op.empties i) ∧ q = p.enter this s) ∨
    (∃ this other source, op = .moveConstruct this other ∧ p.sockets this = none ∧
      p.sockets other = some source ∧ q = p.moveConstruct this other source) ∨
    (∃ this other failed target source, op = .moveAssign this other failed ∧
      p.sockets this = some target ∧ p.sockets other = some source ∧
      q = p.moveAssign this other target source failed) ∨
    (∃ this failed s, op = .close this failed ∧ p.sockets this = some s ∧
      q = (p.close this s failed).1) ∨
    (∃ this failed s, op = .destroy this failed ∧ p.sockets this = some s ∧
      q = p.destroy this s failed) := by
  cases op with
  | construct this fd =>
      simp only [step] at hStep
      split at hStep
      case h_1 hThis =>
        obtain ⟨hFresh, hEq⟩ := Option.ite_none_right_eq_some.mp hStep
        exact .inl ⟨this, ⟨fd⟩, hThis, hFresh, fun _ => .rfl, fun _ => id,
          (Option.some.inj hEq).symm⟩
      case h_2 => cases hStep
  | create this answer =>
      simp only [step] at hStep
      split at hStep
      case h_1 hThis =>
        obtain ⟨hFresh, hEq⟩ := Option.ite_none_right_eq_some.mp hStep
        refine .inl ⟨this, Socket.create answer, hThis, ?_, fun _ => .rfl, fun _ => id,
          (Option.some.inj hEq).symm⟩
        by_cases hFailed : answer < 0
        · exact .inl (by rw [Socket.create, if_pos hFailed])
        · rw [Socket.create, if_neg hFailed]
          exact .inr ⟨not_lt.mp hFailed, hFresh.resolve_left hFailed⟩
      case h_2 => cases hStep
  | moveConstruct this other =>
      simp only [step] at hStep
      split at hStep
      case h_1 source hThis hOther =>
        exact .inr (.inl ⟨this, other, source, rfl, hThis, hOther,
          (Option.some.inj hStep).symm⟩)
      case h_2 => cases hStep
  | moveAssign this other failed =>
      simp only [step] at hStep
      split at hStep
      case h_1 target source hThis hOther =>
        exact .inr (.inr (.inl ⟨this, other, failed, target, source, rfl, hThis, hOther,
          (Option.some.inj hStep).symm⟩))
      case h_2 => cases hStep
  | close this failed =>
      obtain ⟨s, hThis, hEq⟩ := Option.map_eq_some_iff.mp hStep
      exact .inr (.inr (.inr (.inl ⟨this, failed, s, rfl, hThis, hEq.symm⟩)))
  | destroy this failed =>
      obtain ⟨s, hThis, hEq⟩ := Option.map_eq_some_iff.mp hStep
      exact .inr (.inr (.inr (.inr ⟨this, failed, s, rfl, hThis, hEq.symm⟩)))

end SocketOp

namespace FdProcess

variable {ι : Type} [DecidableEq ι]

theorem owned_step (p : FdProcess ι) (op : SocketOp ι) (q : FdProcess ι) (hOwned : Owned p)
    (hStep : op.step p = some q) : Owned q := by
  obtain ⟨this, s, hThis, hFresh, -, -, rfl⟩ | ⟨this, other, source, rfl, hThis, hOther, rfl⟩ |
    ⟨this, other, failed, target, source, rfl, hThis, hOther, rfl⟩ |
    ⟨this, failed, s, rfl, hThis, rfl⟩ | ⟨this, failed, s, rfl, hThis, rfl⟩ :=
    SocketOp.step_cases hStep
  · exact owned_enter hOwned hThis hFresh
  · have hNe : this ≠ other := by
      rintro rfl
      exact absurd (hThis.symm.trans hOther) (by simp)
    exact owned_transfer hOwned hNe (.inl hThis) hOther
  · by_cases hNe : this ≠ other
    · rw [moveAssign, if_pos hNe]
      refine owned_transfer (owned_close hOwned hThis failed) hNe
        (.inr (close_this hOwned hThis failed)) ?_
      rw [close_other p target hNe.symm failed]
      exact hOther
    · rw [moveAssign, if_neg hNe]
      exact hOwned
  · exact owned_close hOwned hThis failed
  · exact owned_drop (owned_close hOwned hThis failed) (close_this hOwned hThis failed)

/-- The object, if there is one, holds `kInvalidFd`. -/
def Idle (p : FdProcess ι) (i : ι) : Prop :=
  ∀ s, p.sockets i = some s → s.fd = kInvalidFd

omit [DecidableEq ι] in
theorem idle_congr {p q : FdProcess ι} {i : ι} (hSockets : q.sockets i = p.sockets i)
    (hIdle : Idle p i) : Idle q i := by
  intro s hSocket
  exact hIdle s (hSockets.symm.trans hSocket)

omit [DecidableEq ι] in
theorem idle_of_invalid {p : FdProcess ι} {i : ι} (hInvalid : p.sockets i = some ⟨kInvalidFd⟩) :
    Idle p i := by
  intro s hSocket
  rw [← Option.some.inj (hInvalid.symm.trans hSocket)]

theorem enter_other (p : FdProcess ι) {this i : ι} (s : Socket) (hNe : this ≠ i) :
    (p.enter this s).sockets i = p.sockets i := by
  rw [enter]
  split
  · exact Function.update_of_ne hNe.symm _ _
  · exact Function.update_of_ne hNe.symm _ _

/-- A moved-from or closed object holds `kInvalidFd`, and so it stays until it is
built or assigned to again. -/
theorem idle_step {p q : FdProcess ι} {op : SocketOp ι} {i : ι} (hOwned : Owned p)
    (hOp : op.empties i ∨ (Idle p i ∧ ¬op.fills i)) (hStep : op.step p = some q) :
    Idle q i := by
  obtain ⟨this, s, hThis, hFresh, hFills, hEmpties, rfl⟩ |
    ⟨this, other, source, rfl, hThis, hOther, rfl⟩ |
    ⟨this, other, failed, target, source, rfl, hThis, hOther, rfl⟩ |
    ⟨this, failed, s, rfl, hThis, rfl⟩ | ⟨this, failed, s, rfl, hThis, rfl⟩ :=
    SocketOp.step_cases hStep
  · obtain ⟨hIdle, hKeep⟩ := hOp.resolve_left (hEmpties i)
    exact idle_congr (enter_other p s ((hFills i).not.mp hKeep)) hIdle
  · by_cases hI : i = other
    · exact idle_of_invalid (by simp [moveConstruct, setSocket_sockets, hI])
    · obtain ⟨hIdle, hKeep⟩ := hOp.resolve_left fun hEq => hI hEq.symm
      refine idle_congr ?_ hIdle
      rw [moveConstruct, setSocket_sockets, setSocket_sockets, if_neg hI,
        if_neg fun hEq => hKeep hEq.symm]
  · by_cases hNe : this ≠ other
    · rw [moveAssign, if_pos hNe]
      by_cases hI : i = other
      · exact idle_of_invalid (by simp [setSocket_sockets, hI])
      · obtain ⟨hIdle, hKeep⟩ := hOp.resolve_left fun hEq => hI hEq.1.symm
        have hThisNe : i ≠ this := fun hEq => hKeep ⟨hEq.symm, Ne.symm hI⟩
        refine idle_congr ?_ hIdle
        rw [setSocket_sockets, setSocket_sockets, if_neg hI, if_neg hThisNe,
          close_other p target hThisNe failed]
    · rw [moveAssign, if_neg hNe]
      refine (hOp.resolve_left ?_).1
      rintro ⟨rfl, hThisNe⟩
      exact hNe hThisNe
  · by_cases hI : i = this
    · exact idle_of_invalid (by rw [hI]; exact close_this hOwned hThis failed)
    · exact idle_congr (close_other p s hI failed) (hOp.resolve_left fun hEq => hI hEq.symm).1
  · by_cases hI : i = this
    · intro t hSocket
      simp [destroy, hI] at hSocket
    · refine idle_congr ?_ (hOp.resolve_left id).1
      simp only [destroy, Function.update_of_ne hI]
      exact close_other p s hI failed

theorem owned_run {openFds : Finset Int} {ops : List (SocketOp ι)} {p : FdProcess ι}
    (hRun : Lib.exec SocketOp.step (new ι openFds) ops = some p) :
    Owned p :=
  Lib.exec_invariant Owned owned_step (owned_new openFds) hRun

/-- Along every run a descriptor has one holder at most, `::close` is called by
the holder of an open descriptor, a moved-from or closed object holds
`kInvalidFd`, and when the objects are gone each entry of a descriptor was
followed by exactly one `::close`. -/
theorem fd_closed_exactly_once (openFds : Finset Int) (ops : List (SocketOp ι))
    (p : FdProcess ι)
    (hRun : Lib.exec SocketOp.step (new ι openFds) ops = some p) :
    (∀ i j s t, p.sockets i = some s → p.sockets j = some t → 0 ≤ s.fd → s.fd = t.fd →
      i = j) ∧
    (∀ call ∈ p.calls, call.ByOwner) ∧
    (∀ first op rest i, ops = first ++ op :: rest → op.empties i →
      (∀ later ∈ rest, ¬later.fills i) → ∀ s, p.sockets i = some s → s.fd = kInvalidFd) ∧
    ((∀ i, p.sockets i = none) →
      ∀ fd, ∃ count, p.eventsOf fd = closedTurns fd count) := by
  have hOwned : Owned p := owned_run hRun
  refine ⟨?_, hOwned.byOwner, ?_, ?_⟩
  · rintro i j ⟨fd⟩ t hI hJ hFd rfl
    exact hOwned.unique i j t.fd ⟨hFd, hI⟩ ⟨hFd, hJ⟩
  · rintro first op rest i rfl hEmpties hKeep
    obtain ⟨before, hFirst, hRest⟩ := Lib.exists_of_exec_append hRun
    obtain ⟨after, hStep, hLater⟩ := Lib.exec_cons_eq_some.mp hRest
    have hBefore : Owned before := owned_run hFirst
    have hAfter : Owned after ∧ Idle after i :=
      ⟨owned_step before op after hBefore hStep, idle_step hBefore (.inl hEmpties) hStep⟩
    have hEnd : Owned p ∧ Idle p i := by
      refine Lib.exec_invariant_of_meets (fun q => Owned q ∧ Idle q i) ?_ hAfter
        (Lib.Meets.of_forall hKeep) hLater
      intro q later next hInv hFills hNext
      exact ⟨owned_step q later next hInv.1 hNext,
        idle_step hInv.1 (.inr ⟨hInv.2, hFills⟩) hNext⟩
    exact hEnd.2
  · intro hGone fd
    refine hOwned.free fd fun i hHeld => ?_
    exact absurd ((hGone i).symm.trans hHeld.2) (by simp)

/-- Two objects: the first owns 5, is assigned the second one's 7 while `::close`
of 5 fails, and 5 is handed out again. -/
def reuseAfterFailedClose : List (SocketOp Bool) :=
  [.construct false 5, .create true 7, .moveAssign false true true, .moveAssign false false false,
    .destroy true false, .construct true 5, .close false false, .destroy false false,
    .destroy true true]

theorem fd_closed_exactly_once_reuse :
    ∃ p, Lib.exec SocketOp.step (new Bool {0, 1, 2}) reuseAfterFailedClose =
        some p ∧
      p.history = [.entered 5, .entered 7, .closed 5, .entered 5, .closed 7, .closed 5] ∧
      (∀ call ∈ p.calls, call.ByOwner) ∧ ∃ count, p.eventsOf 5 = closedTurns 5 count := by
  obtain ⟨p, hRun, hHistory, hGone⟩ : ∃ p,
      Lib.exec SocketOp.step (new Bool {0, 1, 2}) reuseAfterFailedClose =
        some p ∧
      p.history = [.entered 5, .entered 7, .closed 5, .entered 5, .closed 7, .closed 5] ∧
      ∀ i, p.sockets i = none := ⟨_, rfl, by decide, by decide⟩
  obtain ⟨-, hCalls, -, hClosed⟩ := fd_closed_exactly_once _ _ p hRun
  exact ⟨p, hRun, hHistory, hCalls, hClosed hGone 5⟩

end FdProcess

end SolarNet
