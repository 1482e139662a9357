import SolarNet.Lib.Run
import SolarNet.Net.Channel
import SolarNet.Transport.InetAddress
import SolarNet.Transport.Socket

/-!
# `Acceptor`

`solar_net/net/transport/acceptor.cpp` together with the kernel and with the code that
receives the accepted descriptors.  The kernel keeps the connections that have arrived in
a queue; `accept4` takes the first of them and gives it a number that is not open.  A
socket can be bound once.  Closing the listening descriptor resets what is still in the
queue and takes the descriptor out of the epoll set.

A run is any order of calls of `Listen` and `SetNewConnectionCallback`, of arrivals, of
iterations of `HandleRead`, of descriptors opened and closed by others, and of the
destructor.  The destructor does not run inside `HandleRead` here; what happens when it
does is in `SolarNet.Transport.StopInCallback`.
-/

namespace SolarNet

open Lib

/-- What the kernel answers to the calls that `Listen` makes. -/
structure ListenAnswers where
  setReuseAddr : Bool
  setReusePort : Bool
  bind : Bool
  listen : Bool
  getsockname : Option ((Nat → Byte) × Nat)

structure Acceptor where
  listenAddr : InetAddress
  reusePort : Bool
  listening : Bool
  listenSocket : Socket
  channel : Option Channel
  /-- `m_new_connection_callback` is not empty. -/
  newConnectionCallback : Bool

namespace Acceptor

/-- The constructor, with the answer of `socket()`. -/
def new (listenAddr : InetAddress) (reusePort : Bool) (answer : Int) : Acceptor where
  listenAddr := listenAddr
  reusePort := reusePort
  listening := false
  listenSocket := Socket.create answer
  channel := if (Socket.create answer).isValid then some Channel.new else none
  newConnectionCallback := false

/-- `m_listen_addr` after a successful `Listen`. -/
def boundAddr (a : Acceptor) (getsockname : Option ((Nat → Byte) × Nat)) : InetAddress :=
  if a.listenAddr.port = 0 then
    match getsockname with
    | some (bytes, len) => InetAddress.ofSockaddr (some bytes) len
    | none => a.listenAddr
  else a.listenAddr

/-- The calls of `Listen` before `::bind` have succeeded. -/
def reachesBind (a : Acceptor) (answers : ListenAnswers) : Bool :=
  !a.listening && a.listenSocket.isValid && a.channel.isSome && answers.setReuseAddr &&
    (!a.reusePort || answers.setReusePort)

/-- `Listen`. -/
def listen (a : Acceptor) (answers : ListenAnswers) : Acceptor × Bool :=
  if a.listening then (a, true)
  else if !a.listenSocket.isValid then (a, false)
  else
    match a.channel with
    | none => (a, false)
    | some channel =>
        if !answers.setReuseAddr then (a, false)
        else if a.reusePort && !answers.setReusePort then (a, false)
        else if !answers.bind then (a, false)
        else if !answers.listen then (a, false)
        else
          ({ a with
              listenAddr := a.boundAddr answers.getsockname
              channel := some channel.enableReading
              listening := true }, true)

/-- What the destructor leaves of the channel's registration.  The channel is taken out
of the poller only on the thread of the loop; the epoll set loses the descriptor when it
is closed. -/
def destroyChannel (a : Acceptor) (inLoopThread : Bool) : Option Channel :=
  a.channel.map fun channel =>
    { (if inLoopThread then channel.disableAll.removeChannel else channel) with interest := none }

end Acceptor

/-- A connection that `accept4` returned, and whether the callback received it. -/
structure Taken where
  fd : Int
  peerAddr : InetAddress
  handed : Bool

/-- What `accept4` answers. -/
inductive AcceptAnswer where
  | connection (fd : Int)
  /-- `EAGAIN`. -/
  | wouldBlock
  /-- Any other error. -/
  | failed
  deriving DecidableEq, Repr

/-- An acceptor, its kernel and its surroundings.  `arrived`, `taken`, `reset` and
`released` are the history: the connections that arrived, those that `accept4` returned,
those that were waiting when the listening socket was closed, and the descriptors that
their receivers have closed. -/
structure AcceptorLoop where
  /-- `none` after the destructor. -/
  acceptor : Option Acceptor
  /-- `HandleRead` is in progress. -/
  reading : Bool
  /-- What the poller has of the channel after the destructor. -/
  leftover : Option Channel
  openFds : Finset Int
  bound : Bool
  /-- `::listen` has succeeded. -/
  accepting : Bool
  backlog : List InetAddress
  /-- Descriptors that a receiver has and did not close. -/
  held : Finset Int
  /-- Descriptors of the rest of the process. -/
  others : Finset Int
  arrived : List InetAddress
  taken : List Taken
  reset : List InetAddress
  released : List Int

inductive AcceptorLabel where
  | listen (answers : ListenAnswers)
  | setNewConnectionCallback (set : Bool)
  | arrive (peerAddr : InetAddress)
  /-- The loop calls the read callback of the channel. -/
  | handleRead
  /-- One turn of the loop of `HandleRead`. -/
  | accept (answer : AcceptAnswer)
  /-- A receiver closes a descriptor. -/
  | release (fd : Int)
  | openOther (fd : Int)
  | closeOther (fd : Int)
  | destroy (inLoopThread : Bool)

namespace AcceptorLoop

/-- A new acceptor in a process that has `others` open. -/
def boot (listenAddr : InetAddress) (reusePort : Bool) (answer : Int) (others : Finset Int) :
    AcceptorLoop where
  acceptor := some (Acceptor.new listenAddr reusePort answer)
  reading := false
  leftover := none
  openFds := if 0 ≤ answer then insert answer others else others
  bound := false
  accepting := false
  backlog := []
  held := ∅
  others := others
  arrived := []
  taken := []
  reset := []
  released := []

/-- `Listen`; the kernel binds a socket once. -/
def listen (w : AcceptorLoop) (a : Acceptor) (answers : ListenAnswers) : Option AcceptorLoop :=
  if answers.bind ∧ w.bound ∧ a.reachesBind answers then none
  else
    some { w with
      acceptor := some (a.listen answers).1
      bound := w.bound || a.reachesBind answers && answers.bind
      accepting := w.accepting || a.reachesBind answers && answers.bind && answers.listen }

/-- The epoll set has the listening descriptor for reading. -/
def watched (a : Acceptor) : Bool :=
  (a.channel.bind Channel.interest).any PollEvents.reads

/-- The body of the loop of `HandleRead`, when the socket is valid. -/
def accept (w : AcceptorLoop) (a : Acceptor) : AcceptAnswer → Option AcceptorLoop
  | .connection fd =>
      match w.backlog with
      | peerAddr :: rest =>
          if 0 ≤ fd ∧ fd ∉ w.openFds then
            let taken := w.taken ++ [⟨fd, peerAddr, a.newConnectionCallback⟩]
            if a.newConnectionCallback then
              some { w with
                openFds := insert fd w.openFds
                held := insert fd w.held
                backlog := rest
                taken := taken }
            -- The descriptor is opened and closed again.
            else some { w with backlog := rest, taken := taken }
          else none
      | [] => none
  | .wouldBlock => if w.backlog = [] then some { w with reading := false } else none
  | .failed => some { w with reading := false }

/-- The destructor, and then that of the socket. -/
def destroy (w : AcceptorLoop) (a : Acceptor) (inLoopThread : Bool) : AcceptorLoop :=
  { w with
    acceptor := none
    leftover := a.destroyChannel inLoopThread
    openFds := if a.listenSocket.isValid then w.openFds.erase a.listenSocket.fd else w.openFds
    accepting := false
    backlog := []
    reset := w.backlog }

def step (w : AcceptorLoop) : AcceptorLabel → Option AcceptorLoop
  | .listen answers => w.acceptor.bind fun a => w.listen a answers
  | .setNewConnectionCallback set => w.acceptor.map fun a =>
      { w with acceptor := some { a with newConnectionCallback := set } }
  | .arrive peerAddr =>
      if w.accepting then
        some { w with backlog := w.backlog ++ [peerAddr], arrived := w.arrived ++ [peerAddr] }
      else none
  | .handleRead => w.acceptor.bind fun a =>
      if watched a ∧ w.reading = false then some { w with reading := true } else none
  | .accept answer => w.acceptor.bind fun a =>
      if w.reading = false then none
      else if a.listenSocket.isValid then w.accept a answer
      else some { w with reading := false }
  | .release fd =>
      if fd ∈ w.held then
        some { w with
          held := w.held.erase fd
          openFds := w.openFds.erase fd
          released := w.released ++ [fd] }
      else none
  | .openOther fd =>
      if fd ∉ w.openFds then
        some { w with openFds := insert fd w.openFds, others := insert fd w.others }
      else none
  | .closeOther fd =>
      if fd ∈ w.others then
        some { w with openFds := w.openFds.erase fd, others := w.others.erase fd }
      else none
  | .destroy inLoopThread => w.acceptor.bind fun a =>
      if w.reading then none else some (w.destroy a inLoopThread)


/-! ## The acceptor -/

/-- `Listen` either leaves the acceptor alone or was answered well by every call. -/
theorem listen_cases (a : Acceptor) (answers : ListenAnswers) :
    (a.listen answers).1 = a ∧ (a.reachesBind answers && answers.bind && answers.listen) = false ∨
      ∃ channel, a.channel = some channel ∧ a.listening = false ∧
        (a.reachesBind answers && answers.bind && answers.listen) = true ∧
        (a.listen answers).1 = { a with
          listenAddr := a.boundAddr answers.getsockname
          channel := some channel.enableReading
          listening := true } := by
  unfold Acceptor.listen Acceptor.reachesBind
  cases hListening : a.listening with
  | true => simp
  | false =>
      cases hValid : a.listenSocket.isValid with
      | false => simp
      | true =>
          cases hChannel : a.channel with
          | none => simp
          | some channel =>
              cases hAddr : answers.setReuseAddr <;> cases hPort : answers.setReusePort <;>
                cases hReuse : a.reusePort <;> cases hBind : answers.bind <;>
                cases hListen : answers.listen <;> simp

/-- What `Listen` returns. -/
theorem listen_result (a : Acceptor) (answers : ListenAnswers) :
    (a.listen answers).2 =
      (a.listening || a.reachesBind answers && answers.bind && answers.listen) := by
  unfold Acceptor.listen Acceptor.reachesBind
  cases a.listening with
  | true => rfl
  | false =>
      cases a.listenSocket.isValid with
      | false => rfl
      | true =>
          cases a.channel with
          | none => rfl
          | some channel =>
              cases answers.setReuseAddr <;> cases answers.setReusePort <;>
                cases a.reusePort <;> cases answers.bind <;> cases answers.listen <;> rfl

/-- What the members of an acceptor have to do with each other and with the kernel. -/
structure Regular (a : Acceptor) (bound accepting : Bool) : Prop where
  listening_eq : a.listening = accepting
  bound_of_accepting : accepting = true → bound = true
  channel_eq : a.channel = if a.listenSocket.isValid
    then some (if a.listening then Channel.new.enableReading else Channel.new) else none
  valid_of_listening : a.listening = true → a.listenSocket.isValid = true

theorem regular_new (listenAddr : InetAddress) (reusePort : Bool) (answer : Int) :
    Regular (Acceptor.new listenAddr reusePort answer) false false where
  listening_eq := rfl
  bound_of_accepting := by simp
  channel_eq := rfl
  valid_of_listening := by simp [Acceptor.new]

theorem Regular.listen {a : Acceptor} {bound accepting : Bool}
    (hRegular : Regular a bound accepting) (answers : ListenAnswers) :
    Regular (a.listen answers).1 (bound || a.reachesBind answers && answers.bind)
      (accepting || a.reachesBind answers && answers.bind && answers.listen) := by
  rcases listen_cases a answers with ⟨hSame, hRefused⟩ | ⟨channel, hChannel, hIdle, hDone, hNext⟩
  · rw [hSame, hRefused, Bool.or_false]
    exact ⟨hRegular.listening_eq,
      fun hAccepting => by simp [hRegular.bound_of_accepting hAccepting],
      hRegular.channel_eq, hRegular.valid_of_listening⟩
  · have hValid : a.listenSocket.isValid = true := by
      by_contra hInvalid
      simp [hRegular.channel_eq, hInvalid] at hChannel
    have hBind : (a.reachesBind answers && answers.bind) = true := by
      rw [Bool.and_eq_true] at hDone
      exact hDone.1
    rw [hNext, hDone, hBind, Bool.or_true, Bool.or_true]
    refine ⟨rfl, fun _ => rfl, ?_, fun _ => hValid⟩
    have hNew : channel = Channel.new := by
      simpa [hRegular.channel_eq, hValid, hIdle] using hChannel.symm
    simp [hValid, hNew]

/-- A registered channel is one of a listening acceptor. -/
theorem Regular.watched_iff {a : Acceptor} {bound accepting : Bool}
    (hRegular : Regular a bound accepting) : watched a = true ↔ a.listening = true := by
  cases hListening : a.listening with
  | true =>
      have hValid := hRegular.valid_of_listening hListening
      simp only [watched, hRegular.channel_eq, hValid, hListening, if_true, Option.bind_some]
      decide
  | false =>
      cases hValid : a.listenSocket.isValid <;>
        simp [watched, hRegular.channel_eq, hValid, hListening, Channel.new]

/-- What the destructor leaves behind. -/
theorem Regular.leftover {a : Acceptor} {bound accepting : Bool}
    (hRegular : Regular a bound accepting) (inLoopThread : Bool) {channel : Channel}
    (hLeft : a.destroyChannel inLoopThread = some channel) :
    channel.interest = none ∧
      (channel.mapped = true ↔ inLoopThread = false ∧ a.listening = true) := by
  have hValid : a.listenSocket.isValid = true := by
    by_contra hInvalid
    simp [Acceptor.destroyChannel, hRegular.channel_eq, hInvalid] at hLeft
  simp only [Acceptor.destroyChannel, hRegular.channel_eq, hValid, if_true, Option.map_some,
    Option.some.injEq] at hLeft
  obtain rfl := hLeft
  cases inLoopThread <;> cases a.listening <;> decide

/-! ## Connections -/

/-- Connections are taken in the order of their arrival, and those that wait are waited
for. -/
structure Ordered (w : AcceptorLoop) : Prop where
  arrived_eq : w.arrived = w.taken.map Taken.peerAddr ++ w.backlog ++ w.reset
  reset_of_alive : w.acceptor.isSome = true → w.reset = []
  accepting_of_backlog : w.backlog ≠ [] → w.accepting = true
  accepting_of_alive : w.accepting = true → w.acceptor.isSome = true

/-! ## Descriptors -/

/-- The descriptor of the listening socket. -/
def listenFd (w : AcceptorLoop) : Option Int :=
  w.acceptor.bind fun a => if a.listenSocket.isValid then some a.listenSocket.fd else none

/-- The open descriptors are those of the rest of the process, of the receivers and of the
listening socket, and each of them has one owner. -/
structure Custody (w : AcceptorLoop) : Prop where
  mem_openFds : ∀ fd, fd ∈ w.openFds ↔ fd ∈ w.others ∨ fd ∈ w.held ∨ w.listenFd = some fd
  held_not_other : ∀ fd, fd ∈ w.held → fd ∉ w.others
  listen_not_other : ∀ fd, w.listenFd = some fd → fd ∉ w.others
  listen_not_held : ∀ fd, w.listenFd = some fd → fd ∉ w.held
  released : ∀ fd, ((w.taken.filter Taken.handed).map Taken.fd).count fd =
    w.released.count fd + if fd ∈ w.held then 1 else 0

theorem Custody.of_eq {w w' : AcceptorLoop} (hCustody : Custody w) (hOpen : w'.openFds = w.openFds)
    (hOthers : w'.others = w.others) (hHeld : w'.held = w.held) (hListen : w'.listenFd = w.listenFd)
    (hTaken : w'.taken = w.taken) (hReleased : w'.released = w.released) : Custody w' := by
  obtain ⟨hMem, hHeldOther, hListenOther, hListenHeld, hCount⟩ := hCustody
  constructor
  · rw [hOpen, hOthers, hHeld, hListen]
    exact hMem
  · rw [hHeld, hOthers]
    exact hHeldOther
  · rw [hListen, hOthers]
    exact hListenOther
  · rw [hListen, hHeld]
    exact hListenHeld
  · rw [hTaken, hReleased, hHeld]
    exact hCount

theorem listen_listenSocket (a : Acceptor) (answers : ListenAnswers) :
    (a.listen answers).1.listenSocket = a.listenSocket := by
  rcases listen_cases a answers with ⟨hSame, -⟩ | ⟨channel, -, -, -, hNext⟩
  · rw [hSame]
  · rw [hNext]

/-- A descriptor that is not open belongs to nobody. -/
theorem Custody.fresh {w : AcceptorLoop} (hCustody : Custody w) {fd : Int}
    (hFree : fd ∉ w.openFds) :
    fd ∉ w.others ∧ fd ∉ w.held ∧ w.listenFd ≠ some fd := by
  have hNone := mt (hCustody.mem_openFds fd).mpr hFree
  push Not at hNone
  exact hNone

/-- The callback receives a new descriptor. -/
theorem Custody.hand {w : AcceptorLoop} (hCustody : Custody w) {fd : Int} (hFree : fd ∉ w.openFds)
    (peerAddr : InetAddress) (rest : List InetAddress) :
    Custody { w with
      openFds := insert fd w.openFds
      held := insert fd w.held
      backlog := rest
      taken := w.taken ++ [⟨fd, peerAddr, true⟩] } := by
  obtain ⟨hOther, hHeld, hListen⟩ := hCustody.fresh hFree
  constructor
  case mem_openFds =>
    intro other
    show other ∈ insert fd w.openFds ↔
      other ∈ w.others ∨ other ∈ insert fd w.held ∨ w.listenFd = some other
    rw [Finset.mem_insert, Finset.mem_insert, hCustody.mem_openFds other]
    tauto
  case held_not_other =>
    intro other hMem
    rcases Finset.mem_insert.mp hMem with rfl | hMem
    · exact hOther
    · exact hCustody.held_not_other other hMem
  case listen_not_other => exact hCustody.listen_not_other
  case listen_not_held =>
    intro other hIs hMem
    rcases Finset.mem_insert.mp hMem with rfl | hMem
    · exact hListen hIs
    · exact hCustody.listen_not_held other hIs hMem
  case released =>
    intro other
    have hCount := hCustody.released other
    by_cases hEq : other = fd
    · subst hEq
      rw [if_neg hHeld] at hCount
      simp [hCount]
    · have hNe : ¬fd = other := fun hFd => hEq hFd.symm
      simpa [hEq, hNe, List.count_singleton] using hCount

/-- Without a callback the descriptor is closed at once. -/
theorem Custody.refuse {w : AcceptorLoop} (hCustody : Custody w) (fd : Int)
    (peerAddr : InetAddress) (rest : List InetAddress) :
    Custody { w with backlog := rest, taken := w.taken ++ [⟨fd, peerAddr, false⟩] } where
  mem_openFds := hCustody.mem_openFds
  held_not_other := hCustody.held_not_other
  listen_not_other := hCustody.listen_not_other
  listen_not_held := hCustody.listen_not_held
  released := by
    intro other
    simpa using hCustody.released other

theorem Custody.release {w : AcceptorLoop} (hCustody : Custody w) {fd : Int} (hMem : fd ∈ w.held) :
    Custody { w with
      held := w.held.erase fd
      openFds := w.openFds.erase fd
      released := w.released ++ [fd] } := by
  constructor
  case mem_openFds =>
    intro other
    show other ∈ w.openFds.erase fd ↔
      other ∈ w.others ∨ other ∈ w.held.erase fd ∨ w.listenFd = some other
    rw [Finset.mem_erase, Finset.mem_erase, hCustody.mem_openFds other]
    constructor
    · rintro ⟨hNe, hIn⟩
      tauto
    · rintro (hOther | ⟨hNe, hHeld⟩ | hListen)
      · exact ⟨fun hEq => hCustody.held_not_other fd hMem (hEq ▸ hOther), Or.inl hOther⟩
      · exact ⟨hNe, Or.inr (Or.inl hHeld)⟩
      · exact ⟨fun hEq => hCustody.listen_not_held other hListen (hEq ▸ hMem),
          Or.inr (Or.inr hListen)⟩
  case held_not_other =>
    exact fun other hIn => hCustody.held_not_other other (Finset.mem_of_mem_erase hIn)
  case listen_not_other => exact hCustody.listen_not_other
  case listen_not_held =>
    exact fun other hIs hIn =>
      hCustody.listen_not_held other hIs (Finset.mem_of_mem_erase hIn)
  case released =>
    intro other
    have hCount := hCustody.released other
    by_cases hEq : other = fd
    · subst hEq
      rw [if_pos hMem] at hCount
      simp [hCount]
    · have hNe : ¬fd = other := fun hFd => hEq hFd.symm
      simpa [hEq, hNe, List.count_singleton] using hCount

theorem Custody.openOther {w : AcceptorLoop} (hCustody : Custody w) {fd : Int}
    (hFree : fd ∉ w.openFds) :
    Custody { w with openFds := insert fd w.openFds, others := insert fd w.others } := by
  obtain ⟨-, hHeld, hListen⟩ := hCustody.fresh hFree
  constructor
  case mem_openFds =>
    intro other
    show other ∈ insert fd w.openFds ↔
      other ∈ insert fd w.others ∨ other ∈ w.held ∨ w.listenFd = some other
    rw [Finset.mem_insert, Finset.mem_insert, hCustody.mem_openFds other]
    tauto
  case held_not_other =>
    intro other hIn hMem
    rcases Finset.mem_insert.mp hMem with rfl | hMem
    · exact hHeld hIn
    · exact hCustody.held_not_other other hIn hMem
  case listen_not_other =>
    intro other hIs hMem
    rcases Finset.mem_insert.mp hMem with rfl | hMem
    · exact hListen hIs
    · exact hCustody.listen_not_other other hIs hMem
  case listen_not_held => exact hCustody.listen_not_held
  case released => exact hCustody.released

theorem Custody.closeOther {w : AcceptorLoop} (hCustody : Custody w) {fd : Int}
    (hMem : fd ∈ w.others) :
    Custody { w with openFds := w.openFds.erase fd, others := w.others.erase fd } := by
  constructor
  case mem_openFds =>
    intro other
    show other ∈ w.openFds.erase fd ↔
      other ∈ w.others.erase fd ∨ other ∈ w.held ∨ w.listenFd = some other
    rw [Finset.mem_erase, Finset.mem_erase, hCustody.mem_openFds other]
    constructor
    · rintro ⟨hNe, hIn⟩
      tauto
    · rintro (⟨hNe, hOther⟩ | hHeld | hListen)
      · exact ⟨hNe, Or.inl hOther⟩
      · exact ⟨fun hEq => hCustody.held_not_other other hHeld (hEq ▸ hMem),
          Or.inr (Or.inl hHeld)⟩
      · exact ⟨fun hEq => hCustody.listen_not_other other hListen (hEq ▸ hMem),
          Or.inr (Or.inr hListen)⟩
  case held_not_other =>
    exact fun other hIn hOther =>
      hCustody.held_not_other other hIn (Finset.mem_of_mem_erase hOther)
  case listen_not_other =>
    exact fun other hIs hOther =>
      hCustody.listen_not_other other hIs (Finset.mem_of_mem_erase hOther)
  case listen_not_held => exact hCustody.listen_not_held
  case released => exact hCustody.released

/-- The destructor closes the listening socket and nothing else. -/
theorem Custody.destroy {w : AcceptorLoop} (hCustody : Custody w) {a : Acceptor}
    (hAcceptor : w.acceptor = some a) (inLoopThread : Bool) :
    Custody (w.destroy a inLoopThread) := by
  have hGone : (w.destroy a inLoopThread).listenFd = none := rfl
  constructor
  case mem_openFds =>
    intro other
    rw [hGone]
    have hMem := hCustody.mem_openFds other
    by_cases hValid : a.listenSocket.isValid = true
    · have hListen : w.listenFd = some a.listenSocket.fd := by simp [listenFd, hAcceptor, hValid]
      have hOther := hCustody.listen_not_other _ hListen
      have hHeld := hCustody.listen_not_held _ hListen
      rw [hListen] at hMem
      simp only [AcceptorLoop.destroy, hValid, if_true, Finset.mem_erase, hMem, Option.some.injEq]
      constructor
      · rintro ⟨hNe, hIn | hIn | hIn⟩
        · exact Or.inl hIn
        · exact Or.inr (Or.inl hIn)
        · exact absurd hIn.symm hNe
      · rintro (hIn | hIn | hIn)
        · exact ⟨fun hEq => hOther (hEq ▸ hIn), Or.inl hIn⟩
        · exact ⟨fun hEq => hHeld (hEq ▸ hIn), Or.inr (Or.inl hIn)⟩
        · cases hIn
    · have hListen : w.listenFd = none := by simp [listenFd, hAcceptor, hValid]
      rw [hListen] at hMem
      simpa [AcceptorLoop.destroy, hValid] using hMem
  case held_not_other => exact hCustody.held_not_other
  case listen_not_other => exact fun other hIs => by simp [hGone] at hIs
  case listen_not_held => exact fun other hIs => by simp [hGone] at hIs
  case released => exact hCustody.released

/-! ## Every step -/

/-- What a step can do. -/
inductive Move (w : AcceptorLoop) : AcceptorLoop → Prop
  | listen (a : Acceptor) (answers : ListenAnswers) (hAcceptor : w.acceptor = some a)
      (hOnce : ¬(answers.bind ∧ w.bound ∧ a.reachesBind answers)) :
      Move w { w with
        acceptor := some (a.listen answers).1
        bound := w.bound || a.reachesBind answers && answers.bind
        accepting := w.accepting || a.reachesBind answers && answers.bind && answers.listen }
  | callback (a : Acceptor) (set : Bool) (hAcceptor : w.acceptor = some a) :
      Move w { w with acceptor := some { a with newConnectionCallback := set } }
  | arrive (peerAddr : InetAddress) (hAccepting : w.accepting = true) :
      Move w { w with backlog := w.backlog ++ [peerAddr], arrived := w.arrived ++ [peerAddr] }
  | read (now : Bool) : Move w { w with reading := now }
  | hand (fd : Int) (peerAddr : InetAddress) (rest : List InetAddress)
      (hBacklog : w.backlog = peerAddr :: rest) (hFree : fd ∉ w.openFds) :
      Move w { w with
        openFds := insert fd w.openFds
        held := insert fd w.held
        backlog := rest
        taken := w.taken ++ [⟨fd, peerAddr, true⟩] }
  | refuse (fd : Int) (peerAddr : InetAddress) (rest : List InetAddress)
      (hBacklog : w.backlog = peerAddr :: rest) :
      Move w { w with backlog := rest, taken := w.taken ++ [⟨fd, peerAddr, false⟩] }
  | release (fd : Int) (hMem : fd ∈ w.held) :
      Move w { w with
        held := w.held.erase fd
        openFds := w.openFds.erase fd
        released := w.released ++ [fd] }
  | openOther (fd : Int) (hFree : fd ∉ w.openFds) :
      Move w { w with openFds := insert fd w.openFds, others := insert fd w.others }
  | closeOther (fd : Int) (hMem : fd ∈ w.others) :
      Move w { w with openFds := w.openFds.erase fd, others := w.others.erase fd }
  | destroy (a : Acceptor) (inLoopThread : Bool) (hAcceptor : w.acceptor = some a) :
      Move w (w.destroy a inLoopThread)

theorem accept_move {w w' : AcceptorLoop} {a : Acceptor} {answer : AcceptAnswer}
    (hAccept : w.accept a answer = some w') : Move w w' := by
  cases answer with
  | connection fd =>
      simp only [accept] at hAccept
      split at hAccept
      case h_2 => cases hAccept
      case h_1 peerAddr rest hBacklog =>
        split at hAccept
        case isFalse => cases hAccept
        case isTrue hFree =>
          split at hAccept
          case isTrue hCallback =>
            obtain rfl := Option.some.inj hAccept
            rw [hCallback]
            exact .hand fd peerAddr rest hBacklog hFree.2
          case isFalse hCallback =>
            obtain rfl := Option.some.inj hAccept
            rw [Bool.eq_false_of_not_eq_true hCallback]
            exact .refuse fd peerAddr rest hBacklog
  | wouldBlock =>
      simp only [accept] at hAccept
      split at hAccept
      · obtain rfl := Option.some.inj hAccept
        exact .read false
      · cases hAccept
  | failed =>
      obtain rfl := Option.some.inj hAccept
      exact .read false

theorem step_move {w w' : AcceptorLoop} {label : AcceptorLabel}
    (hStep : step w label = some w') : Move w w' := by
  cases label with
  | listen answers =>
      obtain ⟨a, hAcceptor, hListen⟩ := Option.bind_eq_some_iff.mp hStep
      unfold AcceptorLoop.listen at hListen
      split at hListen
      case isTrue => cases hListen
      case isFalse hOnce =>
        obtain rfl := Option.some.inj hListen
        exact .listen a answers hAcceptor hOnce
  | setNewConnectionCallback set =>
      obtain ⟨a, hAcceptor, rfl⟩ := Option.map_eq_some_iff.mp hStep
      exact .callback a set hAcceptor
  | arrive peerAddr =>
      simp only [step] at hStep
      split at hStep
      case isFalse => cases hStep
      case isTrue hAccepting =>
        obtain rfl := Option.some.inj hStep
        exact .arrive peerAddr hAccepting
  | handleRead =>
      obtain ⟨a, -, hRead⟩ := Option.bind_eq_some_iff.mp hStep
      split at hRead
      case isFalse => cases hRead
      case isTrue =>
        obtain rfl := Option.some.inj hRead
        exact .read true
  | accept answer =>
      obtain ⟨a, -, hAccept⟩ := Option.bind_eq_some_iff.mp hStep
      split at hAccept
      · cases hAccept
      split at hAccept
      · exact accept_move hAccept
      · obtain rfl := Option.some.inj hAccept
        exact .read false
  | release fd =>
      simp only [step] at hStep
      split at hStep
      case isFalse => cases hStep
      case isTrue hMem =>
        obtain rfl := Option.some.inj hStep
        exact .release fd hMem
  | openOther fd =>
      simp only [step] at hStep
      split at hStep
      case isFalse => cases hStep
      case isTrue hFree =>
        obtain rfl := Option.some.inj hStep
        exact .openOther fd hFree
  | closeOther fd =>
      simp only [step] at hStep
      split at hStep
      case isFalse => cases hStep
      case isTrue hMem =>
        obtain rfl := Option.some.inj hStep
        exact .closeOther fd hMem
  | destroy inLoopThread =>
      obtain ⟨a, hAcceptor, hDestroy⟩ := Option.bind_eq_some_iff.mp hStep
      split at hDestroy
      case isTrue => cases hDestroy
      case isFalse =>
        obtain rfl := Option.some.inj hDestroy
        exact .destroy a inLoopThread hAcceptor

structure Accounted (w : AcceptorLoop) : Prop where
  regular : ∀ a, w.acceptor = some a → Regular a w.bound w.accepting
  ordered : Ordered w
  custody : Custody w

theorem boot_accounted (listenAddr : InetAddress) (reusePort : Bool) {answer : Int}
    {others : Finset Int} (hAnswer : answer < 0 ∨ answer ∉ others) :
    Accounted (boot listenAddr reusePort answer others) := by
  have hListen : (boot listenAddr reusePort answer others).listenFd =
      if 0 ≤ answer then some answer else none := by
    by_cases hNonneg : 0 ≤ answer
    · simp [listenFd, boot, Acceptor.new, Socket.create, Socket.isValid, hNonneg,
        not_lt.mpr hNonneg]
    · simp [listenFd, boot, Acceptor.new, Socket.create, Socket.isValid, hNonneg,
        not_le.mp hNonneg, kInvalidFd]
  refine ⟨?_, ⟨rfl, fun _ => rfl, by simp [boot], by simp [boot]⟩, ?_⟩
  · intro a hA
    obtain rfl := Option.some.inj hA
    exact regular_new listenAddr reusePort answer
  · constructor
    case mem_openFds =>
      intro fd
      rw [hListen]
      by_cases hNonneg : 0 ≤ answer
      · simp [boot, hNonneg, or_comm, eq_comm]
      · simp [boot, hNonneg]
    case held_not_other => simp [boot]
    case listen_not_other =>
      intro fd hIs
      rw [hListen] at hIs
      split at hIs
      · obtain rfl := Option.some.inj hIs
        rcases hAnswer with hNeg | hFree
        · omega
        · exact hFree
      · cases hIs
    case listen_not_held => simp [boot]
    case released => simp [boot]

/-- What the order of connections depends on. -/
theorem Ordered.of_eq {w w' : AcceptorLoop} (hOrdered : Ordered w)
    (hArrived : w'.arrived = w.arrived) (hTaken : w'.taken = w.taken)
    (hBacklog : w'.backlog = w.backlog) (hReset : w'.reset = w.reset)
    (hAccepting : w'.accepting = w.accepting) (hAcceptor : w'.acceptor.isSome = w.acceptor.isSome) :
    Ordered w' := by
  obtain ⟨hEq, hNoReset, hWait, hAlive⟩ := hOrdered
  refine ⟨?_, ?_, ?_, ?_⟩
  · rw [hArrived, hTaken, hBacklog, hReset]
    exact hEq
  · rw [hAcceptor, hReset]
    exact hNoReset
  · rw [hBacklog, hAccepting]
    exact hWait
  · rw [hAccepting, hAcceptor]
    exact hAlive

/-- The connection at the front of the queue is taken. -/
theorem Ordered.take {w w' : AcceptorLoop} (hOrdered : Ordered w) {peerAddr : InetAddress}
    {rest : List InetAddress} {taken : Taken} (hBacklog : w.backlog = peerAddr :: rest)
    (hTaken : w'.taken = w.taken ++ [taken]) (hPeer : taken.peerAddr = peerAddr)
    (hRest : w'.backlog = rest) (hArrived : w'.arrived = w.arrived) (hReset : w'.reset = w.reset)
    (hAcceptor : w'.acceptor = w.acceptor) (hAccepting : w'.accepting = w.accepting) :
    Ordered w' := by
  obtain ⟨hEq, hNoReset, hWait, hAlive⟩ := hOrdered
  refine ⟨?_, ?_, ?_, ?_⟩
  · rw [hArrived, hEq, hTaken, hRest, hReset, hBacklog, ← hPeer]
    simp
  · rw [hAcceptor, hReset]
    exact hNoReset
  · intro _
    rw [hAccepting]
    exact hWait (by simp [hBacklog])
  · rw [hAccepting, hAcceptor]
    exact hAlive

theorem Move.accounted {w w' : AcceptorLoop} (hMove : Move w w') (hAccounted : Accounted w) :
    Accounted w' := by
  obtain ⟨hRegular, hOrdered, hCustody⟩ := hAccounted
  cases hMove with
  | listen a answers hAcceptor hOnce =>
      obtain ⟨hArrived, hReset, hBacklog, -⟩ := hOrdered
      refine ⟨?_, ⟨hArrived, fun _ => hReset (by rw [hAcceptor]; rfl), ?_, fun _ => rfl⟩,
        hCustody.of_eq rfl rfl rfl ?_ rfl rfl⟩
      · intro next hNext
        obtain rfl := Option.some.inj hNext
        exact (hRegular a hAcceptor).listen answers
      · intro hSome
        simp [hBacklog hSome]
      · simp [listenFd, hAcceptor, listen_listenSocket]
  | callback a set hAcceptor =>
      refine ⟨?_, hOrdered.of_eq rfl rfl rfl rfl rfl (by rw [hAcceptor]; rfl),
        hCustody.of_eq rfl rfl rfl ?_ rfl rfl⟩
      · intro next hNext
        obtain rfl := Option.some.inj hNext
        obtain ⟨hListening, hBound, hChannel, hValid⟩ := hRegular a hAcceptor
        exact ⟨hListening, hBound, hChannel, hValid⟩
      · simp [listenFd, hAcceptor]
  | arrive peerAddr hAccepting =>
      obtain ⟨hArrived, hReset, -, hAlive⟩ := hOrdered
      refine ⟨hRegular, ⟨?_, hReset, fun _ => hAccepting, hAlive⟩,
        hCustody.of_eq rfl rfl rfl rfl rfl rfl⟩
      simp [hArrived, hReset (hAlive hAccepting)]
  | read now =>
      exact ⟨hRegular, hOrdered.of_eq rfl rfl rfl rfl rfl rfl,
        hCustody.of_eq rfl rfl rfl rfl rfl rfl⟩
  | hand fd peerAddr rest hBacklog hFree =>
      exact ⟨hRegular, hOrdered.take hBacklog rfl rfl rfl rfl rfl rfl rfl,
        hCustody.hand hFree peerAddr rest⟩
  | refuse fd peerAddr rest hBacklog =>
      exact ⟨hRegular, hOrdered.take hBacklog rfl rfl rfl rfl rfl rfl rfl,
        hCustody.refuse fd peerAddr rest⟩
  | release fd hMem =>
      exact ⟨hRegular, hOrdered.of_eq rfl rfl rfl rfl rfl rfl, hCustody.release hMem⟩
  | openOther fd hFree =>
      exact ⟨hRegular, hOrdered.of_eq rfl rfl rfl rfl rfl rfl, hCustody.openOther hFree⟩
  | closeOther fd hMem =>
      exact ⟨hRegular, hOrdered.of_eq rfl rfl rfl rfl rfl rfl, hCustody.closeOther hMem⟩
  | destroy a inLoopThread hAcceptor =>
      obtain ⟨hArrived, hReset, -, -⟩ := hOrdered
      have hNoReset : w.reset = [] := hReset (by rw [hAcceptor]; rfl)
      rw [hNoReset, List.append_nil] at hArrived
      refine ⟨?_, ⟨?_, ?_, ?_, ?_⟩, hCustody.destroy hAcceptor inLoopThread⟩
      · intro next hNext
        cases hNext
      · rw [AcceptorLoop.destroy, hArrived, List.append_nil]
      · simp [AcceptorLoop.destroy]
      · simp [AcceptorLoop.destroy]
      · simp [AcceptorLoop.destroy]

theorem exec_accounted {w w' : AcceptorLoop} {labels : List AcceptorLabel}
    (hAccounted : Accounted w) (hRun : exec step w labels = some w') : Accounted w' :=
  exec_invariant Accounted (fun _ _ _ hInv hStep => (step_move hStep).accounted hInv)
    hAccounted hRun

/-! ## A socket that was bound in vain -/

/-- The socket is bound, and the kernel does not listen on it. -/
def BoundInVain (w : AcceptorLoop) : Prop := w.bound = true ∧ w.accepting = false

theorem Move.boundInVain {w w' : AcceptorLoop} (hMove : Move w w') (hVain : BoundInVain w) :
    BoundInVain w' ∧ w'.arrived = w.arrived := by
  obtain ⟨hBound, hIdle⟩ := hVain
  cases hMove with
  | listen a answers hAcceptor hOnce =>
      have hNoBind : (a.reachesBind answers && answers.bind) = false := by
        by_contra hReached
        rw [Bool.not_eq_false, Bool.and_eq_true] at hReached
        exact hOnce ⟨hReached.2, hBound, hReached.1⟩
      exact ⟨⟨by simp [hBound], by simp [hIdle, hNoBind]⟩, rfl⟩
  | arrive peerAddr hAccepting => simp [hIdle] at hAccepting
  | destroy a inLoopThread hAcceptor => exact ⟨⟨hBound, rfl⟩, rfl⟩
  | callback | read | hand | refuse | release | openOther | closeOther =>
      exact ⟨⟨hBound, hIdle⟩, rfl⟩

theorem exec_boundInVain {w w' : AcceptorLoop} {labels : List AcceptorLabel}
    (hVain : BoundInVain w) (hRun : exec step w labels = some w') :
    BoundInVain w' ∧ w'.arrived = w.arrived := by
  refine exec_invariant (fun next => BoundInVain next ∧ next.arrived = w.arrived) ?_
    ⟨hVain, rfl⟩ hRun
  intro s label next hInv hStep
  obtain ⟨hNext, hArrived⟩ := (step_move hStep).boundInVain hInv.1
  exact ⟨hNext, hArrived.trans hInv.2⟩

/-- Whatever the kernel answers and whatever the order of the calls, connections are taken
in the order of their arrival and none is lost while the acceptor lives.  What is open is
what the rest of the process has, what the receivers have not closed yet, and the
listening socket; each descriptor that was handed over is closed at most once.  The
acceptor is registered for reading exactly while it listens, so a connection that waits is
always reported.  Its destructor leaves an entry in the poller exactly when it runs on
another thread after a successful `Listen`.  And when `::listen` failed on a bound socket,
no later call of `Listen` can succeed. -/
theorem acceptor_accounts_for_connections {listenAddr : InetAddress} {reusePort : Bool}
    {answer : Int} {others : Finset Int} (hAnswer : answer < 0 ∨ answer ∉ others)
    {labels : List AcceptorLabel} {w : AcceptorLoop}
    (hRun : exec step (boot listenAddr reusePort answer others) labels = some w) :
    w.arrived = w.taken.map Taken.peerAddr ++ w.backlog ++ w.reset ∧
      (∀ fd, fd ∈ w.openFds ↔ fd ∈ w.others ∨ fd ∈ w.held ∨ w.listenFd = some fd) ∧
      (∀ fd, ((w.taken.filter Taken.handed).map Taken.fd).count fd =
        w.released.count fd + if fd ∈ w.held then 1 else 0) ∧
      (∀ a, w.acceptor = some a →
        w.reset = [] ∧ (watched a = true ↔ a.listening = true) ∧
        (w.backlog ≠ [] → watched a = true) ∧
        ∀ inLoopThread w' channel, step w (.destroy inLoopThread) = some w' →
          w'.leftover = some channel → channel.interest = none ∧
            (channel.mapped = true ↔ inLoopThread = false ∧ a.listening = true)) ∧
      (BoundInVain w → ∀ more w', exec step w more = some w' →
        BoundInVain w' ∧ w'.arrived = w.arrived) := by
  obtain ⟨hRegular, hOrdered, hCustody⟩ :=
    exec_accounted (boot_accounted listenAddr reusePort hAnswer) hRun
  refine ⟨hOrdered.arrived_eq, hCustody.mem_openFds, hCustody.released, ?_,
    fun hVain more w' hMore => exec_boundInVain hVain hMore⟩
  intro a hAcceptor
  have hA := hRegular a hAcceptor
  refine ⟨hOrdered.reset_of_alive (by rw [hAcceptor]; rfl), hA.watched_iff, ?_, ?_⟩
  · intro hSome
    rw [hA.watched_iff, hA.listening_eq]
    exact hOrdered.accepting_of_backlog hSome
  · intro inLoopThread w' channel hStep hLeft
    simp only [step, hAcceptor, Option.bind_some] at hStep
    split at hStep
    case isTrue => cases hStep
    case isFalse =>
      obtain rfl := Option.some.inj hStep
      exact hA.leftover inLoopThread hLeft

/-- Two clients arrive; the first is handed over and closed by its receiver, the second
finds no callback. -/
theorem acceptor_accounts_for_connections_twoClients :
    ∃ w, exec step (boot InetAddress.new true 3 {0, 1, 2})
        [.listen ⟨true, true, true, true, none⟩, .setNewConnectionCallback true,
          .arrive InetAddress.new, .arrive InetAddress.new, .handleRead, .accept (.connection 4),
          .setNewConnectionCallback false, .accept (.connection 5), .accept .wouldBlock,
          .release 4] = some w ∧
      w.taken.map Taken.fd = [4, 5] ∧ w.released = [4] ∧ w.backlog = [] ∧
      w.arrived = w.taken.map Taken.peerAddr ++ w.backlog ++ w.reset := by
  obtain ⟨w, hRun, hTaken, hReleased, hBacklog⟩ :
      ∃ w, exec step (boot InetAddress.new true 3 {0, 1, 2})
          [.listen ⟨true, true, true, true, none⟩, .setNewConnectionCallback true,
            .arrive InetAddress.new, .arrive InetAddress.new, .handleRead, .accept (.connection 4),
            .setNewConnectionCallback false, .accept (.connection 5), .accept .wouldBlock,
            .release 4] = some w ∧
        w.taken.map Taken.fd = [4, 5] ∧ w.released = [4] ∧ w.backlog = [] :=
    ⟨_, rfl, rfl, rfl, rfl⟩
  exact ⟨w, hRun, hTaken, hReleased, hBacklog,
    (acceptor_accounts_for_connections (by decide) hRun).1⟩

end AcceptorLoop
end SolarNet
