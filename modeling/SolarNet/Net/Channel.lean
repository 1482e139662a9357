import Mathlib.Tactic

/-!
# `Channel` and its registration with `EpollPoller`

The event masks of a channel, and the functions of
`solar_net/net/epoll_poller.cpp` by which a channel enters and leaves the
poller.  Channels of one loop have different descriptors, so what the poller
knows about a descriptor is kept beside its channel: whether `m_channels` has an
entry for it, and what the epoll set of the kernel holds for it.

Assertions of the source do not stop the model: it continues as a build with
`NDEBUG` does.
-/

namespace SolarNet

/-- A mask of `poll` events. -/
structure PollEvents where
  pollin : Bool := false
  pollpri : Bool := false
  pollout : Bool := false
  pollerr : Bool := false
  pollhup : Bool := false
  pollrdhup : Bool := false
  pollnval : Bool := false
  deriving DecidableEq, Repr

namespace PollEvents

/-- `events |= more`. -/
def union (events more : PollEvents) : PollEvents where
  pollin := events.pollin || more.pollin
  pollpri := events.pollpri || more.pollpri
  pollout := events.pollout || more.pollout
  pollerr := events.pollerr || more.pollerr
  pollhup := events.pollhup || more.pollhup
  pollrdhup := events.pollrdhup || more.pollrdhup
  pollnval := events.pollnval || more.pollnval

/-- `events &= ~less`. -/
def without (events less : PollEvents) : PollEvents where
  pollin := events.pollin && !less.pollin
  pollpri := events.pollpri && !less.pollpri
  pollout := events.pollout && !less.pollout
  pollerr := events.pollerr && !less.pollerr
  pollhup := events.pollhup && !less.pollhup
  pollrdhup := events.pollrdhup && !less.pollrdhup
  pollnval := events.pollnval && !less.pollnval

/-- The test that makes `HandleEventWithGuard` run the close callback. -/
def closes (revents : PollEvents) : Bool := revents.pollhup && !revents.pollin

/-- The test for the error callback. -/
def fails (revents : PollEvents) : Bool := revents.pollerr || revents.pollnval

/-- The test for the read callback. -/
def reads (revents : PollEvents) : Bool :=
  revents.pollin || revents.pollpri || revents.pollrdhup

/-- The test for the write callback. -/
def writes (revents : PollEvents) : Bool := revents.pollout

end PollEvents

/-- `Channel::Index`. -/
inductive PollerIndex where
  | kNew
  | kAdded
  | kDeleted
  deriving DecidableEq, Repr

/-- The operation of an `epoll_ctl`. -/
inductive EpollOp where
  | add
  | mod
  | del
  deriving DecidableEq, Repr

structure Channel where
  events : PollEvents
  revents : PollEvents
  index : PollerIndex
  /-- `m_tied`. -/
  tied : Bool
  /-- `m_channels` of the poller has an entry for the descriptor. -/
  mapped : Bool
  /-- What the epoll set holds for the descriptor. -/
  interest : Option PollEvents
  deriving DecidableEq, Repr

namespace Channel

def kNoneEvent : PollEvents := {}

def kReadEvent : PollEvents := { pollin := true, pollpri := true }

def kWriteEvent : PollEvents := { pollout := true }

/-- `Channel(loop, fd)`. -/
def new : Channel where
  events := kNoneEvent
  revents := kNoneEvent
  index := .kNew
  tied := false
  mapped := false
  interest := none

def isNoneEvent (c : Channel) : Bool := c.events == kNoneEvent

def isReading (c : Channel) : Bool := c.events.pollin || c.events.pollpri

def isWriting (c : Channel) : Bool := c.events.pollout

/-- `EpollPoller::Update`.  An `ADD` of a present descriptor and a `MOD` or `DEL`
of an absent one fail and change nothing. -/
def epollCtl (c : Channel) (op : EpollOp) : Channel :=
  match op, c.interest with
  | .add, none => { c with interest := some c.events }
  | .mod, some _ => { c with interest := some c.events }
  | .del, some _ => { c with interest := none }
  | _, _ => c

/-- `EpollPoller::UpdateChannel`. -/
def updateChannel (c : Channel) : Channel :=
  match c.index with
  | .kNew =>
      let c := { c with mapped := true }
      if c.isNoneEvent then c else { c.epollCtl .add with index := .kAdded }
  | .kDeleted =>
      if c.isNoneEvent then c else { c.epollCtl .add with index := .kAdded }
  | .kAdded =>
      if c.isNoneEvent then { c.epollCtl .del with index := .kDeleted }
      else c.epollCtl .mod

/-- `EpollPoller::RemoveChannel`. -/
def removeChannel (c : Channel) : Channel :=
  let c' := { c with mapped := false }
  { (if c.index = .kAdded then c'.epollCtl .del else c') with index := .kNew }

def enableReading (c : Channel) : Channel :=
  { c with events := c.events.union kReadEvent }.updateChannel

def disableReading (c : Channel) : Channel :=
  { c with events := c.events.without kReadEvent }.updateChannel

def enableWriting (c : Channel) : Channel :=
  { c with events := c.events.union kWriteEvent }.updateChannel

def disableWriting (c : Channel) : Channel :=
  { c with events := c.events.without kWriteEvent }.updateChannel

def disableAll (c : Channel) : Channel :=
  { c with events := kNoneEvent }.updateChannel

def setTie (c : Channel) : Channel := { c with tied := true }

def setRevents (c : Channel) (revents : PollEvents) : Channel := { c with revents := revents }

@[simp] theorem epollCtl_events (c : Channel) (op : EpollOp) :
    (c.epollCtl op).events = c.events := by
  unfold epollCtl
  split <;> rfl

@[simp] theorem epollCtl_index (c : Channel) (op : EpollOp) :
    (c.epollCtl op).index = c.index := by
  unfold epollCtl
  split <;> rfl

@[simp] theorem updateChannel_events (c : Channel) : c.updateChannel.events = c.events := by
  cases hIndex : c.index <;> by_cases hNone : c.events = kNoneEvent <;>
    simp [updateChannel, hIndex, isNoneEvent, hNone]

@[simp] theorem isWriting_enableReading (c : Channel) :
    c.enableReading.isWriting = c.isWriting := by
  simp [isWriting, enableReading, PollEvents.union, kReadEvent]

@[simp] theorem isWriting_enableWriting (c : Channel) : c.enableWriting.isWriting = true := by
  simp [isWriting, enableWriting, PollEvents.union, kWriteEvent]

@[simp] theorem isWriting_disableWriting (c : Channel) :
    c.disableWriting.isWriting = false := by
  simp [isWriting, disableWriting, PollEvents.without, kWriteEvent]

@[simp] theorem isWriting_disableAll (c : Channel) : c.disableAll.isWriting = false := by
  simp [isWriting, disableAll, kNoneEvent]

/-! ## The registration invariant -/

/-- The epoll set holds the events of the channel exactly while its index is
`kAdded`, and a channel with an index is in `m_channels`. -/
structure Registered (c : Channel) : Prop where
  interest_eq : c.interest = if c.index = .kAdded then some c.events else none
  mapped_of_index : c.index ≠ .kNew → c.mapped = true

theorem new_registered : new.Registered := ⟨rfl, fun hIndex => absurd rfl hIndex⟩

/-- `UpdateChannel` after a change of the mask. -/
theorem updateChannel_registered {c : Channel} (hRegistered : c.Registered)
    (events : PollEvents) : ({ c with events := events }.updateChannel).Registered := by
  obtain ⟨hInterest, hMapped⟩ := hRegistered
  by_cases hNone : events = kNoneEvent
  · cases hIndex : c.index <;> constructor <;>
      simp_all [updateChannel, isNoneEvent, epollCtl]
  · cases hIndex : c.index <;> constructor <;>
      simp_all [updateChannel, isNoneEvent, epollCtl]

theorem removeChannel_registered {c : Channel} (hRegistered : c.Registered) :
    c.removeChannel.Registered := by
  obtain ⟨hInterest, -⟩ := hRegistered
  cases hIndex : c.index <;> constructor <;> simp_all [removeChannel, epollCtl]

/-! ## The index -/

theorem updateChannel_index {c : Channel} (hIndex : c.index ≠ .kNew) :
    c.updateChannel.index ≠ .kNew := by
  cases hOld : c.index with
  | kNew => exact absurd hOld hIndex
  | kAdded => by_cases hNone : c.isNoneEvent = true <;> simp [updateChannel, hOld, hNone]
  | kDeleted => by_cases hNone : c.isNoneEvent = true <;> simp [updateChannel, hOld, hNone]

/-- A channel with read events is in the epoll set. -/
theorem enableReading_index (c : Channel) : c.enableReading.index = .kAdded := by
  have hSome : (c.events.union kReadEvent == kNoneEvent) = false := by
    simp [PollEvents.union, kReadEvent, kNoneEvent]
  cases hIndex : c.index <;>
    simp [enableReading, updateChannel, isNoneEvent, hIndex, hSome]

@[simp] theorem removeChannel_index (c : Channel) : c.removeChannel.index = .kNew := rfl

@[simp] theorem isWriting_removeChannel (c : Channel) :
    c.removeChannel.isWriting = c.isWriting := by
  unfold removeChannel isWriting
  split <;> simp

end Channel
end SolarNet
