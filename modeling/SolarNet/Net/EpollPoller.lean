import SolarNet.Net.Channel
import Mathlib.Logic.Function.Basic
import Mathlib.Logic.Embedding.Basic

/-!
# `EpollPoller` with all channels of a loop

The poller of one loop, with the map `m_channels` from descriptors to channels and the
interest set that the kernel keeps for the epoll descriptor.  The channels are the
elements of a type, their descriptors are different, and each operation is one of the
functions of `Channel` that reach the poller.

Seen from one channel, the poller is the single channel of `SolarNet.Net.Channel`
(`seen_apply_self`, `seen_apply_other`), so the facts about that model are facts about
every channel of the poller.
-/

namespace SolarNet

/-- The functions of a channel that go through to the poller. -/
inductive ChannelOp where
  | enableReading
  | disableReading
  | enableWriting
  | disableWriting
  | disableAll
  | remove
  deriving DecidableEq, Repr

/-- What an operation does to `m_events`. -/
def ChannelOp.mask : ChannelOp → PollEvents → PollEvents
  | .enableReading, events => events.union Channel.kReadEvent
  | .disableReading, events => events.without Channel.kReadEvent
  | .enableWriting, events => events.union Channel.kWriteEvent
  | .disableWriting, events => events.without Channel.kWriteEvent
  | .disableAll, _ => Channel.kNoneEvent
  | .remove, events => events

/-- The operation on a single channel. -/
def Channel.apply (c : Channel) : ChannelOp → Channel
  | .enableReading => c.enableReading
  | .disableReading => c.disableReading
  | .enableWriting => c.enableWriting
  | .disableWriting => c.disableWriting
  | .disableAll => c.disableAll
  | .remove => c.removeChannel

/-- One `epoll_ctl`: its operation, its descriptor, and whether it succeeded. -/
structure EpollCall where
  op : EpollOp
  fd : Nat
  succeeded : Bool
  deriving DecidableEq, Repr

/-- What the epoll set holds for each descriptor: `events` and `data.ptr`. -/
abbrev InterestSet (ι : Type*) := Nat → Option (PollEvents × ι)

/-- `epoll_ctl` of the kernel: it adds an absent descriptor, and modifies or deletes a
present one. -/
def epollCtl {ι : Type*} (interest : InterestSet ι) (op : EpollOp) (fd : Nat)
    (event : PollEvents × ι) : Option (InterestSet ι) :=
  match op, interest fd with
  | .add, none => some (Function.update interest fd (some event))
  | .mod, some _ => some (Function.update interest fd (some event))
  | .del, some _ => some (Function.update interest fd none)
  | _, _ => none

/-- The poller, the masks and indices of its channels, and the history: the calls of
`epoll_ctl`, the last operation of each channel, and whether `UpdateChannel` ever found
an entry where it asserts that there is none. -/
structure EpollPoller (ι : Type*) where
  events : ι → PollEvents
  index : ι → PollerIndex
  /-- `m_channels`. -/
  channels : Nat → Option ι
  interest : InterestSet ι
  calls : List EpollCall
  last : ι → Option ChannelOp
  newFdFound : Bool

namespace EpollPoller

variable {ι : Type*}

/-- A loop and channels that have done nothing yet. -/
def new : EpollPoller ι where
  events _ := Channel.kNoneEvent
  index _ := .kNew
  channels _ := none
  interest _ := none
  calls := []
  last _ := none
  newFdFound := false

def isNoneEvent (p : EpollPoller ι) (ch : ι) : Bool := p.events ch == Channel.kNoneEvent

variable [DecidableEq ι]

def setEvents (p : EpollPoller ι) (ch : ι) (events : PollEvents) : EpollPoller ι :=
  { p with events := Function.update p.events ch events }

def setIndex (p : EpollPoller ι) (ch : ι) (index : PollerIndex) : EpollPoller ι :=
  { p with index := Function.update p.index ch index }

variable (fd : ι ↪ Nat)

/-- `HasChannel`. -/
def hasChannel (p : EpollPoller ι) (ch : ι) : Bool := p.channels (fd ch) == some ch

/-- `Update`.  A call that fails is logged. -/
def update (p : EpollPoller ι) (op : EpollOp) (ch : ι) : EpollPoller ι :=
  match epollCtl p.interest op (fd ch) (p.events ch, ch) with
  | some interest =>
      { p with interest := interest, calls := p.calls ++ [⟨op, fd ch, true⟩] }
  | none => { p with calls := p.calls ++ [⟨op, fd ch, false⟩] }

/-- The assertion of `UpdateChannel` and `m_channels[fd] = channel`. -/
def insert (p : EpollPoller ι) (ch : ι) : EpollPoller ι :=
  { p with
    newFdFound := p.newFdFound || (p.channels (fd ch)).isSome
    channels := Function.update p.channels (fd ch) (some ch) }

/-- `UpdateChannel`. -/
def updateChannel (p : EpollPoller ι) (ch : ι) : EpollPoller ι :=
  match p.index ch with
  | .kNew =>
      if p.isNoneEvent ch then p.insert fd ch
      else ((p.insert fd ch).update fd .add ch).setIndex ch .kAdded
  | .kDeleted =>
      if p.isNoneEvent ch then p else (p.update fd .add ch).setIndex ch .kAdded
  | .kAdded =>
      if p.isNoneEvent ch then (p.update fd .del ch).setIndex ch .kDeleted
      else p.update fd .mod ch

/-- `m_channels.erase(channel->Fd())`. -/
def erase (p : EpollPoller ι) (ch : ι) : EpollPoller ι :=
  { p with channels := Function.update p.channels (fd ch) none }

/-- `RemoveChannel`. -/
def removeChannel (p : EpollPoller ι) (ch : ι) : EpollPoller ι :=
  if p.index ch = .kAdded then ((p.erase fd ch).update fd .del ch).setIndex ch .kNew
  else (p.erase fd ch).setIndex ch .kNew

/-- An operation of a channel, up to the bookkeeping of the last one. -/
def call (p : EpollPoller ι) (ch : ι) : ChannelOp → EpollPoller ι
  | .remove => p.removeChannel fd ch
  | op => (p.setEvents ch (op.mask (p.events ch))).updateChannel fd ch

def apply (p : EpollPoller ι) (ch : ι) (op : ChannelOp) : EpollPoller ι :=
  { p.call fd ch op with last := Function.update p.last ch (some op) }

/-! ## One channel -/

/-- What the poller and the kernel know about one channel. -/
def seen (p : EpollPoller ι) (ch : ι) : Channel where
  events := p.events ch
  revents := Channel.kNoneEvent
  index := p.index ch
  tied := false
  mapped := p.hasChannel fd ch
  interest := (p.interest (fd ch)).map Prod.fst

theorem seen_new (ch : ι) : (new : EpollPoller ι).seen fd ch = Channel.new := by
  simp [seen, new, Channel.new, hasChannel]

theorem seen_setEvents_self (p : EpollPoller ι) (ch : ι) (events : PollEvents) :
    (p.setEvents ch events).seen fd ch = { p.seen fd ch with events := events } := by
  simp [seen, setEvents, hasChannel]

theorem seen_setIndex_self (p : EpollPoller ι) (ch : ι) (index : PollerIndex) :
    (p.setIndex ch index).seen fd ch = { p.seen fd ch with index := index } := by
  simp [seen, setIndex, hasChannel]

theorem seen_insert_self (p : EpollPoller ι) (ch : ι) :
    (p.insert fd ch).seen fd ch = { p.seen fd ch with mapped := true } := by
  simp [seen, insert, hasChannel]

theorem seen_erase_self (p : EpollPoller ι) (ch : ι) :
    (p.erase fd ch).seen fd ch = { p.seen fd ch with mapped := false } := by
  simp [seen, erase, hasChannel]

theorem seen_update_self (p : EpollPoller ι) (op : EpollOp) (ch : ι) :
    (p.update fd op ch).seen fd ch = (p.seen fd ch).epollCtl op := by
  cases op <;> cases hHeld : p.interest (fd ch) <;>
    simp [update, epollCtl, Channel.epollCtl, seen, hasChannel, hHeld]

theorem seen_updateChannel_self (p : EpollPoller ι) (ch : ι) :
    (p.updateChannel fd ch).seen fd ch = (p.seen fd ch).updateChannel := by
  have hSeenIndex : (p.seen fd ch).index = p.index ch := rfl
  have hSeenEvents : (p.seen fd ch).events = p.events ch := rfl
  by_cases hEmpty : p.events ch = Channel.kNoneEvent
  · cases hIndex : p.index ch <;>
      simp [updateChannel, Channel.updateChannel, isNoneEvent, Channel.isNoneEvent,
        hSeenIndex, hSeenEvents, hIndex, hEmpty, seen_setIndex_self, seen_update_self,
        seen_insert_self]
  · cases hIndex : p.index ch <;>
      simp [updateChannel, Channel.updateChannel, isNoneEvent, Channel.isNoneEvent,
        hSeenIndex, hSeenEvents, hIndex, hEmpty, seen_setIndex_self, seen_update_self,
        seen_insert_self]

theorem seen_removeChannel_self (p : EpollPoller ι) (ch : ι) :
    (p.removeChannel fd ch).seen fd ch = (p.seen fd ch).removeChannel := by
  have hIndex : (p.seen fd ch).index = p.index ch := rfl
  unfold removeChannel Channel.removeChannel
  rw [hIndex]
  split <;> simp [seen_setIndex_self, seen_update_self, seen_erase_self, hIndex]

/-- An operation does to its channel what it does to a single one. -/
theorem seen_apply_self (p : EpollPoller ι) (ch : ι) (op : ChannelOp) :
    (p.apply fd ch op).seen fd ch = (p.seen fd ch).apply op := by
  have hSeen : (p.apply fd ch op).seen fd ch = (p.call fd ch op).seen fd ch := rfl
  rw [hSeen]
  cases op with
  | remove => exact seen_removeChannel_self fd p ch
  | _ =>
      unfold call
      rw [seen_updateChannel_self, seen_setEvents_self]
      rfl

/-! ## The other channels -/

/-- `p'` comes from `p` by what an operation of `ch` may do: nothing changes for other
channels and other descriptors, and entries that are made for `fd ch` are entries of
`ch`. -/
structure Local (ch : ι) (p p' : EpollPoller ι) : Prop where
  events_eq : ∀ other, other ≠ ch → p'.events other = p.events other
  index_eq : ∀ other, other ≠ ch → p'.index other = p.index other
  channels_eq : ∀ f, f ≠ fd ch → p'.channels f = p.channels f
  interest_eq : ∀ f, f ≠ fd ch → p'.interest f = p.interest f
  channels_own : p'.channels (fd ch) = p.channels (fd ch) ∨
    ∀ owner ∈ p'.channels (fd ch), owner = ch
  interest_own : p'.interest (fd ch) = p.interest (fd ch) ∨
    ∀ held ∈ p'.interest (fd ch), held.2 = ch

namespace Local

variable {fd} {ch : ι} {p p' p'' : EpollPoller ι}

omit [DecidableEq ι] in
theorem trans (hFirst : Local fd ch p p') (hSecond : Local fd ch p' p'') :
    Local fd ch p p'' where
  events_eq other hOther := (hSecond.events_eq other hOther).trans (hFirst.events_eq other hOther)
  index_eq other hOther := (hSecond.index_eq other hOther).trans (hFirst.index_eq other hOther)
  channels_eq f hf := (hSecond.channels_eq f hf).trans (hFirst.channels_eq f hf)
  interest_eq f hf := (hSecond.interest_eq f hf).trans (hFirst.interest_eq f hf)
  channels_own := by
    rcases hSecond.channels_own with hSame | hOwn
    · rw [hSame]
      exact hFirst.channels_own
    · exact Or.inr hOwn
  interest_own := by
    rcases hSecond.interest_own with hSame | hOwn
    · rw [hSame]
      exact hFirst.interest_own
    · exact Or.inr hOwn

theorem seen_eq (hLocal : Local fd ch p p') {other : ι} (hOther : other ≠ ch) :
    p'.seen fd other = p.seen fd other := by
  have hFd : fd other ≠ fd ch := fun hEq => hOther (fd.injective hEq)
  simp [seen, hasChannel, hLocal.events_eq other hOther, hLocal.index_eq other hOther,
    hLocal.channels_eq _ hFd, hLocal.interest_eq _ hFd]

end Local

variable (p : EpollPoller ι) (ch : ι)

omit [DecidableEq ι] in
theorem local_refl : Local fd ch p p :=
  ⟨fun _ _ => rfl, fun _ _ => rfl, fun _ _ => rfl, fun _ _ => rfl, Or.inl rfl, Or.inl rfl⟩

theorem local_setEvents (events : PollEvents) : Local fd ch p (p.setEvents ch events) :=
  { local_refl fd p ch with
    events_eq := fun _ hOther => Function.update_of_ne hOther _ _ }

theorem local_setIndex (index : PollerIndex) : Local fd ch p (p.setIndex ch index) :=
  { local_refl fd p ch with
    index_eq := fun _ hOther => Function.update_of_ne hOther _ _ }

omit [DecidableEq ι] in
theorem local_insert : Local fd ch p (p.insert fd ch) :=
  { local_refl fd p ch with
    channels_eq := fun _ hf => Function.update_of_ne hf _ _
    channels_own := Or.inr (by simp [insert]) }

omit [DecidableEq ι] in
theorem local_erase : Local fd ch p (p.erase fd ch) :=
  { local_refl fd p ch with
    channels_eq := fun _ hf => Function.update_of_ne hf _ _
    channels_own := Or.inr (by simp [erase]) }

omit [DecidableEq ι] in
/-- What a successful `epoll_ctl` leaves behind. -/
theorem epollCtl_eq_some {interest interest' : InterestSet ι} {op : EpollOp} {f : Nat}
    {event : PollEvents × ι} (hCtl : epollCtl interest op f event = some interest') :
    interest' = Function.update interest f (if op = .del then none else some event) := by
  unfold epollCtl at hCtl
  split at hCtl <;> simp_all

omit [DecidableEq ι] in
theorem local_update (op : EpollOp) : Local fd ch p (p.update fd op ch) := by
  unfold update
  cases hCtl : epollCtl p.interest op (fd ch) (p.events ch, ch) with
  | none => exact { local_refl fd p ch with }
  | some interest =>
      rw [epollCtl_eq_some hCtl]
      refine { local_refl fd p ch with
        interest_eq := fun _ hf => Function.update_of_ne hf _ _
        interest_own := Or.inr ?_ }
      cases op <;> simp

theorem local_updateChannel : Local fd ch p (p.updateChannel fd ch) := by
  have hAdd : ∀ q : EpollPoller ι, Local fd ch q ((q.update fd .add ch).setIndex ch .kAdded) :=
    fun q => (local_update fd q ch .add).trans (local_setIndex fd _ ch .kAdded)
  unfold updateChannel
  split
  · split
    · exact local_insert fd p ch
    · exact (local_insert fd p ch).trans (hAdd _)
  · split
    · exact local_refl fd p ch
    · exact hAdd p
  · split
    · exact (local_update fd p ch .del).trans (local_setIndex fd _ ch .kDeleted)
    · exact local_update fd p ch .mod

theorem local_removeChannel : Local fd ch p (p.removeChannel fd ch) := by
  unfold removeChannel
  split
  · exact (local_erase fd p ch).trans
      ((local_update fd _ ch .del).trans (local_setIndex fd _ ch .kNew))
  · exact (local_erase fd p ch).trans (local_setIndex fd _ ch .kNew)

theorem local_apply (op : ChannelOp) : Local fd ch p (p.apply fd ch op) := by
  have hCall : Local fd ch p (p.call fd ch op) := by
    cases op with
    | remove => exact local_removeChannel fd p ch
    | _ => exact (local_setEvents fd p ch _).trans (local_updateChannel fd _ ch)
  exact { hCall with }

/-- An operation does nothing to the other channels. -/
theorem seen_apply_other (op : ChannelOp) {other : ι} (hOther : other ≠ ch) :
    (p.apply fd ch op).seen fd other = p.seen fd other :=
  (local_apply fd p ch op).seen_eq hOther

end EpollPoller
end SolarNet
