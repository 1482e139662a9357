import SolarNet.Lib.Run
import SolarNet.Net.EpollPoller

/-!
# What the kernel and the map know about the channels

`Channel::Index` stands for what the poller has told the kernel and for the entry of the
channel in `m_channels`.  The first result of this file is that it tells the kernel's
part exactly: after any operations on any channels the interest set is the set of the
channels with index `kAdded`.  The second is when it tells the entry: as long as no
channel with index -1 is asked to drop events.
-/

namespace SolarNet

open Lib

namespace Channel

/-- `UpdateChannel` leaves a channel in the epoll set exactly when it has events. -/
theorem updateChannel_added_iff (c : Channel) :
    c.updateChannel.index = .kAdded ↔ c.events ≠ kNoneEvent := by
  by_cases hNone : c.events = kNoneEvent
  · cases hIndex : c.index <;> simp [updateChannel, isNoneEvent, hIndex, hNone]
  · cases hIndex : c.index <;> simp [updateChannel, isNoneEvent, hIndex, hNone]

theorem apply_eq_updateChannel (c : Channel) {op : ChannelOp} (hOp : op ≠ .remove) :
    c.apply op = { c with events := op.mask c.events }.updateChannel := by
  cases op with
  | remove => exact absurd rfl hOp
  | _ => rfl

theorem apply_registered {c : Channel} (hRegistered : c.Registered) (op : ChannelOp) :
    (c.apply op).Registered := by
  by_cases hOp : op = .remove
  · rw [hOp]
    exact removeChannel_registered hRegistered
  · rw [apply_eq_updateChannel c hOp]
    exact updateChannel_registered hRegistered _

theorem apply_added_iff (c : Channel) (op : ChannelOp) :
    (c.apply op).index = .kAdded ↔ (c.apply op).events ≠ kNoneEvent ∧ op ≠ .remove := by
  by_cases hOp : op = .remove
  · simp [hOp, apply]
  · rw [apply_eq_updateChannel c hOp, updateChannel_added_iff, updateChannel_events]
    simp [hOp]

/-- `UpdateChannel` makes an entry for every channel without an index, and gives it an
index when it has events. -/
theorem updateChannel_mapped (c : Channel) :
    c.updateChannel.mapped = (c.mapped || c.index == .kNew) := by
  by_cases hNone : c.events = kNoneEvent
  · cases hIndex : c.index <;> cases hHeld : c.interest <;>
      simp [updateChannel, isNoneEvent, epollCtl, hIndex, hNone, hHeld]
  · cases hIndex : c.index <;> cases hHeld : c.interest <;>
      simp [updateChannel, isNoneEvent, epollCtl, hIndex, hNone, hHeld]

theorem updateChannel_new_iff (c : Channel) :
    c.updateChannel.index = .kNew ↔ c.index = .kNew ∧ c.events = kNoneEvent := by
  by_cases hNone : c.events = kNoneEvent
  · cases hIndex : c.index <;> simp [updateChannel, isNoneEvent, hIndex, hNone]
  · cases hIndex : c.index <;> simp [updateChannel, isNoneEvent, hIndex, hNone]

@[simp] theorem removeChannel_mapped (c : Channel) : c.removeChannel.mapped = false := by
  cases hIndex : c.index <;> cases hHeld : c.interest <;>
    simp [removeChannel, epollCtl, hIndex, hHeld]

@[simp] theorem removeChannel_events (c : Channel) : c.removeChannel.events = c.events := by
  unfold removeChannel
  split <;> simp

end Channel

/-- The operations that drop events. -/
def ChannelOp.disables : ChannelOp → Bool
  | .disableReading | .disableWriting | .disableAll => true
  | _ => false

/-- Of a mask without events, they leave a mask without events; the others set events. -/
theorem ChannelOp.mask_none_iff {op : ChannelOp} (hOp : op ≠ .remove) :
    op.mask Channel.kNoneEvent = Channel.kNoneEvent ↔ op.disables = true := by
  cases op with
  | remove => exact absurd rfl hOp
  | _ => decide

namespace EpollPoller

variable {ι : Type*} [DecidableEq ι] (fd : ι ↪ Nat)

/-! ## The interest set -/

/-- The operations of a list, from left to right. -/
def run (ops : List (ι × ChannelOp)) : EpollPoller ι :=
  ops.foldl (fun p step => p.apply fd step.1 step.2) new

/-- The interest set of the kernel. -/
def interestSet (p : EpollPoller ι) : Set (Nat × PollEvents) :=
  { held | ∃ ptr, p.interest held.1 = some (held.2, ptr) }

structure Tracked (p : EpollPoller ι) : Prop where
  registered : ∀ ch, (p.seen fd ch).Registered
  index_iff : ∀ ch, p.index ch = .kAdded ↔
    p.events ch ≠ Channel.kNoneEvent ∧ p.last ch ≠ some .remove
  channels_owner : ∀ f, ∀ owner ∈ p.channels f, f = fd owner
  interest_owner : ∀ f, ∀ held ∈ p.interest f, f = fd held.2
  succeeded : ∀ call ∈ p.calls, call.succeeded = true

theorem new_tracked : (new : EpollPoller ι).Tracked fd where
  registered ch := by
    rw [seen_new]
    exact Channel.new_registered
  index_iff ch := by simp [new]
  channels_owner f := by simp [new]
  interest_owner f := by simp [new]
  succeeded := by simp [new]

variable {fd} {p : EpollPoller ι}

/-- The index tells whether the kernel holds the descriptor. -/
theorem Tracked.interest_eq_none_iff (hInv : p.Tracked fd) (ch : ι) :
    p.interest (fd ch) = none ↔ p.index ch ≠ .kAdded := by
  have hHeld : (p.interest (fd ch)).map Prod.fst =
      if p.index ch = .kAdded then some (p.events ch) else none :=
    (hInv.registered ch).interest_eq
  rw [← Option.map_eq_none_iff (f := Prod.fst), hHeld]
  simp

omit [DecidableEq ι] in
/-- A call that the kernel accepts: `ADD` of an absent descriptor, `MOD` or `DEL` of a
present one. -/
theorem update_succeeded {op : EpollOp} {ch : ι}
    (hAll : ∀ call ∈ p.calls, call.succeeded = true)
    (hValid : op = .add ↔ p.interest (fd ch) = none) :
    ∀ call ∈ (p.update fd op ch).calls, call.succeeded = true := by
  have hCtl : ∃ interest, epollCtl p.interest op (fd ch) (p.events ch, ch) = some interest := by
    cases hHeld : p.interest (fd ch) with
    | none =>
        have hAdd : op = .add := hValid.mpr hHeld
        simp [epollCtl, hAdd, hHeld]
    | some held =>
        have hAdd : op ≠ .add := fun hAdd => by simp [hValid.mp hAdd] at hHeld
        cases op with
        | add => exact absurd rfl hAdd
        | mod => simp [epollCtl, hHeld]
        | del => simp [epollCtl, hHeld]
  obtain ⟨interest, hCtl⟩ := hCtl
  intro call hCall
  simp only [update, hCtl, List.mem_append, List.mem_singleton] at hCall
  rcases hCall with hOld | rfl
  · exact hAll call hOld
  · rfl

theorem updateChannel_succeeded {ch : ι} (hAll : ∀ call ∈ p.calls, call.succeeded = true)
    (hHeld : p.interest (fd ch) = none ↔ p.index ch ≠ .kAdded) :
    ∀ call ∈ (p.updateChannel fd ch).calls, call.succeeded = true := by
  unfold updateChannel
  split
  · next hIndex =>
    have hInserted : ∀ call ∈ (p.insert fd ch).calls, call.succeeded = true := hAll
    split
    · exact hInserted
    · refine update_succeeded hInserted ?_
      change EpollOp.add = .add ↔ p.interest (fd ch) = none
      simpa [hIndex] using hHeld
  · next hIndex =>
    split
    · exact hAll
    · refine update_succeeded hAll ?_
      simpa [hIndex] using hHeld
  · next hIndex =>
    split
    · refine update_succeeded hAll ?_
      simpa [hIndex] using hHeld
    · refine update_succeeded hAll ?_
      simpa [hIndex] using hHeld

theorem removeChannel_succeeded {ch : ι} (hAll : ∀ call ∈ p.calls, call.succeeded = true)
    (hHeld : p.interest (fd ch) = none ↔ p.index ch ≠ .kAdded) :
    ∀ call ∈ (p.removeChannel fd ch).calls, call.succeeded = true := by
  have hErased : ∀ call ∈ (p.erase fd ch).calls, call.succeeded = true := hAll
  unfold removeChannel
  split
  · next hIndex =>
    refine update_succeeded hErased ?_
    change EpollOp.del = .add ↔ p.interest (fd ch) = none
    simpa [hIndex] using hHeld
  · exact hErased

theorem Tracked.apply_succeeded (hInv : p.Tracked fd) (ch : ι) (op : ChannelOp) :
    ∀ call ∈ (p.apply fd ch op).calls, call.succeeded = true := by
  have hHeld := hInv.interest_eq_none_iff ch
  cases op with
  | remove => exact removeChannel_succeeded hInv.succeeded hHeld
  | _ => exact updateChannel_succeeded hInv.succeeded hHeld

theorem Tracked.apply (hInv : p.Tracked fd) (ch : ι) (op : ChannelOp) :
    (p.apply fd ch op).Tracked fd where
  registered other := by
    by_cases hOther : other = ch
    · rw [hOther, seen_apply_self]
      exact Channel.apply_registered (hInv.registered ch) op
    · rw [seen_apply_other fd p ch op hOther]
      exact hInv.registered other
  index_iff other := by
    by_cases hOther : other = ch
    · have hAdded := Channel.apply_added_iff (p.seen fd ch) op
      rw [← seen_apply_self] at hAdded
      change (p.apply fd ch op).index ch = .kAdded ↔
        (p.apply fd ch op).events ch ≠ Channel.kNoneEvent ∧ op ≠ .remove at hAdded
      have hLast : (p.apply fd ch op).last ch = some op := Function.update_self _ _ _
      rw [hOther, hAdded, hLast]
      simp
    · have hEvents := (local_apply fd p ch op).events_eq other hOther
      have hIndex := (local_apply fd p ch op).index_eq other hOther
      have hLast : (p.apply fd ch op).last other = p.last other :=
        Function.update_of_ne hOther _ _
      rw [hEvents, hIndex, hLast]
      exact hInv.index_iff other
  channels_owner f owner hOwner := by
    by_cases hf : f = fd ch
    · subst hf
      rcases (local_apply fd p ch op).channels_own with hSame | hOwn
      · rw [hSame] at hOwner
        exact hInv.channels_owner _ owner hOwner
      · rw [hOwn owner hOwner]
    · rw [(local_apply fd p ch op).channels_eq f hf] at hOwner
      exact hInv.channels_owner f owner hOwner
  interest_owner f held hHeld := by
    by_cases hf : f = fd ch
    · subst hf
      rcases (local_apply fd p ch op).interest_own with hSame | hOwn
      · rw [hSame] at hHeld
        exact hInv.interest_owner _ held hHeld
      · rw [hOwn held hHeld]
    · rw [(local_apply fd p ch op).interest_eq f hf] at hHeld
      exact hInv.interest_owner f held hHeld
  succeeded := hInv.apply_succeeded ch op

variable (fd)

theorem run_tracked (ops : List (ι × ChannelOp)) : (run fd ops).Tracked fd := by
  have hFold : ∀ (ops : List (ι × ChannelOp)) (p : EpollPoller ι), p.Tracked fd →
      (ops.foldl (fun p step => p.apply fd step.1 step.2) p).Tracked fd := by
    intro ops
    induction ops with
    | nil => exact fun p hInv => hInv
    | cons step ops ih => exact fun p hInv => ih _ (hInv.apply step.1 step.2)
  exact hFold ops new (new_tracked fd)

/-- After every sequence of operations on any channels with different descriptors: every
`epoll_ctl` was one that the kernel accepts, the interest set holds exactly the channels
with index `kAdded`, with their events, and these are the channels with events that were
not removed by their last operation. -/
theorem interestSet_eq_added (ops : List (ι × ChannelOp)) :
    (∀ call ∈ (run fd ops).calls, call.succeeded = true) ∧
      (run fd ops).interestSet =
        { held | ∃ ch, (run fd ops).index ch = .kAdded ∧
          held = (fd ch, (run fd ops).events ch) } ∧
      (∀ ch, (run fd ops).events ch ≠ Channel.kNoneEvent →
        (run fd ops).last ch ≠ some .remove → (run fd ops).index ch = .kAdded) ∧
      (∀ ch, (run fd ops).events ch = Channel.kNoneEvent →
        (run fd ops).index ch ≠ .kAdded) := by
  have hInv : (run fd ops).Tracked fd := run_tracked fd ops
  refine ⟨hInv.succeeded, ?_, fun ch hEvents hLast => (hInv.index_iff ch).mpr ⟨hEvents, hLast⟩,
    fun ch hNone hAdded => ((hInv.index_iff ch).mp hAdded).1 hNone⟩
  ext ⟨f, events⟩
  constructor
  · rintro ⟨ch, hHeld⟩
    -- The entry belongs to the channel that its pointer names.
    obtain rfl : f = fd ch := hInv.interest_owner f (events, ch) hHeld
    have hAdded : (run fd ops).index ch = .kAdded := by
      by_contra hIndex
      simp [(hInv.interest_eq_none_iff ch).mpr hIndex] at hHeld
    have hEvents := (hInv.registered ch).interest_eq
    simp [seen, hAdded, hHeld] at hEvents
    exact ⟨ch, hAdded, by rw [hEvents]⟩
  · rintro ⟨ch, hAdded, hEq⟩
    obtain ⟨rfl, rfl⟩ := Prod.mk.injEq _ _ _ _ ▸ hEq
    have hEvents := (hInv.registered ch).interest_eq
    simp only [seen, hAdded, if_true, Option.map_eq_some_iff] at hEvents
    obtain ⟨held, hHeld, hFirst⟩ := hEvents
    exact ⟨held.2, by rw [hHeld, ← hFirst]⟩

/-! ## The map -/

/-- An operation, where `Remove` is called on registered channels without events. -/
def checkedStep (p : EpollPoller ι) (step : ι × ChannelOp) : Option (EpollPoller ι) :=
  if step.2 = .remove ∧ ¬(p.hasChannel fd step.1 = true ∧ p.isNoneEvent step.1 = true) then none
  else some (p.apply fd step.1 step.2)

/-- The index tells the entry in the map: `UpdateChannel` never finds an entry for a
channel with index -1, `HasChannel` is told by the index, and a channel that passes the
assertions of `~Channel` is nowhere in the map. -/
structure MapAgrees (p : EpollPoller ι) : Prop where
  never_found : p.newFdFound = false
  has_iff : ∀ ch, p.hasChannel fd ch = true ↔ p.index ch ≠ .kNew
  unreferenced : ∀ ch, p.events ch = Channel.kNoneEvent → p.index ch = .kNew →
    ∀ f, p.channels f ≠ some ch

/-- No operation that drops events is called on a channel with index -1. -/
def DisablesRegistered (p : EpollPoller ι) (step : ι × ChannelOp) : Prop :=
  step.2.disables = true → p.index step.1 ≠ .kNew

/-- A channel with index -1 has no events. -/
structure MapInv (p : EpollPoller ι) : Prop where
  tracked : p.Tracked fd
  agrees : p.MapAgrees fd
  idle : ∀ ch, p.index ch = .kNew → p.events ch = Channel.kNoneEvent

theorem new_mapInv : (new : EpollPoller ι).MapInv fd where
  tracked := new_tracked fd
  agrees := ⟨rfl, fun ch => by simp [hasChannel, new], fun ch _ _ f => by simp [new]⟩
  idle _ _ := rfl

variable {fd}

theorem hasChannel_eq_mapped (p : EpollPoller ι) (ch : ι) :
    p.hasChannel fd ch = (p.seen fd ch).mapped := rfl

/-- An entry of a channel is at its own descriptor. -/
theorem Tracked.hasChannel_of_mem {f : Nat} {ch : ι} (hInv : p.Tracked fd)
    (hEntry : p.channels f = some ch) : p.hasChannel fd ch = true := by
  obtain rfl : f = fd ch := hInv.channels_owner f ch hEntry
  simp [hasChannel, hEntry]

theorem Tracked.channels_eq_none {ch : ι} (hInv : p.Tracked fd)
    (hAbsent : ¬p.hasChannel fd ch = true) : p.channels (fd ch) = none := by
  cases hEntry : p.channels (fd ch) with
  | none => rfl
  | some owner =>
      obtain rfl : ch = owner := fd.injective (hInv.channels_owner _ owner hEntry)
      exact absurd (hInv.hasChannel_of_mem hEntry) hAbsent

omit [DecidableEq ι] in
theorem update_newFdFound (op : EpollOp) (ch : ι) :
    (p.update fd op ch).newFdFound = p.newFdFound := by
  unfold update
  split <;> rfl

/-- The assertion is tested when `UpdateChannel` gets a channel with index -1. -/
theorem apply_newFdFound (p : EpollPoller ι) (ch : ι) {op : ChannelOp}
    (hFree : op = .remove ∨ p.index ch ≠ .kNew ∨ p.channels (fd ch) = none) :
    (p.apply fd ch op).newFdFound = p.newFdFound := by
  have hUpdate : ∀ events, p.index ch ≠ .kNew ∨ p.channels (fd ch) = none →
      ((p.setEvents ch events).updateChannel fd ch).newFdFound = p.newFdFound := by
    intro events hOld
    have hIndex : (p.setEvents ch events).index ch = p.index ch := rfl
    unfold updateChannel
    rw [hIndex]
    split
    · next hNew =>
      have hNone : p.channels (fd ch) = none := hOld.resolve_left (not_not.mpr hNew)
      have hInsert : ((p.setEvents ch events).insert fd ch).newFdFound = p.newFdFound := by
        simp [insert, setEvents, hNone]
      split
      · exact hInsert
      · exact (update_newFdFound _ _).trans hInsert
    · split
      · rfl
      · exact update_newFdFound _ _
    · split
      · exact update_newFdFound _ _
      · exact update_newFdFound _ _
  cases op with
  | remove =>
      show (p.removeChannel fd ch).newFdFound = p.newFdFound
      unfold removeChannel
      split
      · exact update_newFdFound _ _
      · rfl
  | _ => exact hUpdate _ (hFree.resolve_left (by simp))

theorem MapInv.of_tracked (hTracked : p.Tracked fd) (hFound : p.newFdFound = false)
    (hHas : ∀ ch, p.hasChannel fd ch = true ↔ p.index ch ≠ .kNew)
    (hIdle : ∀ ch, p.index ch = .kNew → p.events ch = Channel.kNoneEvent) : p.MapInv fd where
  tracked := hTracked
  agrees :=
    { never_found := hFound
      has_iff := hHas
      unreferenced := fun ch _ hNew _ hEntry =>
        (hHas ch).mp (hTracked.hasChannel_of_mem hEntry) hNew }
  idle := hIdle

/-- The channel of the step: whether it has an entry, an index and events. -/
theorem MapInv.seen_apply (hInv : p.MapInv fd) {ch : ι} {op : ChannelOp}
    (hRemove : op = .remove → p.isNoneEvent ch = true)
    (hOk : DisablesRegistered p (ch, op)) :
    ((p.apply fd ch op).hasChannel fd ch = true ↔ (p.apply fd ch op).index ch ≠ .kNew) ∧
      ((p.apply fd ch op).index ch = .kNew →
        (p.apply fd ch op).events ch = Channel.kNoneEvent) := by
  have hSeen := seen_apply_self fd p ch op
  have hMapped : (p.apply fd ch op).hasChannel fd ch = ((p.seen fd ch).apply op).mapped :=
    congrArg Channel.mapped hSeen
  have hIndex : (p.apply fd ch op).index ch = ((p.seen fd ch).apply op).index :=
    congrArg Channel.index hSeen
  have hEvents : (p.apply fd ch op).events ch = ((p.seen fd ch).apply op).events :=
    congrArg Channel.events hSeen
  rw [hMapped, hIndex, hEvents]
  by_cases hOp : op = .remove
  · have hNone : p.events ch = Channel.kNoneEvent := by
      simpa [isNoneEvent] using hRemove hOp
    simp [hOp, Channel.apply, seen, hNone]
  · have hHas : (p.seen fd ch).mapped = true ↔ (p.seen fd ch).index ≠ .kNew :=
      hInv.agrees.has_iff ch
    rw [Channel.apply_eq_updateChannel _ hOp, Channel.updateChannel_mapped]
    -- A channel without an index gets events, so it gets an index with its entry.
    have hNotNew : ({ p.seen fd ch with events := op.mask (p.seen fd ch).events }
        : Channel).updateChannel.index ≠ .kNew := by
      rw [Ne, Channel.updateChannel_new_iff]
      rintro ⟨hNew, hNone⟩
      have hIdle : (p.seen fd ch).events = Channel.kNoneEvent := hInv.idle ch hNew
      rw [hIdle] at hNone
      exact hOk ((ChannelOp.mask_none_iff hOp).mp hNone) hNew
    refine ⟨iff_of_true ?_ hNotNew, fun hNew => absurd hNew hNotNew⟩
    by_cases hNew : (p.seen fd ch).index = .kNew
    · simp [hNew]
    · simp [hHas.mpr hNew]

theorem checkedStep_eq_some {q : EpollPoller ι} {step : ι × ChannelOp}
    (hStep : p.checkedStep fd step = some q) :
    (step.2 = .remove → p.hasChannel fd step.1 = true ∧ p.isNoneEvent step.1 = true) ∧
      p.apply fd step.1 step.2 = q := by
  simp only [checkedStep, Option.ite_none_left_eq_some, Option.some.injEq] at hStep
  obtain ⟨hGuard, hEq⟩ := hStep
  exact ⟨fun hOp => by_contra fun hNot => hGuard ⟨hOp, hNot⟩, hEq⟩

theorem checkedStep_mapInv (p : EpollPoller ι) (step : ι × ChannelOp) (q : EpollPoller ι)
    (hInv : p.MapInv fd) (hStep : p.checkedStep fd step = some q)
    (hOk : DisablesRegistered p step) : q.MapInv fd := by
  obtain ⟨ch, op⟩ := step
  obtain ⟨hGuard, rfl⟩ := checkedStep_eq_some hStep
  have hOwn := hInv.seen_apply (fun hOp => (hGuard hOp).2) hOk
  refine .of_tracked (hInv.tracked.apply ch op) ?_ ?_ ?_
  · rw [apply_newFdFound, hInv.agrees.never_found]
    by_cases hNew : p.index ch = .kNew
    · refine Or.inr (Or.inr (hInv.tracked.channels_eq_none fun hHas => ?_))
      exact (hInv.agrees.has_iff ch).mp hHas hNew
    · exact Or.inr (Or.inl hNew)
  · intro other
    by_cases hOther : other = ch
    · rw [hOther]
      exact hOwn.1
    · rw [(local_apply fd p ch op).index_eq other hOther, hasChannel_eq_mapped,
        seen_apply_other fd p ch op hOther]
      exact hInv.agrees.has_iff other
  · intro other
    by_cases hOther : other = ch
    · rw [hOther]
      exact hOwn.2
    · rw [(local_apply fd p ch op).index_eq other hOther,
        (local_apply fd p ch op).events_eq other hOther]
      exact hInv.idle other

/-- A disable of a channel with index -1 makes an entry and leaves the index. -/
theorem disablesRegistered_of_agrees (p : EpollPoller ι) (step : ι × ChannelOp)
    (q : EpollPoller ι) (hInv : p.MapInv fd) (hStep : p.checkedStep fd step = some q)
    (hAgrees : q.MapAgrees fd) : DisablesRegistered p step := by
  obtain ⟨ch, op⟩ := step
  obtain ⟨-, rfl⟩ := checkedStep_eq_some hStep
  intro hDisables hNew
  have hOp : op ≠ .remove := by
    rintro rfl
    cases hDisables
  have hSeenNew : (p.seen fd ch).index = .kNew := hNew
  have hSeenNone : (p.seen fd ch).events = Channel.kNoneEvent := hInv.idle ch hNew
  have hSeen := seen_apply_self fd p ch op
  rw [Channel.apply_eq_updateChannel _ hOp, hSeenNone,
    (ChannelOp.mask_none_iff hOp).mpr hDisables] at hSeen
  have hHas : (p.apply fd ch op).hasChannel fd ch = true := by
    rw [hasChannel_eq_mapped, hSeen, Channel.updateChannel_mapped]
    simp [hSeenNew]
  have hStill : (p.apply fd ch op).index ch = .kNew := by
    have hIndex := congrArg Channel.index hSeen
    rw [show (p.apply fd ch op).index ch = _ from hIndex, Channel.updateChannel_new_iff]
    exact ⟨hSeenNew, rfl⟩
  exact (hAgrees.has_iff ch).mp hHas hStill

variable (fd)

/-- The index tells the entry in all states of a run exactly when no disable of the run
is called on a channel with index -1. -/
theorem mapAgrees_iff_disablesRegistered (steps : List (ι × ChannelOp)) :
    (∀ pre p, pre <+: steps → exec (checkedStep fd) new pre = some p → p.MapAgrees fd) ↔
      Meets (checkedStep fd) DisablesRegistered new steps := by
  refine forall_prefix_iff_meets (MapInv fd) (MapAgrees fd) (fun p hInv => hInv.agrees) ?_
    checkedStep_mapInv disablesRegistered_of_agrees (new_mapInv fd) steps
  -- A step that is not enabled is a `Remove`.
  rintro p ⟨ch, op⟩ - hStep hDisables
  have hOp : op = .remove := by
    by_contra hOther
    simp [checkedStep, hOther] at hStep
  rw [hOp] at hDisables
  cases hDisables

/-- One channel, with descriptor 7. -/
def oneFd : Unit ↪ Nat := ⟨fun _ => 7, fun _ _ _ => rfl⟩

/-- `DisableAll` on a new channel: it passes the assertions of `~Channel` and the map
still points to it.  If it is enabled after that, the assertion of `UpdateChannel`
fails. -/
theorem not_mapAgrees_disableFresh :
    ∃ p q, exec (checkedStep oneFd) new [((), .disableAll)] = some p ∧
      p.events () = Channel.kNoneEvent ∧ p.index () = .kNew ∧ p.channels 7 = some () ∧
      ¬ p.MapAgrees oneFd ∧
      p.checkedStep oneFd ((), .enableReading) = some q ∧ q.newFdFound = true := by
  refine ⟨_, _, rfl, rfl, rfl, rfl, ?_, rfl, rfl⟩
  intro hAgrees
  exact hAgrees.unreferenced () rfl rfl 7 rfl

end EpollPoller
end SolarNet
