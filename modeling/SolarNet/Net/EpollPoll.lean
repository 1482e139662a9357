import SolarNet.Lib.Run
import SolarNet.Net.EpollInterest
import Mathlib.Data.List.Nodup

/-!
# `EpollPoller::Poll`

The kernel keeps the ready descriptors of an epoll set in a list.  `epoll_wait` reports
the first of them, at most as many as the array has room for, and moves them to the end,
so that successive calls go round.  A descriptor stays in the list while it is ready and
in the interest set.

`Poll` starts with an array of `kInitEventListSize` events and doubles it when a call
fills it.  So a descriptor that waits behind others comes closer by the size of the array
with each call, and that size doubles.
-/

namespace SolarNet

open Lib

def kInitEventListSize : Nat := 16

/-- An `epoll_event`: `events` and `data.ptr`. -/
structure EpollEvent (ι : Type*) where
  events : PollEvents
  ptr : ι

/-- The poller, the kernel's list, and what `Poll` leaves: `m_revents` of the channels and
`active_channels`.  `batches` has the channels that each successful call reported. -/
structure PollLoop (ι : Type*) where
  poller : EpollPoller ι
  /-- `m_events.size()`. -/
  eventListSize : Nat
  ready : List Nat
  revents : ι → PollEvents
  active : List ι
  batches : List (List ι)

inductive PollLabel (ι : Type*) where
  | call (ch : ι) (op : ChannelOp)
  /-- A descriptor of the interest set becomes ready. -/
  | signal (f : Nat)
  /-- A descriptor is not ready any more. -/
  | quiet (f : Nat)
  /-- `Poll`; without an answer `epoll_wait` fails or is interrupted. -/
  | poll (answer : Option (Nat → PollEvents))

namespace PollLoop

variable {ι : Type*}

def boot : PollLoop ι where
  poller := EpollPoller.new
  eventListSize := kInitEventListSize
  ready := []
  revents _ := Channel.kNoneEvent
  active := []
  batches := []

/-- The events that `epoll_wait` writes for these descriptors. -/
def events (interest : InterestSet ι) (answer : Nat → PollEvents) (fds : List Nat) :
    List (EpollEvent ι) :=
  fds.filterMap fun f => (interest f).map fun held => ⟨answer f, held.2⟩

variable [DecidableEq ι]

/-- `SetRevents` of every channel in turn. -/
def setRevents (revents : ι → PollEvents) (reported : List (EpollEvent ι)) : ι → PollEvents :=
  reported.foldl (fun revents event => Function.update revents event.ptr event.events) revents

/-- `Poll`, after `epoll_wait` returned these events. -/
def report (w : PollLoop ι) (reported : List (EpollEvent ι)) : PollLoop ι :=
  { w with
    active := reported.map EpollEvent.ptr
    revents := setRevents w.revents reported
    eventListSize :=
      if 0 < reported.length ∧ reported.length = w.eventListSize then w.eventListSize * 2
      else w.eventListSize
    batches := w.batches ++ [reported.map EpollEvent.ptr] }

def poll (w : PollLoop ι) : Option (Nat → PollEvents) → PollLoop ι
  | none => { w with active := [] }
  | some answer =>
      let first := w.ready.take w.eventListSize
      { w.report (events w.poller.interest answer first) with
        ready := w.ready.drop w.eventListSize ++ first }

section Fd

variable (fd : ι ↪ Nat)

def step (w : PollLoop ι) : PollLabel ι → Option (PollLoop ι)
  | .call ch op =>
      let poller := w.poller.apply fd ch op
      -- A descriptor that leaves the interest set leaves the list.
      some { w with
        poller := poller
        ready := w.ready.filter fun f => (poller.interest f).isSome }
  | .signal f =>
      if (w.poller.interest f).isSome ∧ f ∉ w.ready then some { w with ready := w.ready ++ [f] }
      else none
  | .quiet f => some { w with ready := w.ready.filter fun other => other ≠ f }
  | .poll answer => some (w.poll answer)

end Fd

/-! ## One call of `Poll` -/

omit [DecidableEq ι] in
/-- The reported channels are those of the descriptors, in order. -/
theorem map_fd_events {fd : ι ↪ Nat} {interest : InterestSet ι} {fds : List Nat}
    (hHeld : ∀ f ∈ fds, ∃ held, interest f = some held ∧ f = fd held.2)
    (answer : Nat → PollEvents) :
    ((events interest answer fds).map EpollEvent.ptr).map fd = fds := by
  induction fds with
  | nil => rfl
  | cons f fds ih =>
      obtain ⟨held, hInterest, hFd⟩ := hHeld f (by simp)
      have hRest := ih fun other hOther => hHeld other (List.mem_cons_of_mem f hOther)
      simp only [events, List.map_map] at hRest ⊢
      rw [List.filterMap_cons_some (b := ⟨answer f, held.2⟩) (by simp [hInterest]), List.map_cons,
        hRest]
      exact congrArg (· :: fds) hFd.symm

omit [DecidableEq ι] in
theorem events_eq_answer {fd : ι ↪ Nat} {interest : InterestSet ι} {fds : List Nat}
    (hOwner : ∀ f, ∀ held ∈ interest f, f = fd held.2) {answer : Nat → PollEvents}
    {event : EpollEvent ι} (hMem : event ∈ events interest answer fds) :
    event.events = answer (fd event.ptr) := by
  obtain ⟨f, -, hEvent⟩ := List.mem_filterMap.mp hMem
  obtain ⟨held, hInterest, rfl⟩ := Option.map_eq_some_iff.mp hEvent
  exact congrArg answer (hOwner f held hInterest)

/-- Every reported channel has the events that were reported for it. -/
theorem setRevents_eq {reported : List (EpollEvent ι)} (events : ι → PollEvents)
    (hEvents : ∀ event ∈ reported, event.events = events event.ptr) (revents : ι → PollEvents)
    (ch : ι) :
    setRevents revents reported ch =
      if ch ∈ reported.map EpollEvent.ptr then events ch else revents ch := by
  induction reported generalizing revents with
  | nil => rfl
  | cons event reported ih =>
      have hRest := ih (fun other hOther => hEvents other (List.mem_cons_of_mem event hOther))
        (Function.update revents event.ptr event.events)
      have hHead : event.events = events event.ptr := hEvents event (by simp)
      show setRevents (Function.update revents event.ptr event.events) reported ch = _
      rw [hRest, List.map_cons, hHead]
      by_cases hIn : ch ∈ reported.map EpollEvent.ptr
      · rw [if_pos hIn, if_pos (List.mem_cons_of_mem event.ptr hIn)]
      · by_cases hEq : ch = event.ptr
        · subst hEq
          rw [if_neg hIn, if_pos List.mem_cons_self, Function.update_self]
        · have hOut : ch ∉ event.ptr :: reported.map EpollEvent.ptr := by
            rw [List.mem_cons]
            exact not_or.mpr ⟨hEq, hIn⟩
          rw [if_neg hIn, if_neg hOut, Function.update_of_ne hEq]

/-! ## The invariant -/

/-- The array has its first size, or twice the size of a batch of different channels. -/
structure Sound (fd : ι ↪ Nat) (w : PollLoop ι) : Prop where
  tracked : w.poller.Tracked fd
  nodup : w.ready.Nodup
  interested : ∀ f ∈ w.ready, (w.poller.interest f).isSome = true
  size : w.eventListSize = kInitEventListSize ∨
    ∃ batch ∈ w.batches, batch.Nodup ∧ w.eventListSize = 2 * batch.length
  enough : kInitEventListSize ≤ w.eventListSize

variable {fd : ι ↪ Nat} {w w' : PollLoop ι}

theorem boot_sound : Sound fd (boot : PollLoop ι) where
  tracked := EpollPoller.new_tracked fd
  nodup := List.nodup_nil
  interested := by simp [boot]
  size := Or.inl rfl
  enough := le_refl kInitEventListSize

/-- A ready descriptor is one of a registered channel. -/
theorem Sound.held (hSound : Sound fd w) {f : Nat} (hReady : f ∈ w.ready) :
    ∃ held, w.poller.interest f = some held ∧ f = fd held.2 := by
  obtain ⟨held, hHeld⟩ := Option.isSome_iff_exists.mp (hSound.interested f hReady)
  exact ⟨held, hHeld, hSound.tracked.interest_owner f held hHeld⟩

/-- The channels of the next batch. -/
def batch (w : PollLoop ι) (answer : Nat → PollEvents) : List ι :=
  (events w.poller.interest answer (w.ready.take w.eventListSize)).map EpollEvent.ptr

theorem Sound.map_fd_batch (hSound : Sound fd w) (answer : Nat → PollEvents) :
    (w.batch answer).map fd = w.ready.take w.eventListSize :=
  map_fd_events (fun _ hMem => hSound.held (List.mem_of_mem_take hMem)) answer

theorem Sound.nodup_batch (hSound : Sound fd w) (answer : Nat → PollEvents) :
    (w.batch answer).Nodup := by
  have hTake : (w.ready.take w.eventListSize).Nodup :=
    hSound.nodup.sublist (List.take_sublist _ _)
  rw [← hSound.map_fd_batch answer] at hTake
  exact hTake.of_map fd

theorem Sound.length_batch (hSound : Sound fd w) (answer : Nat → PollEvents) :
    (w.batch answer).length = min w.eventListSize w.ready.length := by
  rw [← List.length_map fd, hSound.map_fd_batch answer, List.length_take]

/-- A full batch doubles the array. -/
theorem Sound.eventListSize_poll (hSound : Sound fd w) (answer : Nat → PollEvents) :
    (w.poll (some answer)).eventListSize =
      if w.eventListSize ≤ w.ready.length then 2 * w.eventListSize else w.eventListSize := by
  have hLength := hSound.length_batch answer
  have hEnough : 0 < w.eventListSize := Nat.lt_of_lt_of_le (by decide) hSound.enough
  simp only [batch, List.length_map] at hLength
  simp only [poll, report, hLength]
  by_cases hFull : w.eventListSize ≤ w.ready.length
  · rw [if_pos hFull, if_pos (by omega)]
    omega
  · rw [if_neg hFull, if_neg (by omega)]

theorem poll_sound (hSound : Sound fd w) (answer : Nat → PollEvents) :
    Sound fd (w.poll (some answer)) := by
  have hSize := hSound.eventListSize_poll answer
  have hPerm : (w.ready.drop w.eventListSize ++ w.ready.take w.eventListSize).Perm w.ready :=
    List.perm_append_comm.trans (by rw [List.take_append_drop])
  constructor
  case tracked => exact hSound.tracked
  case nodup => exact hPerm.nodup_iff.mpr hSound.nodup
  case interested => exact fun f hMem => hSound.interested f (hPerm.mem_iff.mp hMem)
  case size =>
    rw [hSize]
    by_cases hFull : w.eventListSize ≤ w.ready.length
    · rw [if_pos hFull]
      refine Or.inr ⟨w.batch answer, List.mem_append_right _ (by simp [batch]),
        hSound.nodup_batch answer, ?_⟩
      rw [hSound.length_batch answer, Nat.min_eq_left hFull]
    · rw [if_neg hFull]
      rcases hSound.size with hFirst | ⟨old, hOld, hRest⟩
      · exact Or.inl hFirst
      · exact Or.inr ⟨old, List.mem_append_left _ hOld, hRest⟩
  case enough =>
    have hEnough := hSound.enough
    rw [hSize]
    split <;> omega

theorem step_sound {label : PollLabel ι} (hSound : Sound fd w)
    (hStep : step fd w label = some w') : Sound fd w' := by
  cases label with
  | call ch op =>
      obtain rfl := Option.some.inj hStep
      exact ⟨hSound.tracked.apply ch op, hSound.nodup.filter _,
        fun f hMem => by simpa using (List.mem_filter.mp hMem).2, hSound.size, hSound.enough⟩
  | signal f =>
      simp only [step] at hStep
      split at hStep
      case isFalse => cases hStep
      case isTrue hNew =>
        obtain rfl := Option.some.inj hStep
        refine ⟨hSound.tracked, ?_, ?_, hSound.size, hSound.enough⟩
        · rw [← List.concat_eq_append]
          exact hSound.nodup.concat hNew.2
        · intro other hMem
          rcases List.mem_append.mp hMem with hOld | hLast
          · exact hSound.interested other hOld
          · obtain rfl := List.mem_singleton.mp hLast
            exact hNew.1
  | quiet f =>
      obtain rfl := Option.some.inj hStep
      exact ⟨hSound.tracked, hSound.nodup.filter _,
        fun other hMem => hSound.interested other (List.mem_of_mem_filter hMem), hSound.size,
        hSound.enough⟩
  | poll answer =>
      obtain rfl := Option.some.inj hStep
      cases answer with
      | none => exact ⟨hSound.tracked, hSound.nodup, hSound.interested, hSound.size, hSound.enough⟩
      | some answer => exact poll_sound hSound answer

theorem exec_sound {labels : List (PollLabel ι)} (hSound : Sound fd w)
    (hRun : exec (step fd) w labels = some w') : Sound fd w' :=
  exec_invariant (Sound fd) (fun _ _ _ hInv hStep => step_sound hInv hStep) hSound hRun

/-! ## Waiting -/

omit [DecidableEq ι] in
/-- A filter takes nobody back. -/
theorem idxOf_filter_le {f : Nat} {p : Nat → Bool} (hKept : p f = true) (l : List Nat) :
    (l.filter p).idxOf f ≤ l.idxOf f := by
  induction l with
  | nil => simp
  | cons head l ih =>
      by_cases hEq : head = f
      · subst hEq
        simp [hKept]
      · by_cases hHead : p head = true
        · rw [List.filter_cons_of_pos hHead, List.idxOf_cons_ne l hEq,
            List.idxOf_cons_ne _ hEq]
          omega
        · rw [List.filter_cons_of_neg hHead, List.idxOf_cons_ne l hEq]
          omega

omit [DecidableEq ι] in
/-- The descriptors behind a full batch come closer by its size. -/
theorem idxOf_rotated {f n : Nat} {l : List Nat} (hMem : f ∈ l) (hOut : f ∉ l.take n) :
    l.idxOf f = n + (l.drop n ++ l.take n).idxOf f ∧ n ≤ l.length := by
  have hDrop : f ∈ l.drop n := by
    rw [← List.take_append_drop n l, List.mem_append] at hMem
    exact hMem.resolve_left hOut
  have hLength : n ≤ l.length := by
    by_contra hShort
    rw [List.drop_eq_nil_of_le (by omega)] at hDrop
    cases hDrop
  have hEq : l.idxOf f = (l.take n ++ l.drop n).idxOf f := by rw [List.take_append_drop]
  rw [List.idxOf_append_of_mem hDrop, hEq, List.idxOf_append_of_notMem hOut, List.length_take,
    Nat.min_eq_left hLength]
  exact ⟨rfl, hLength⟩

/-- A channel that is ready and not reported has come closer by the size of the array, and
the array has doubled. -/
theorem Sound.poll_closer (hSound : Sound fd w) {ch : ι} (hReady : fd ch ∈ w.ready)
    (answer : Nat → PollEvents) (hPassed : ch ∉ w.batch answer) :
    w.ready.idxOf (fd ch) = w.eventListSize + (w.poll (some answer)).ready.idxOf (fd ch) ∧
      (w.poll (some answer)).eventListSize = 2 * w.eventListSize := by
  have hOut : fd ch ∉ w.ready.take w.eventListSize := by
    rw [← hSound.map_fd_batch answer, List.mem_map]
    rintro ⟨other, hMem, hFd⟩
    exact hPassed (fd.injective hFd ▸ hMem)
  obtain ⟨hIndex, hFull⟩ := idxOf_rotated hReady hOut
  refine ⟨hIndex, ?_⟩
  rw [hSound.eventListSize_poll answer, if_pos hFull]

/-- The steps that are not a successful `Poll` leave the size and take nobody back. -/
theorem step_not_later {label : PollLabel ι} {f : Nat} (hReady : f ∈ w.ready)
    (hStep : step fd w label = some w') :
    (∃ answer, label = .poll (some answer) ∧ w' = w.poll (some answer)) ∨
      w'.batches = w.batches ∧ w'.eventListSize = w.eventListSize ∧
        (f ∈ w'.ready → w'.ready.idxOf f ≤ w.ready.idxOf f) := by
  cases label with
  | call ch op =>
      obtain rfl := Option.some.inj hStep
      refine Or.inr ⟨rfl, rfl, fun hStays => ?_⟩
      exact idxOf_filter_le (by simpa using (List.mem_filter.mp hStays).2) w.ready
  | signal other =>
      simp only [step] at hStep
      split at hStep
      case isFalse => cases hStep
      case isTrue =>
        obtain rfl := Option.some.inj hStep
        refine Or.inr ⟨rfl, rfl, fun _ => ?_⟩
        show (w.ready ++ [other]).idxOf f ≤ w.ready.idxOf f
        rw [List.idxOf_append_of_mem hReady]
  | quiet other =>
      obtain rfl := Option.some.inj hStep
      refine Or.inr ⟨rfl, rfl, fun hStays => ?_⟩
      exact idxOf_filter_le (by simpa using (List.mem_filter.mp hStays).2) w.ready
  | poll answer =>
      obtain rfl := Option.some.inj hStep
      cases answer with
      | none => exact Or.inr ⟨rfl, rfl, fun _ => le_refl _⟩
      | some answer => exact Or.inl ⟨answer, rfl, rfl⟩

/-- What a run adds to the batches, and how far back a channel was that none of them has. -/
theorem exec_waits {labels : List (PollLabel ι)} {ch : ι} (hSound : Sound fd w)
    (hRun : exec (step fd) w labels = some w')
    (hStays : Meets (step fd) (fun s _ => fd ch ∈ s.ready) w labels) :
    ∃ later, w'.batches = w.batches ++ later ∧ (later ≠ [] → fd ch ∈ w.ready) ∧
      ((∀ batch ∈ later, ch ∉ batch) →
        w.eventListSize * (2 ^ later.length - 1) ≤ w.ready.idxOf (fd ch)) := by
  induction labels generalizing w with
  | nil =>
      obtain rfl : w = w' := by simpa using hRun
      exact ⟨[], by simp, by simp, by simp⟩
  | cons label labels ih =>
      obtain ⟨next, hStep, hRest⟩ := exec_cons_eq_some.mp hRun
      have hReady : fd ch ∈ w.ready := hStays.1
      obtain ⟨later, hBatches, hStill, hBound⟩ :=
        ih (step_sound hSound hStep) hRest (hStays.2 next hStep)
      rcases step_not_later hReady hStep with ⟨answer, -, rfl⟩ | ⟨hSame, hSize, hCloser⟩
      · refine ⟨w.batch answer :: later, ?_, fun _ => hReady, ?_⟩
        · rw [hBatches]
          exact List.append_assoc w.batches [w.batch answer] later
        · intro hPassed
          obtain ⟨hIndex, hDouble⟩ := hSound.poll_closer hReady answer (hPassed _ (by simp))
          have hLater := hBound fun batch hMem => hPassed batch (List.mem_cons_of_mem _ hMem)
          have hPow : 2 ^ (later.length + 1) - 1 = 1 + 2 * (2 ^ later.length - 1) := by
            have hPos := Nat.one_le_two_pow (n := later.length)
            rw [pow_succ]
            omega
          calc w.eventListSize * (2 ^ (later.length + 1) - 1)
              = w.eventListSize + 2 * w.eventListSize * (2 ^ later.length - 1) := by
                rw [hPow]
                ring
            _ ≤ w.eventListSize + (w.poll (some answer)).ready.idxOf (fd ch) := by
                rw [← hDouble]
                exact Nat.add_le_add_left hLater _
            _ = w.ready.idxOf (fd ch) := hIndex.symm
      · refine ⟨later, by rw [hBatches, hSame], fun _ => hReady, fun hPassed => ?_⟩
        by_cases hNone : later = []
        · simp [hNone]
        · rw [← hSize]
          exact (hBound hPassed).trans (hCloser (hStill hNone))

/-- However channels come and go, the array of `Poll` never has room for more than twice
the largest batch, a call reports different channels, each of them registered with the
poller at that moment, all of them when they fit, and each with the events of its
descriptor.  No channel starves: one that stays ready and that `k` successful calls passed
over was behind `16 * (2 ^ k - 1)` others. -/
theorem poll_reports_every_ready_channel {labels : List (PollLabel ι)} {w : PollLoop ι}
    (hRun : exec (step fd) boot labels = some w) :
    (w.eventListSize = kInitEventListSize ∨
      ∃ batch ∈ w.batches, batch.Nodup ∧ w.eventListSize = 2 * batch.length) ∧
    (∀ answer w', step fd w (.poll (some answer)) = some w' →
      w'.active.Nodup ∧ w'.active.length = min w.eventListSize w.ready.length ∧
      ∀ ch ∈ w'.active, fd ch ∈ w.ready ∧ w.poller.index ch = .kAdded ∧
        w.poller.hasChannel fd ch = true ∧ w'.revents ch = answer (fd ch)) ∧
    (∀ ch more w', exec (step fd) w more = some w' →
      Meets (step fd) (fun s _ => fd ch ∈ s.ready) w more →
      ∃ later, w'.batches = w.batches ++ later ∧
        ((∀ batch ∈ later, ch ∉ batch) →
          kInitEventListSize * (2 ^ later.length - 1) ≤ w.ready.idxOf (fd ch))) := by
  have hSound : Sound fd w := exec_sound boot_sound hRun
  refine ⟨hSound.size, ?_, ?_⟩
  · intro answer w' hStep
    obtain rfl := Option.some.inj hStep
    refine ⟨hSound.nodup_batch answer, hSound.length_batch answer, ?_⟩
    intro ch hMem
    have hTaken : fd ch ∈ w.ready.take w.eventListSize := by
      rw [← hSound.map_fd_batch answer]
      exact List.mem_map_of_mem hMem
    have hReady : fd ch ∈ w.ready := List.mem_of_mem_take hTaken
    have hAdded : w.poller.index ch = .kAdded := by
      by_contra hIndex
      have hNone := (hSound.tracked.interest_eq_none_iff ch).mpr hIndex
      simpa [hNone] using hSound.interested _ hReady
    refine ⟨hReady, hAdded, ?_, ?_⟩
    · exact (hSound.tracked.registered ch).mapped_of_index (by simp [EpollPoller.seen, hAdded])
    · refine (setRevents_eq (fun ch => answer (fd ch)) ?_ w.revents ch).trans (if_pos hMem)
      exact fun event hEvent => events_eq_answer hSound.tracked.interest_owner hEvent
  · intro ch more w' hMore hStays
    obtain ⟨later, hBatches, -, hBound⟩ := exec_waits hSound hMore hStays
    exact ⟨later, hBatches, fun hPassed =>
      (Nat.mul_le_mul_right _ hSound.enough).trans (hBound hPassed)⟩

/-- Seventeen channels are enabled and become ready, and `Poll` is called. -/
def seventeenReady : List (PollLabel Nat) :=
  (List.range 17).map (fun ch => .call ch .enableReading) ++ (List.range 17).map .signal ++
    [.poll (some fun _ => { pollin := true })]

theorem poll_reports_every_ready_channel_seventeenReady :
    ∃ w, exec (step (Function.Embedding.refl Nat)) boot seventeenReady = some w ∧
      w.batches = [List.range 16] ∧ w.ready.head? = some 16 ∧
      (w.eventListSize = kInitEventListSize ∨
        ∃ batch ∈ w.batches, batch.Nodup ∧ w.eventListSize = 2 * batch.length) := by
  obtain ⟨w, hRun, hSeen⟩ : ∃ w, exec (step (Function.Embedding.refl Nat)) boot seventeenReady =
      some w ∧ (w.batches, w.ready.head?) = ([List.range 16], some 16) := by
    rw [← Option.map_eq_some_iff]
    decide +kernel
  obtain ⟨hBatches, hHead⟩ := Prod.mk.inj hSeen
  exact ⟨w, hRun, hBatches, hHead, (poll_reports_every_ready_channel hRun).1⟩

end PollLoop
end SolarNet
