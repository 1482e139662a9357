import SolarNet.Net.TimerSelfCancel

/-!
# `Cancel` is exact

A pass and the callbacks that it runs, in single steps.  User code runs outside
a pass and in a callback, and may call the queue there; between the callbacks
the loop of `ProcessExpiredTimers` takes the earliest timer out, and after a
callback it puts the timer back or erases it.  `covers_expireLoop` shows that
these steps make up the pass of `TimerQueue.lean`.

Each run keeps a log of what was handed out, cancelled and fired.  The queue
answers `Cancel` from `m_timers` alone; the file shows that in every state
reached the answer is what the log calls for.
-/

namespace SolarNet

/-- What has happened to a timer so far. -/
inductive TimerEvent where
  /-- The id was returned by `RunAt`, `RunAfter` or `RunEvery`. -/
  | issued (id : TimerId) (interval : Int)
  /-- `Cancel` returned `true`. -/
  | cancelled (id : TimerId)
  /-- A pass fired the timer. -/
  | expired (id : TimerId)
  deriving DecidableEq, Repr

def TimerEvent.id : TimerEvent → TimerId
  | .issued id _ => id
  | .cancelled id => id
  | .expired id => id

/-- Where the loop thread is. -/
inductive PassPc where
  | outside
  /-- In a pass, at the condition of the loop. -/
  | condition (now : Time)
  /-- In a pass, in the callback of a timer. -/
  | callback (now : Time) (id : TimerId)
  deriving DecidableEq, Repr

/-- A queue in use. -/
structure TimerUse (γ : Type*) where
  queue : TimerQueue γ
  pc : PassPc
  log : List TimerEvent

/-- The single steps. -/
inductive UseLabel (γ : Type*) where
  | call (op : TimerOp γ)
  | beginPass (now : Time)
  /-- Take the earliest timer out and call its callback. -/
  | expire
  /-- The callback returns. -/
  | endCallback
  | endPass (finish : Time)

namespace TimerQueue

variable {γ : Type*}

/-- What a call adds to the log; it depends on the value that the call returns. -/
def record (q : TimerQueue γ) : TimerOp γ → List TimerEvent
  | .runAt time callback now => [.issued (q.runAt time callback now).2 0]
  | .runAfter delay callback start now => [.issued (q.runAfter delay callback start now).2 0]
  | .runEvery interval callback start now =>
      [.issued (q.runEvery interval callback start now).2 interval]
  | .cancel id now => if (q.cancel id now).2 then [.cancelled id] else []

/-- The earliest timer is due. -/
def due (q : TimerQueue γ) (now : Time) : Bool :=
  match q.earliest with
  | none => false
  | some head => (ofLex head).1 ≤ now

end TimerQueue

namespace TimerUse

open Lib TimerQueue

variable {γ : Type*}

def new (fd : Int) : TimerUse γ := ⟨TimerQueue.new fd, .outside, []⟩

/-- The timer whose callback is running. -/
def current (s : TimerUse γ) : Option TimerId :=
  match s.pc with
  | .callback _ id => some id
  | _ => none

/-- User code is running, so the queue can be called. -/
def userCode (s : TimerUse γ) : Bool :=
  match s.pc with
  | .condition _ => false
  | _ => true

/-- The part of the loop body after the callback; a freed entry is not read. -/
def settled (s : TimerUse γ) (now : Time) (id : TimerId) : Option (TimerUse γ) :=
  match s.queue.settle id with
  | .next q => some { s with queue := q, pc := .condition now }
  | _ => none

/-- The part of the loop body up to the callback. -/
def expireEarliest (s : TimerUse γ) (now : Time) (head : Time ×ₗ TimerId) :
    Option (TimerUse γ) :=
  let q := s.queue.pop head
  let id := (ofLex head).2
  match q.timers id with
  | none => some { s with queue := q }
  | some entry =>
      let s : TimerUse γ := ⟨q, .callback now id, s.log ++ [.expired id]⟩
      match entry.callback with
      | some _ => some { s with queue.fired := q.fired ++ [(entry.expiration, id)] }
      | none => s.settled now id

def step (s : TimerUse γ) : UseLabel γ → Option (TimerUse γ)
  | .call op =>
      if s.userCode then
        some { s with queue := s.queue.apply op, log := s.log ++ s.queue.record op }
      else none
  | .beginPass now =>
      match s.pc with
      | .outside => some { s with pc := .condition now }
      | _ => none
  | .expire =>
      match s.pc, s.queue.earliest with
      | .condition now, some head =>
          if (ofLex head).1 ≤ now then s.expireEarliest now head else none
      | _, _ => none
  | .endCallback =>
      match s.pc with
      | .callback now id => s.settled now id
      | _ => none
  | .endPass finish =>
      match s.pc with
      | .condition now =>
          if s.queue.due now then none
          else some { s with queue := s.queue.rearm finish, pc := .outside }
      | _ => none

/-! ## The invariant -/

/-- The timer was handed out, not cancelled, and is either periodic or a one-shot
timer that no pass has fired yet. -/
def Live (log : List TimerEvent) (id : TimerId) : Prop :=
  ∃ interval, .issued id interval ∈ log ∧ .cancelled id ∉ log ∧
    (0 < interval ∨ .expired id ∉ log)

/-- `m_timers` agrees with the log.  A one-shot timer whose callback is running was
fired and still has its entry. -/
structure Accounted (s : TimerUse γ) : Prop where
  coherent : Coherent s.current s.queue
  current_lt : ∀ id, s.current = some id → id < s.queue.nextId
  current_expired : ∀ id, s.current = some id → .expired id ∈ s.log
  log_lt : ∀ event ∈ s.log, event.id < s.queue.nextId
  interval_eq : ∀ id interval entry, .issued id interval ∈ s.log →
    s.queue.timers id = some entry → entry.interval = interval
  present : ∀ id, (s.queue.timers id).isSome ↔
    ∃ interval, .issued id interval ∈ s.log ∧ .cancelled id ∉ s.log ∧
      (0 < interval ∨ .expired id ∉ s.log ∨ s.current = some id)

theorem new_accounted (fd : Int) : Accounted (new fd : TimerUse γ) where
  coherent := new_coherent fd
  current_lt := by simp [new, current]
  current_expired := by simp [new, current]
  log_lt := by simp [new]
  interval_eq := by simp [new]
  present := by simp [new, TimerQueue.new]

/-- The fields that the invariant speaks about, without the kernel timer. -/
theorem Accounted.rearm {s : TimerUse γ} (hInv : Accounted s) (now : Time) :
    Accounted { s with queue := s.queue.rearm now } := by
  obtain ⟨timer, hTimer⟩ := rearm_eq s.queue now
  simp only [hTimer]
  exact { hInv with coherent := hInv.coherent.of_timer timer }

theorem addTimer_id (q : TimerQueue γ) (expiration : Time) (interval : Int)
    (callback : Option γ) (now : Time) :
    (q.addTimer expiration interval callback now).2 = q.nextId := by
  simp only [addTimer, generateNextId]
  split <;> rfl

/-- Only the current timer matters of the place where the loop thread is. -/
theorem Accounted.withPc {s : TimerUse γ} (hInv : Accounted s) (hCurrent : s.current = none)
    {pc : PassPc} (hPc : ({ s with pc := pc } : TimerUse γ).current = none) :
    Accounted { s with pc := pc } := by
  have hSame : ({ s with pc := pc } : TimerUse γ).current = s.current := hPc.trans hCurrent.symm
  exact ⟨hSame ▸ hInv.coherent, hSame ▸ hInv.current_lt, hSame ▸ hInv.current_expired,
    hInv.log_lt, hInv.interval_eq, hSame ▸ hInv.present⟩

/-- What a call does to the containers and to the log. -/
theorem record_cases (q : TimerQueue γ) (op : TimerOp γ) :
    (q.apply op = q ∧ q.record op = []) ∨
    (∃ expiration interval callback now,
      q.apply op = (q.withTimer expiration interval callback).rearm now ∧
      q.record op = [.issued q.nextId interval]) ∨
    (∃ id entry now, q.timers id = some entry ∧
      q.apply op = (q.withoutTimer id entry.expiration).rearm now ∧
      q.record op = [.cancelled id]) := by
  cases op with
  | runAt time callback now =>
      refine Or.inr (Or.inl ⟨_, 0, callback, now, addTimer_eq q _ _ callback now, ?_⟩)
      simp [record, runAt, addTimer_id]
  | runAfter delay callback start now =>
      refine Or.inr (Or.inl ⟨_, 0, callback, now, addTimer_eq q _ _ callback now, ?_⟩)
      simp [record, runAfter, runAt, addTimer_id]
  | runEvery interval callback start now =>
      refine Or.inr (Or.inl ⟨_, interval, callback, now, addTimer_eq q _ _ callback now, ?_⟩)
      simp [record, runEvery, addTimer_id]
  | cancel id now =>
      cases hEntry : q.timers id with
      | none => exact Or.inl ⟨cancel_none hEntry now, by simp [record, cancel, hEntry]⟩
      | some entry =>
          refine Or.inr (Or.inr ⟨id, entry, now, hEntry, cancel_some hEntry now, ?_⟩)
          simp [record, cancel, hEntry]

theorem withTimer_accounted {s : TimerUse γ} (hInv : Accounted s) (expiration : Time)
    (interval : Int) (callback : Option γ) :
    Accounted { s with
      queue := s.queue.withTimer expiration interval callback
      log := s.log ++ [.issued s.queue.nextId interval] } := by
  have hFresh : ∀ event ∈ s.log, event.id ≠ s.queue.nextId :=
    fun event hEvent => (hInv.log_lt event hEvent).ne
  constructor
  · exact withTimer_coherent hInv.coherent hInv.current_lt expiration interval callback
  · intro id hId
    exact lt_trans (hInv.current_lt id hId) (lt_add_one _)
  · intro id hId
    exact List.mem_append_left _ (hInv.current_expired id hId)
  · intro event hEvent
    rcases List.mem_append.mp hEvent with hOld | hNew
    · exact lt_trans (hInv.log_lt event hOld) (lt_add_one _)
    · obtain rfl : event = .issued s.queue.nextId interval := by simpa using hNew
      exact lt_add_one _
  · intro id found entry hIssued hEntry
    by_cases hId : id = s.queue.nextId
    · subst hId
      have hOld : .issued s.queue.nextId found ∉ s.log := fun hMem => hFresh _ hMem rfl
      obtain rfl : _ = entry := by simpa [withTimer] using hEntry
      simpa [hOld, eq_comm] using hIssued
    · exact hInv.interval_eq id found entry (by simpa [hId] using hIssued)
        (by simpa [withTimer, hId] using hEntry)
  · intro id
    by_cases hId : id = s.queue.nextId
    · subst hId
      have hCancelled : .cancelled s.queue.nextId ∉ s.log := fun hMem => hFresh _ hMem rfl
      have hExpired : .expired s.queue.nextId ∉ s.log := fun hMem => hFresh _ hMem rfl
      simp only [withTimer, Function.update_self, Option.isSome_some, true_iff]
      exact ⟨interval, by simp, by simpa using hCancelled, Or.inr (Or.inl (by simpa))⟩
    · have hOld := hInv.present id
      simpa [withTimer, hId, current] using hOld

theorem withoutTimer_accounted {s : TimerUse γ} (hInv : Accounted s) {id : TimerId}
    {entry : TimerEntry γ} (hEntry : s.queue.timers id = some entry) :
    Accounted { s with
      queue := s.queue.withoutTimer id entry.expiration
      log := s.log ++ [.cancelled id] } := by
  constructor
  · exact withoutTimer_coherent hInv.coherent hEntry
  · exact hInv.current_lt
  · intro other hOther
    exact List.mem_append_left _ (hInv.current_expired other hOther)
  · intro event hEvent
    rcases List.mem_append.mp hEvent with hOld | hNew
    · exact hInv.log_lt event hOld
    · obtain rfl : event = .cancelled id := by simpa using hNew
      exact hInv.coherent.id_lt hEntry
  · intro other interval found hIssued hFound
    by_cases hOther : other = id
    · simp [withoutTimer, hOther] at hFound
    · exact hInv.interval_eq other interval found (by simpa using hIssued)
        (by simpa [withoutTimer, hOther] using hFound)
  · intro other
    by_cases hOther : other = id
    · simp [withoutTimer, hOther]
    · have hOld := hInv.present other
      simpa [withoutTimer, hOther, current] using hOld

/-- Every call keeps the invariant, outside a pass and in a callback. -/
theorem call_accounted {s : TimerUse γ} (hInv : Accounted s) (op : TimerOp γ) :
    Accounted { s with queue := s.queue.apply op, log := s.log ++ s.queue.record op } := by
  rcases record_cases s.queue op with ⟨hApply, hRecord⟩ |
    ⟨expiration, interval, callback, now, hApply, hRecord⟩ |
    ⟨id, entry, now, hEntry, hApply, hRecord⟩
  · simpa [hApply, hRecord] using hInv
  · rw [hApply, hRecord]
    exact (withTimer_accounted hInv expiration interval callback).rearm now
  · rw [hApply, hRecord]
    exact (withoutTimer_accounted hInv hEntry).rearm now

/-! ## Steps of a pass -/

/-- The earliest timer leaves `m_active_timers` and becomes the current one. -/
theorem pop_accounted {s : TimerUse γ} (hInv : Accounted s) (hCurrent : s.current = none)
    {head : Time ×ₗ TimerId} (hHead : s.queue.earliest = some head) (now : Time) :
    Accounted ⟨s.queue.pop head, .callback now (ofLex head).2,
      s.log ++ [.expired (ofLex head).2]⟩ := by
  have hCoherent : Coherent none s.queue := hCurrent ▸ hInv.coherent
  obtain ⟨entry, hEntry, -⟩ := hCoherent.entry_of_earliest hHead
  have hLt : (ofLex head).2 < s.queue.nextId := hCoherent.id_lt hEntry
  constructor
  · exact pop_coherent hCoherent hHead
  · intro id hId
    obtain rfl : (ofLex head).2 = id := by simpa [current] using hId
    exact hLt
  · intro id hId
    obtain rfl : (ofLex head).2 = id := by simpa [current] using hId
    simp
  · intro event hEvent
    rcases List.mem_append.mp hEvent with hOld | hNew
    · exact hInv.log_lt event hOld
    · obtain rfl : event = .expired (ofLex head).2 := by simpa using hNew
      exact hLt
  · intro id interval found hIssued hFound
    exact hInv.interval_eq id interval found (by simpa using hIssued) hFound
  · intro id
    have hOld := hInv.present id
    rw [hCurrent] at hOld
    show (s.queue.timers id).isSome ↔ _
    rw [hOld]
    by_cases hId : id = (ofLex head).2
    · -- It had an entry before, so it was live; now it is the current timer.
      subst hId
      have hLive : ∃ interval, .issued (ofLex head).2 interval ∈ s.log ∧
          .cancelled (ofLex head).2 ∉ s.log := by
        obtain ⟨interval, hIssued, hCancelled, -⟩ := hOld.mp (by simp [hEntry])
        exact ⟨interval, hIssued, hCancelled⟩
      obtain ⟨interval, hIssued, hCancelled⟩ := hLive
      constructor
      · intro _
        exact ⟨interval, by simpa using hIssued, by simpa using hCancelled,
          Or.inr (Or.inr rfl)⟩
      · intro _
        exact hOld.mp (by simp [hEntry])
    · have hOther : ¬ (ofLex head).2 = id := fun hEq => hId hEq.symm
      simp [current, hId, hOther]

/-- At the condition of the loop no timer is the current one. -/
theorem present_settled {s : TimerUse γ} {id other : TimerId} (hInv : Accounted s)
    (hCurrent : s.current = some id) (hOther : other ≠ id) :
    (s.queue.timers other).isSome ↔ Live s.log other := by
  have hNot : s.current ≠ some other := by
    rw [hCurrent]
    simpa using hOther.symm
  simpa [Live, hNot] using hInv.present other

theorem reschedule_accounted {s : TimerUse γ} {now : Time} {id : TimerId}
    {entry : TimerEntry γ} (hInv : Accounted s) (hCurrent : s.current = some id)
    (hEntry : s.queue.timers id = some entry) (hPeriodic : 0 < entry.interval) :
    Accounted { s with queue := s.queue.reschedule id entry, pc := .condition now } := by
  have hInterval := fun interval hIssued => hInv.interval_eq id interval entry hIssued hEntry
  constructor
  · exact reschedule_coherent (hCurrent ▸ hInv.coherent) hEntry
  · simp [current]
  · simp [current]
  · exact hInv.log_lt
  · intro other interval found hIssued hFound
    by_cases hOther : other = id
    · subst hOther
      obtain rfl : _ = found := by simpa [reschedule] using hFound
      exact hInterval interval hIssued
    · exact hInv.interval_eq other interval found hIssued
        (by simpa [reschedule, hOther] using hFound)
  · intro other
    by_cases hOther : other = id
    · subst hOther
      obtain ⟨interval, hIssued, hCancelled, -⟩ := (hInv.present other).mp (by simp [hEntry])
      simp only [reschedule, Function.update_self, Option.isSome_some, true_iff]
      refine ⟨interval, hIssued, hCancelled, Or.inl ?_⟩
      rw [← hInterval interval hIssued]
      exact hPeriodic
    · have hOld := present_settled hInv hCurrent hOther
      simpa [reschedule, hOther, current, Live] using hOld

theorem eraseTimer_accounted {s : TimerUse γ} {now : Time} {id : TimerId}
    {entry : TimerEntry γ} (hInv : Accounted s) (hCurrent : s.current = some id)
    (hEntry : s.queue.timers id = some entry) (hOneShot : ¬ 0 < entry.interval) :
    Accounted { s with queue := s.queue.eraseTimer id, pc := .condition now } := by
  constructor
  · exact eraseTimer_coherent (hCurrent ▸ hInv.coherent)
  · simp [current]
  · simp [current]
  · exact hInv.log_lt
  · intro other interval found hIssued hFound
    by_cases hOther : other = id
    · simp [eraseTimer, hOther] at hFound
    · exact hInv.interval_eq other interval found hIssued
        (by simpa [eraseTimer, hOther] using hFound)
  · intro other
    by_cases hOther : other = id
    · -- A one-shot timer that was fired is not live.
      subst hOther
      simp only [eraseTimer, Function.update_self, Option.isSome_none, Bool.false_eq_true,
        false_iff]
      rintro ⟨interval, hIssued, -, hPeriodic | hNotExpired | hNone⟩
      · rw [← hInv.interval_eq other interval entry hIssued hEntry] at hPeriodic
        exact hOneShot hPeriodic
      · exact hNotExpired (hInv.current_expired other hCurrent)
      · simp [current] at hNone
    · have hOld := present_settled hInv hCurrent hOther
      simpa [eraseTimer, hOther, current, Live] using hOld

theorem settled_eq_some {s s' : TimerUse γ} {now : Time} {id : TimerId}
    (hSettled : s.settled now id = some s') :
    ∃ q, s.queue.settle id = .next q ∧ s' = { s with queue := q, pc := .condition now } := by
  unfold settled at hSettled
  split at hSettled
  · next q hSettle => exact ⟨q, hSettle, (Option.some.inj hSettled).symm⟩
  · cases hSettled

theorem settled_accounted {s s' : TimerUse γ} {now : Time} {id : TimerId}
    (hInv : Accounted s) (hCurrent : s.current = some id)
    (hSettled : s.settled now id = some s') : Accounted s' := by
  obtain ⟨q, hSettle, rfl⟩ := settled_eq_some hSettled
  obtain ⟨entry, hEntry, ⟨hPeriodic, rfl⟩ | ⟨hOneShot, rfl⟩⟩ := settle_cases hSettle
  · exact reschedule_accounted hInv hCurrent hEntry hPeriodic
  · exact eraseTimer_accounted hInv hCurrent hEntry hOneShot

/-! ## One step -/

/-- Everything that a step can do. -/
inductive Moves (s : TimerUse γ) : TimerUse γ → Prop where
  | call (op : TimerOp γ) :
      Moves s { s with queue := s.queue.apply op, log := s.log ++ s.queue.record op }
  | beginPass (now : Time) (hPc : s.pc = .outside) : Moves s { s with pc := .condition now }
  | skip (now : Time) (head : Time ×ₗ TimerId) (hPc : s.pc = .condition now)
      (hHead : s.queue.earliest = some head) (hEntry : s.queue.timers (ofLex head).2 = none) :
      Moves s { s with queue := s.queue.pop head }
  | invoke (now : Time) (head : Time ×ₗ TimerId) (entry : TimerEntry γ)
      (hPc : s.pc = .condition now) (hHead : s.queue.earliest = some head)
      (hEntry : s.queue.timers (ofLex head).2 = some entry) :
      Moves s ⟨{ s.queue.pop head with
        fired := s.queue.fired ++ [(entry.expiration, (ofLex head).2)] },
        .callback now (ofLex head).2, s.log ++ [.expired (ofLex head).2]⟩
  | silent (now : Time) (head : Time ×ₗ TimerId) (hPc : s.pc = .condition now)
      (hHead : s.queue.earliest = some head) (s' : TimerUse γ)
      (hSettled : settled ⟨s.queue.pop head, .callback now (ofLex head).2,
        s.log ++ [.expired (ofLex head).2]⟩ now (ofLex head).2 = some s') : Moves s s'
  | endCallback (now : Time) (id : TimerId) (hPc : s.pc = .callback now id)
      (s' : TimerUse γ) (hSettled : s.settled now id = some s') : Moves s s'
  | endPass (now finish : Time) (hPc : s.pc = .condition now) :
      Moves s { s with queue := s.queue.rearm finish, pc := .outside }

theorem moves_of_step {s s' : TimerUse γ} {label : UseLabel γ}
    (hStep : step s label = some s') : Moves s s' := by
  cases label with
  | call op =>
      simp only [step, Option.ite_none_right_eq_some, Option.some.injEq] at hStep
      obtain ⟨-, rfl⟩ := hStep
      exact .call op
  | beginPass now =>
      simp only [step] at hStep
      split at hStep
      · next hPc =>
        obtain rfl := Option.some.inj hStep
        exact .beginPass now hPc
      · cases hStep
  | expire =>
      simp only [step] at hStep
      split at hStep
      · next now head hPc hHead =>
        simp only [Option.ite_none_right_eq_some] at hStep
        obtain ⟨-, hStep⟩ := hStep
        simp only [expireEarliest] at hStep
        split at hStep
        · next hEntry =>
          obtain rfl := Option.some.inj hStep
          exact .skip now head hPc hHead hEntry
        · next entry hEntry =>
          split at hStep
          · obtain rfl := Option.some.inj hStep
            exact .invoke now head entry hPc hHead hEntry
          · exact .silent now head hPc hHead s' hStep
      · cases hStep
  | endCallback =>
      simp only [step] at hStep
      split at hStep
      · next now id hPc => exact .endCallback now id hPc s' hStep
      · cases hStep
  | endPass finish =>
      simp only [step] at hStep
      split at hStep
      · next now hPc =>
        simp only [Option.ite_none_left_eq_some, Option.some.injEq] at hStep
        obtain ⟨-, rfl⟩ := hStep
        exact .endPass now finish hPc
      · cases hStep

theorem step_accounted {s s' : TimerUse γ} {label : UseLabel γ} (hInv : Accounted s)
    (hStep : step s label = some s') : Accounted s' := by
  cases moves_of_step hStep with
  | call op => exact call_accounted hInv op
  | beginPass now hPc => exact hInv.withPc (by simp [current, hPc]) rfl
  | skip now head hPc hHead hEntry =>
      have hCurrent : s.current = none := by simp [current, hPc]
      have hCoherent : Coherent none s.queue := hCurrent ▸ hInv.coherent
      obtain ⟨entry, hFound, -⟩ := hCoherent.entry_of_earliest hHead
      rw [hEntry] at hFound
      cases hFound
  | invoke now head entry hPc hHead hEntry =>
      have hCurrent : s.current = none := by simp [current, hPc]
      have hPopped := pop_accounted hInv hCurrent hHead now
      have hCoherent := hPopped.coherent
      exact { hPopped with
        coherent := ⟨hCoherent.mirror, hCoherent.entry_id, hCoherent.mem_issued,
          hCoherent.issued_lt, hCoherent.issued_nodup⟩ }
  | silent now head hPc hHead _ hSettled =>
      have hCurrent : s.current = none := by simp [current, hPc]
      exact settled_accounted (pop_accounted hInv hCurrent hHead now) rfl hSettled
  | endCallback now id hPc _ hSettled =>
      exact settled_accounted hInv (by simp [current, hPc]) hSettled
  | endPass now finish hPc =>
      exact (hInv.rearm finish).withPc (by simp [current, hPc]) rfl

/-- A step does not invoke the callback of a timer that is gone. -/
theorem step_staysGone {s s' : TimerUse γ} {label : UseLabel γ} {id : TimerId}
    (hGone : Gone id s.queue) (hStep : step s label = some s') :
    StaysGone id s.queue s'.queue := by
  cases moves_of_step hStep with
  | call op => exact runScript_staysGone hGone [op]
  | beginPass now hPc => exact .refl hGone
  | skip now head hPc hHead hEntry => exact ⟨hGone, rfl⟩
  | invoke now head entry hPc hHead hEntry =>
      have hOther : (ofLex head).2 ≠ id := by
        rintro rfl
        rw [hGone.2] at hEntry
        cases hEntry
      exact ⟨hGone, by simp [invocations, hOther]⟩
  | silent now head hPc hHead _ hSettled =>
      obtain ⟨q, hSettle, rfl⟩ := settled_eq_some hSettled
      have hPopped : StaysGone id s.queue (s.queue.pop head) := ⟨hGone, rfl⟩
      exact hPopped.trans (settle_staysGone hPopped.gone hSettle)
  | endCallback now other hPc _ hSettled =>
      obtain ⟨q, hSettle, rfl⟩ := settled_eq_some hSettled
      exact settle_staysGone hGone hSettle
  | endPass now finish hPc => exact rearm_staysGone hGone finish

/-! ## Runs -/

theorem exec_accounted {fd : Int} {labels : List (UseLabel γ)} {s : TimerUse γ}
    (hRun : exec step (new fd) labels = some s) : Accounted s :=
  exec_invariant Accounted (fun _ _ _ hInv hStep => step_accounted hInv hStep)
    (new_accounted fd) hRun

theorem exec_staysGone {s s' : TimerUse γ} {later : List (UseLabel γ)} {id : TimerId}
    (hGone : Gone id s.queue) (hRun : exec step s later = some s') :
    StaysGone id s.queue s'.queue :=
  exec_invariant (fun s' => StaysGone id s.queue s'.queue)
    (fun _ _ _ hBefore hStep => hBefore.trans (step_staysGone hBefore.gone hStep))
    (.refl hGone) hRun

/-! ## The pass of `TimerQueue` in single steps -/

theorem exec_calls (q : TimerQueue γ) (now : Time) (id : TimerId) (log : List TimerEvent)
    (script : List (TimerOp γ)) :
    ∃ log', exec step ⟨q, .callback now id, log⟩ (script.map .call) =
      some ⟨q.runScript script, .callback now id, log'⟩ := by
  induction script generalizing q log with
  | nil => exact ⟨log, rfl⟩
  | cons op script ih =>
      obtain ⟨log', hRun⟩ := ih (q.apply op) (log ++ q.record op)
      exact ⟨log', hRun⟩

/-- An iteration of the loop: the timer is taken out, its callback makes its calls and
returns. -/
theorem covers_expireOnce {now : Time} {script : List (TimerOp γ)} {q q' : TimerQueue γ}
    (hNext : expireOnce now script q = .next q') (log : List TimerEvent) :
    ∃ labels log', exec step ⟨q, .condition now, log⟩ labels =
      some ⟨q', .condition now, log'⟩ := by
  obtain ⟨head, hHead, hDue, hCases⟩ := expireOnce_eq_next hNext
  have hStep : step ⟨q, .condition now, log⟩ .expire =
      expireEarliest ⟨q, .condition now, log⟩ now head := by
    simp [step, hHead, not_lt.mp hDue]
  have hTimers : (q.pop head).timers = q.timers := rfl
  rcases hCases with ⟨hEntry, rfl⟩ | ⟨entry, hEntry, hSettle⟩
  · refine ⟨[.expire], log, ?_⟩
    simp [hStep, expireEarliest, hTimers, hEntry]
  · cases hCallback : entry.callback with
    | none =>
        simp only [invoke, hCallback] at hSettle
        refine ⟨[.expire], log ++ [.expired (ofLex head).2], ?_⟩
        simp [hStep, expireEarliest, hTimers, hEntry, hCallback, settled, hSettle]
    | some callback =>
        simp only [invoke, hCallback] at hSettle
        obtain ⟨log', hCalls⟩ := exec_calls
          { q.pop head with
            fired := (q.pop head).fired ++ [(entry.expiration, (ofLex head).2)] }
          now (ofLex head).2 (log ++ [.expired (ofLex head).2]) script
        refine ⟨.expire :: (script.map .call ++ [.endCallback]), log', ?_⟩
        refine exec_cons_eq_some.mpr ⟨_, ?_, exec_append_eq_some hCalls ?_⟩
        · simp only [hStep, expireEarliest, hTimers, hEntry, hCallback]
        · simp [step, settled, hSettle]

theorem due_eq_false {now : Time} {script : List (TimerOp γ)} {q : TimerQueue γ}
    (hLeave : expireOnce now script q = .leave) : q.due now = false := by
  have hLater := expireOnce_eq_leave hLeave
  unfold due
  cases hHead : q.earliest with
  | none => rfl
  | some head => simpa using hLater head hHead

/-- The whole loop, until the earliest timer is not due. -/
theorem covers_expireLoop {now : Time} {scripts : List (List (TimerOp γ))}
    {q q' : TimerQueue γ} (hDone : expireLoop now scripts q = .done q')
    (log : List TimerEvent) :
    q'.due now = false ∧ ∃ labels log', exec step ⟨q, .condition now, log⟩ labels =
      some ⟨q', .condition now, log'⟩ := by
  induction scripts generalizing q log with
  | nil =>
      simp only [expireLoop] at hDone
      split at hDone
      · next hLeave =>
        obtain rfl := Pass.done.inj hDone
        exact ⟨due_eq_false hLeave, [], log, rfl⟩
      · cases hDone
  | cons script scripts ih =>
      cases hIteration : expireOnce now script q with
      | leave =>
          simp only [expireLoop, hIteration] at hDone
          obtain rfl := Pass.done.inj hDone
          exact ⟨due_eq_false hIteration, [], log, rfl⟩
      | useAfterFree id => simp [expireLoop, hIteration] at hDone
      | next middle =>
          simp only [expireLoop, hIteration] at hDone
          obtain ⟨first, log', hFirst⟩ := covers_expireOnce hIteration log
          obtain ⟨hDue, rest, log'', hRest⟩ := ih hDone log'
          exact ⟨hDue, first ++ rest, log'', exec_append_eq_some hFirst hRest⟩

theorem covers_step {q q' : TimerQueue γ} {action : Action γ}
    (hStep : TimerQueue.step q action = some q') (log : List TimerEvent) :
    ∃ labels log', exec step ⟨q, .outside, log⟩ labels = some ⟨q', .outside, log'⟩ := by
  cases action with
  | call op =>
      obtain rfl : q.apply op = q' := by simpa [TimerQueue.step] using hStep
      exact ⟨[.call op], log ++ q.record op, rfl⟩
  | process now finish scripts =>
      cases hLoop : expireLoop now scripts q with
      | unfinished => simp [TimerQueue.step, processExpiredTimers, hLoop] at hStep
      | useAfterFree id => simp [TimerQueue.step, processExpiredTimers, hLoop] at hStep
      | done middle =>
          obtain rfl : middle.rearm finish = q' := by
            simpa [TimerQueue.step, processExpiredTimers, hLoop] using hStep
          obtain ⟨hDue, labels, log', hRun⟩ := covers_expireLoop hLoop log
          refine ⟨.beginPass now :: (labels ++ [.endPass finish]), log', ?_⟩
          refine exec_cons_eq_some.mpr ⟨_, rfl, exec_append_eq_some hRun ?_⟩
          simp [step, hDue]

/-- Every run of the queue in whole operations and passes is a run in single steps. -/
theorem covers_exec {q q' : TimerQueue γ} {actions : List (Action γ)}
    (hRun : exec TimerQueue.step q actions = some q') (log : List TimerEvent) :
    ∃ labels log', exec step ⟨q, .outside, log⟩ labels = some ⟨q', .outside, log'⟩ := by
  induction actions generalizing q log with
  | nil =>
      obtain rfl : q = q' := by simpa using hRun
      exact ⟨[], log, rfl⟩
  | cons action actions ih =>
      obtain ⟨next, hNext, hRest⟩ := exec_cons_eq_some.mp hRun
      obtain ⟨first, log', hFirst⟩ := covers_step hNext log
      obtain ⟨rest, log'', hLater⟩ := ih hRest log'
      exact ⟨first ++ rest, log'', exec_append_eq_some hFirst hLater⟩

/-! ## The answer of `Cancel` -/

theorem cancel_answer (q : TimerQueue γ) (id : TimerId) (now : Time) :
    (q.cancel id now).2 = (q.timers id).isSome := by
  unfold cancel
  cases q.timers id with
  | none => rfl
  | some entry => rfl

/-- **`Cancel` is exact.**  In every state that a queue reaches, outside a pass and in
every callback, and for every timer but the one whose callback is running: `Cancel`
returns `true` exactly for the timers that were handed out, were not cancelled before,
and are periodic or were not fired yet; the callback of a timer that was cancelled is
never invoked again; and a `Cancel` that returns `false` changes nothing. -/
theorem cancel_exact {fd : Int} {labels : List (UseLabel γ)} {s : TimerUse γ}
    (hRun : exec step (new fd) labels = some s) (hUser : s.userCode = true) {id : TimerId}
    (hOther : s.current ≠ some id) (now : Time) :
    ((s.queue.cancel id now).2 = true ↔ Live s.log id) ∧
      (∃ next, step s (.call (.cancel id now)) = some next ∧
        next.queue = (s.queue.cancel id now).1 ∧
        ((s.queue.cancel id now).2 = true → ∀ later final,
          exec step next later = some final →
            invocations id final.queue = invocations id s.queue)) ∧
      ((s.queue.cancel id now).2 = false → (s.queue.cancel id now).1 = s.queue) := by
  have hInv := exec_accounted hRun
  have hPresent := hInv.present id
  refine ⟨?_, ?_, ?_⟩
  · rw [cancel_answer, hPresent]
    simp [Live, hOther]
  · refine ⟨_, by simp only [step, hUser, if_true]; rfl, rfl, ?_⟩
    intro hTrue later final hLater
    obtain ⟨entry, hEntry⟩ := Option.isSome_iff_exists.mp (cancel_answer s.queue id now ▸ hTrue)
    have hGone : Gone id (s.queue.apply (.cancel id now)) :=
      ⟨lt_of_lt_of_le (hInv.coherent.id_lt hEntry) (nextId_le_apply _ _),
        cancel_timers s.queue id now⟩
    rw [(exec_staysGone hGone hLater).invocations_eq, invocations, apply_fired]
    rfl
  · intro hFalse
    rw [cancel_answer, Option.isSome_eq_false_iff, Option.isNone_iff_eq_none] at hFalse
    exact cancel_none hFalse now

/-- Two timers are due in one pass, and the callback of the first is running. -/
def cancelDueTimer : List (UseLabel Unit) :=
  [.call (.runAt 5 (some ()) 0), .call (.runAt 6 (some ()) 0), .beginPass 10, .expire]

/-- The first callback cancels the second timer, which is due in the same pass. -/
theorem cancel_exact_cancelDueTimer :
    ∃ s, exec step (new 3) cancelDueTimer = some s ∧ s.current = some 1 ∧
      (s.queue.cancel 2 10).2 = true ∧ invocations 2 s.queue = [] ∧
      ∃ next, step s (.call (.cancel 2 10)) = some next ∧
        ∀ later final, exec step next later = some final → invocations 2 final.queue = [] := by
  have hLive : Live [.issued 1 0, .issued 2 0, .expired 1] 2 := ⟨0, by decide⟩
  refine ⟨_, rfl, rfl, ?_⟩
  obtain ⟨hAnswer, ⟨next, hNext, -, hNever⟩, -⟩ :=
    cancel_exact (show exec step (new 3) cancelDueTimer = some _ from rfl) rfl
      (show some 1 ≠ some 2 by decide) 10
  exact ⟨hAnswer.mpr hLive, rfl, next, hNext, hNever (hAnswer.mpr hLive)⟩

end TimerUse
end SolarNet
