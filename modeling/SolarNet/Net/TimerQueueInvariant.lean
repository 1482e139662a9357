import SolarNet.Net.TimerQueue

/-!
# The representation invariant of `TimerQueue`

`Coherent current q` relates the two containers.  While a callback runs, the
timer that is being expired is in `m_timers` but no longer in
`m_active_timers`; `current` names it, and outside a pass it is `none`.  Every
queue operation keeps `Coherent current`, so it may be called at any point of a
pass.  `Programmed q` relates the kernel timer to `m_active_timers`; every
operation establishes it.
-/

namespace SolarNet

/-- The operation is a `Cancel` of `id`. -/
def TimerOp.cancels {γ : Type*} : TimerOp γ → TimerId → Bool
  | .cancel other _, id => other == id
  | _, _ => false

theorem TimerOp.cancels_iff {γ : Type*} {op : TimerOp γ} {id : TimerId} :
    op.cancels id = true ↔ ∃ now, op = .cancel id now := by
  cases op <;> simp [TimerOp.cancels]

namespace TimerQueue

variable {γ : Type*}

/-! ## The earliest timer -/

theorem earliest_eq_none {q : TimerQueue γ} :
    q.earliest = none ↔ q.activeTimers = ∅ :=
  Finset.min_eq_top

theorem mem_of_earliest {q : TimerQueue γ} {head : Time ×ₗ TimerId}
    (hHead : q.earliest = some head) : head ∈ q.activeTimers :=
  Finset.mem_of_min hHead

theorem earliest_le {q : TimerQueue γ} {head other : Time ×ₗ TimerId}
    (hHead : q.earliest = some head) (hOther : other ∈ q.activeTimers) :
    head ≤ other :=
  Finset.min_le_of_eq hOther hHead

/-- When the earliest timer is not due, none is. -/
theorem forall_active_late {q : TimerQueue γ} {now : Time}
    (hLate : ∀ head, q.earliest = some head → (ofLex head).1 > now) :
    ∀ pair ∈ q.activeTimers, now < (ofLex pair).1 := by
  intro pair hPair
  cases hHead : q.earliest with
  | none =>
      rw [earliest_eq_none.mp hHead] at hPair
      simp at hPair
  | some head =>
      have hLe : toLex (ofLex head) ≤ toLex (ofLex pair) := earliest_le hHead hPair
      rcases Prod.Lex.toLex_le_toLex.mp hLe with hLt | ⟨hEq, -⟩
      · exact lt_trans (hLate head hHead) hLt
      · exact hEq ▸ hLate head hHead

/-- The queue without what the kernel timer is set to. -/
theorem resetTimerFd_eq (q : TimerQueue γ) (expiration now : Time) :
    ∃ timer, q.resetTimerFd expiration now = { q with timer := timer } := by
  unfold resetTimerFd
  split
  · exact ⟨q.timer, rfl⟩
  · exact ⟨_, rfl⟩

theorem rearm_eq (q : TimerQueue γ) (now : Time) :
    ∃ timer, q.rearm now = { q with timer := timer } := by
  unfold rearm
  split
  · exact resetTimerFd_eq q _ now
  · unfold disarm
    split
    · exact ⟨_, rfl⟩
    · exact ⟨q.timer, rfl⟩

/-! ## The invariant -/

/-- `m_active_timers` holds exactly the expirations of the timers in `m_timers`
other than `current`, and ids are handed out in increasing order. -/
structure Coherent (current : Option TimerId) (q : TimerQueue γ) : Prop where
  mirror : ∀ time id, toLex (time, id) ∈ q.activeTimers ↔
    some id ≠ current ∧ ∃ entry, q.timers id = some entry ∧ entry.expiration = time
  entry_id : ∀ id entry, q.timers id = some entry → entry.id = id
  mem_issued : ∀ id entry, q.timers id = some entry → id ∈ q.issued
  issued_lt : ∀ id ∈ q.issued, id < q.nextId
  issued_nodup : q.issued.Nodup

/-- The kernel timer is set for the earliest active timer, and is disarmed when
there is none. -/
def Programmed (q : TimerQueue γ) : Prop :=
  0 ≤ q.timerFd →
    match q.earliest with
    | none => q.timer = .disarmed
    | some head => ∃ now, q.timer =
        .armed (ofLex head).1 (timerSpec (ofLex head).1 now)

theorem Coherent.of_timer {current : Option TimerId} {q : TimerQueue γ}
    (hCoherent : Coherent current q) (timer : TimerFd) :
    Coherent current { q with timer := timer } :=
  ⟨hCoherent.mirror, hCoherent.entry_id, hCoherent.mem_issued,
    hCoherent.issued_lt, hCoherent.issued_nodup⟩

theorem Coherent.id_lt {current : Option TimerId} {q : TimerQueue γ}
    (hCoherent : Coherent current q) {id : TimerId} {entry : TimerEntry γ}
    (hEntry : q.timers id = some entry) : id < q.nextId :=
  hCoherent.issued_lt id (hCoherent.mem_issued id entry hEntry)

theorem Coherent.timers_nextId {current : Option TimerId} {q : TimerQueue γ}
    (hCoherent : Coherent current q) : q.timers q.nextId = none := by
  cases hEntry : q.timers q.nextId with
  | none => rfl
  | some entry => exact absurd (hCoherent.id_lt hEntry) (lt_irrefl _)

theorem Coherent.rearm {current : Option TimerId} {q : TimerQueue γ}
    (hCoherent : Coherent current q) (now : Time) : Coherent current (q.rearm now) := by
  obtain ⟨timer, hTimer⟩ := rearm_eq q now
  rw [hTimer]
  exact hCoherent.of_timer timer

theorem new_coherent (fd : Int) : Coherent none (new fd : TimerQueue γ) where
  mirror := by simp [new]
  entry_id := by simp [new]
  mem_issued := by simp [new]
  issued_lt := by simp [new]
  issued_nodup := List.nodup_nil

/-! ## Setting the kernel timer -/

theorem rearm_programmed (q : TimerQueue γ) (now : Time) : (q.rearm now).Programmed := by
  intro hFd
  obtain ⟨timer, hTimer⟩ := rearm_eq q now
  have hFd' : 0 ≤ q.timerFd := by
    rw [hTimer] at hFd
    exact hFd
  have hEarliest : (q.rearm now).earliest = q.earliest := by
    rw [hTimer]
    rfl
  rw [hEarliest]
  cases hHead : q.earliest with
  | none => simp [TimerQueue.rearm, hHead, disarm, hFd']
  | some head =>
      refine ⟨now, ?_⟩
      simp [TimerQueue.rearm, hHead, resetTimerFd, not_lt.mpr hFd']

theorem new_programmed (fd : Int) : (new fd : TimerQueue γ).Programmed := by
  intro _
  have hEarliest : (new fd : TimerQueue γ).earliest = none :=
    earliest_eq_none.mpr rfl
  rw [hEarliest]
  rfl

/-! ## Adding a timer -/

/-- The containers after `RunAt` or `RunEvery`, before the timerfd is set. -/
def withTimer (q : TimerQueue γ) (expiration : Time) (interval : Int)
    (callback : Option γ) : TimerQueue γ :=
  { q with
    nextId := q.nextId + 1
    issued := q.issued ++ [q.nextId]
    activeTimers := insert (toLex (expiration, q.nextId)) q.activeTimers
    timers := Function.update q.timers q.nextId
      (some ⟨q.nextId, expiration, interval, callback⟩) }

/-- The set is not empty after an insertion, so setting the timerfd to its first
element is what `rearm` does. -/
theorem addTimer_eq (q : TimerQueue γ) (expiration : Time) (interval : Int)
    (callback : Option γ) (now : Time) :
    (q.addTimer expiration interval callback now).1 =
      (q.withTimer expiration interval callback).rearm now := by
  cases hHead : (q.withTimer expiration interval callback).earliest with
  | none =>
      have hEmpty := earliest_eq_none.mp hHead
      simp [withTimer] at hEmpty
  | some head =>
      simp only [withTimer] at hHead
      simp [addTimer, generateNextId, TimerQueue.rearm, withTimer, hHead]

theorem withTimer_coherent {current : Option TimerId} {q : TimerQueue γ}
    (hCoherent : Coherent current q) (hCurrent : ∀ id, current = some id → id < q.nextId)
    (expiration : Time) (interval : Int) (callback : Option γ) :
    Coherent current (q.withTimer expiration interval callback) := by
  have hFresh : q.timers q.nextId = none := hCoherent.timers_nextId
  constructor
  · intro time id
    by_cases hId : id = q.nextId
    · subst hId
      have hNotCurrent : some q.nextId ≠ current := by
        intro hEq
        exact lt_irrefl _ (hCurrent _ hEq.symm)
      have hOld : toLex (time, q.nextId) ∉ q.activeTimers := by
        rw [hCoherent.mirror, hFresh]
        simp
      simp [withTimer, hOld, hNotCurrent, eq_comm]
    · have hOther := hCoherent.mirror time id
      simp [withTimer, hId, hOther]
  · intro id entry hEntry
    by_cases hId : id = q.nextId
    · subst hId
      have hNew : (⟨q.nextId, expiration, interval, callback⟩ : TimerEntry γ) = entry := by
        simpa [withTimer] using hEntry
      rw [← hNew]
    · exact hCoherent.entry_id id entry (by simpa [withTimer, hId] using hEntry)
  · intro id entry hEntry
    by_cases hId : id = q.nextId
    · simp [withTimer, hId]
    · have hOld := hCoherent.mem_issued id entry (by simpa [withTimer, hId] using hEntry)
      simp [withTimer, hOld]
  · intro id hId
    rcases List.mem_append.mp hId with hOld | hNew
    · have hLt := hCoherent.issued_lt id hOld
      exact lt_trans hLt (lt_add_one _)
    · obtain rfl : id = q.nextId := by simpa using hNew
      exact lt_add_one _
  · show (q.issued ++ [q.nextId]).Nodup
    rw [List.nodup_append]
    refine ⟨hCoherent.issued_nodup, List.nodup_singleton _, ?_⟩
    intro id hId other hOther hEq
    obtain rfl : other = q.nextId := by simpa using hOther
    subst hEq
    exact lt_irrefl _ (hCoherent.issued_lt _ hId)

/-! ## Cancelling a timer -/

/-- The containers after a successful `Cancel`, before the timerfd is set. -/
def withoutTimer (q : TimerQueue γ) (id : TimerId) (expiration : Time) : TimerQueue γ :=
  { q with
    activeTimers := q.activeTimers.erase (toLex (expiration, id))
    timers := Function.update q.timers id none }

theorem cancel_some {q : TimerQueue γ} {id : TimerId} {entry : TimerEntry γ}
    (hEntry : q.timers id = some entry) (now : Time) :
    (q.cancel id now).1 = (q.withoutTimer id entry.expiration).rearm now := by
  simp [cancel, hEntry, withoutTimer, eraseTimer]

theorem cancel_none {q : TimerQueue γ} {id : TimerId} (hEntry : q.timers id = none)
    (now : Time) : (q.cancel id now).1 = q := by
  simp [cancel, hEntry]

theorem withoutTimer_coherent {current : Option TimerId} {q : TimerQueue γ}
    (hCoherent : Coherent current q) {id : TimerId} {entry : TimerEntry γ}
    (hEntry : q.timers id = some entry) :
    Coherent current (q.withoutTimer id entry.expiration) := by
  have hSub : ∀ other found, (q.withoutTimer id entry.expiration).timers other = some found →
      q.timers other = some found := by
    intro other found hFound
    by_cases hOther : other = id
    · simp [withoutTimer, hOther] at hFound
    · simpa [withoutTimer, hOther] using hFound
  constructor
  · intro time other
    by_cases hOther : other = id
    · -- The pair that is erased is the only one that carries this id.
      subst hOther
      have hOld := hCoherent.mirror time other
      simp only [withoutTimer, Finset.mem_erase, Function.update_self]
      constructor
      · rintro ⟨hNe, hMem⟩
        obtain ⟨-, found, hFound, hTime⟩ := hOld.mp hMem
        rw [hEntry] at hFound
        obtain rfl := Option.some.inj hFound
        exact absurd (by rw [hTime]) hNe
      · rintro ⟨-, found, hFound, -⟩
        cases hFound
    · have hOld := hCoherent.mirror time other
      simp [withoutTimer, hOther, hOld]
  · exact fun other found hFound => hCoherent.entry_id other found (hSub other found hFound)
  · exact fun other found hFound => hCoherent.mem_issued other found (hSub other found hFound)
  · exact hCoherent.issued_lt
  · exact hCoherent.issued_nodup

/-! ## One operation -/

/-- Every operation either leaves the queue alone or changes the containers in
one of two ways and then sets the timerfd. -/
theorem apply_cases (q : TimerQueue γ) (op : TimerOp γ) :
    q.apply op = q ∨
    (∃ expiration interval callback now,
      q.apply op = (q.withTimer expiration interval callback).rearm now) ∨
    (∃ id entry now, op = .cancel id now ∧ q.timers id = some entry ∧
      q.apply op = (q.withoutTimer id entry.expiration).rearm now) := by
  cases op with
  | runAt time callback now =>
      exact Or.inr (Or.inl ⟨_, _, _, _, addTimer_eq q _ _ callback now⟩)
  | runAfter delay callback start now =>
      exact Or.inr (Or.inl ⟨_, _, _, _, addTimer_eq q _ _ callback now⟩)
  | runEvery interval callback start now =>
      exact Or.inr (Or.inl ⟨_, _, _, _, addTimer_eq q _ _ callback now⟩)
  | cancel id now =>
      cases hEntry : q.timers id with
      | none => exact Or.inl (cancel_none hEntry now)
      | some entry =>
          exact Or.inr (Or.inr ⟨id, entry, now, rfl, hEntry, cancel_some hEntry now⟩)

/-- An operation keeps the invariant, with or without a timer being expired. -/
theorem apply_coherent {current : Option TimerId} {q : TimerQueue γ}
    (hCoherent : Coherent current q) (hCurrent : ∀ id, current = some id → id < q.nextId)
    (op : TimerOp γ) : Coherent current (q.apply op) := by
  rcases apply_cases q op with hSame | ⟨_, _, _, _, hAdd⟩ | ⟨_, _, _, -, hEntry, hCancel⟩
  · rw [hSame]
    exact hCoherent
  · rw [hAdd]
    exact (withTimer_coherent hCoherent hCurrent _ _ _).rearm _
  · rw [hCancel]
    exact (withoutTimer_coherent hCoherent hEntry).rearm _

/-- Ids only grow. -/
theorem nextId_le_apply (q : TimerQueue γ) (op : TimerOp γ) :
    q.nextId ≤ (q.apply op).nextId := by
  rcases apply_cases q op with hSame | ⟨_, _, _, _, hAdd⟩ | ⟨_, _, _, -, -, hCancel⟩
  · rw [hSame]
  · obtain ⟨timer, hTimer⟩ := rearm_eq (q.withTimer _ _ _) _
    rw [hAdd, hTimer]
    exact (lt_add_one q.nextId).le
  · obtain ⟨timer, hTimer⟩ := rearm_eq (q.withoutTimer _ _) _
    rw [hCancel, hTimer]
    exact le_rfl

theorem apply_programmed {q : TimerQueue γ} (hProgrammed : q.Programmed)
    (op : TimerOp γ) : (q.apply op).Programmed := by
  rcases apply_cases q op with hSame | ⟨_, _, _, _, hAdd⟩ | ⟨_, _, _, -, -, hCancel⟩
  · rw [hSame]
    exact hProgrammed
  · rw [hAdd]
    exact rearm_programmed _ _
  · rw [hCancel]
    exact rearm_programmed _ _

theorem apply_timerFd (q : TimerQueue γ) (op : TimerOp γ) :
    (q.apply op).timerFd = q.timerFd := by
  rcases apply_cases q op with hSame | ⟨_, _, _, _, hAdd⟩ | ⟨_, _, _, -, -, hCancel⟩
  · rw [hSame]
  · obtain ⟨timer, hTimer⟩ := rearm_eq (q.withTimer _ _ _) _
    rw [hAdd, hTimer]
    rfl
  · obtain ⟨timer, hTimer⟩ := rearm_eq (q.withoutTimer _ _) _
    rw [hCancel, hTimer]
    rfl

/-! ## One callback -/

theorem runScript_cons (q : TimerQueue γ) (op : TimerOp γ) (script : List (TimerOp γ)) :
    q.runScript (op :: script) = (q.apply op).runScript script := rfl

theorem runScript_coherent {current : Option TimerId} {q : TimerQueue γ}
    (hCoherent : Coherent current q) (hCurrent : ∀ id, current = some id → id < q.nextId)
    (script : List (TimerOp γ)) : Coherent current (q.runScript script) := by
  induction script generalizing q with
  | nil => exact hCoherent
  | cons op script ih =>
      refine ih (apply_coherent hCoherent hCurrent op) ?_
      intro id hId
      exact lt_of_lt_of_le (hCurrent id hId) (nextId_le_apply q op)

/-- An operation changes the entry of a known id only by cancelling it. -/
theorem apply_timers {q : TimerQueue γ} {id : TimerId} (hId : id < q.nextId)
    {op : TimerOp γ} (hOp : op.cancels id = false) : (q.apply op).timers id = q.timers id := by
  rcases apply_cases q op with hSame | ⟨_, _, _, _, hAdd⟩ | ⟨other, _, now, hEq, -, hCancel⟩
  · rw [hSame]
  · obtain ⟨timer, hTimer⟩ := rearm_eq (q.withTimer _ _ _) _
    rw [hAdd, hTimer]
    exact Function.update_of_ne hId.ne _ _
  · have hOther : id ≠ other := by
      rintro rfl
      rw [TimerOp.cancels_iff.mpr ⟨now, hEq⟩] at hOp
      cases hOp
    obtain ⟨timer, hTimer⟩ := rearm_eq (q.withoutTimer _ _) _
    rw [hCancel, hTimer]
    exact Function.update_of_ne hOther _ _

/-- After a `Cancel` the id is gone, whether it was there or not. -/
theorem cancel_timers (q : TimerQueue γ) (id : TimerId) (now : Time) :
    (q.apply (.cancel id now)).timers id = none := by
  show (q.cancel id now).1.timers id = none
  cases hEntry : q.timers id with
  | none =>
      rw [cancel_none hEntry now]
      exact hEntry
  | some entry =>
      obtain ⟨timer, hTimer⟩ := rearm_eq (q.withoutTimer id entry.expiration) now
      rw [cancel_some hEntry now, hTimer]
      exact Function.update_self _ _ _

/-- A script without a `Cancel` of `id` leaves its entry alone. -/
theorem runScript_timers {q : TimerQueue γ} {id : TimerId} (hId : id < q.nextId)
    {script : List (TimerOp γ)} (hScript : ∀ op ∈ script, op.cancels id = false) :
    (q.runScript script).timers id = q.timers id := by
  induction script generalizing q with
  | nil => rfl
  | cons op script ih =>
      have hHead : op.cancels id = false := hScript op List.mem_cons_self
      have hTail : ∀ other ∈ script, other.cancels id = false :=
        fun other hOther => hScript other (List.mem_cons_of_mem op hOther)
      rw [runScript_cons, ih (lt_of_lt_of_le hId (nextId_le_apply q op)) hTail,
        apply_timers hId hHead]

/-- An id that was handed out and is gone stays gone. -/
theorem runScript_timers_none {q : TimerQueue γ} {id : TimerId} (hId : id < q.nextId)
    (hGone : q.timers id = none) (script : List (TimerOp γ)) :
    (q.runScript script).timers id = none := by
  induction script generalizing q with
  | nil => exact hGone
  | cons op script ih =>
      refine ih (lt_of_lt_of_le hId (nextId_le_apply q op)) ?_
      cases hOp : op.cancels id with
      | true =>
          obtain ⟨now, rfl⟩ := TimerOp.cancels_iff.mp hOp
          exact cancel_timers q id now
      | false =>
          rw [apply_timers hId hOp]
          exact hGone

/-- A script with a `Cancel` of `id` removes its entry. -/
theorem runScript_timers_of_cancels {q : TimerQueue γ} {id : TimerId}
    (hId : id < q.nextId) {script : List (TimerOp γ)}
    (hScript : ∃ op ∈ script, op.cancels id = true) :
    (q.runScript script).timers id = none := by
  induction script generalizing q with
  | nil =>
      obtain ⟨op, hOp, -⟩ := hScript
      cases hOp
  | cons op script ih =>
      have hId' : id < (q.apply op).nextId := lt_of_lt_of_le hId (nextId_le_apply q op)
      cases hOp : op.cancels id with
      | true =>
          obtain ⟨now, rfl⟩ := TimerOp.cancels_iff.mp hOp
          exact runScript_timers_none hId' (cancel_timers q id now) script
      | false =>
          obtain ⟨other, hMem, hOther⟩ := hScript
          rcases List.mem_cons.mp hMem with rfl | hMem
          · rw [hOp] at hOther
            cases hOther
          · exact ih hId' ⟨other, hMem, hOther⟩

end TimerQueue
end SolarNet
