import SolarNet.Net.TimerQueuePass
import Mathlib.Algebra.BigOperators.Group.Finset.Basic

/-!
# What one expiry pass fires

A pass at `now` whose callbacks do not touch the queue.  A periodic timer goes
back into the set that the loop is emptying, so several timers take turns in
one pass.

For each timer, `dueTimes` lists the times at which it is due up to `now`, and
`finalEntry` is its entry once all of them are over.  One iteration takes the
first of these times from the earliest timer and leaves the rest of the list and
the final entry as they are.  The total length of the lists is the number of
iterations that are left.
-/

namespace SolarNet

variable {γ : Type*}

namespace TimerEntry

/-- The interval in nanoseconds. -/
def period (entry : TimerEntry γ) : Int :=
  entry.interval * nanosPerMilli

/-- The number of whole periods between the expiration and `now`. -/
def elapsed (entry : TimerEntry γ) (now : Time) : Int :=
  (now - entry.expiration) / entry.period

/-- The entry after it has been fired once; a one-shot timer has none. -/
def fire (entry : TimerEntry γ) : Option (TimerEntry γ) :=
  if 0 < entry.interval then some { entry with expiration := entry.expiration + entry.period }
  else none

/-- The times up to `now` at which the timer is due. -/
def dueTimes (entry : TimerEntry γ) (now : Time) : List Time :=
  if entry.expiration > now then []
  else if 0 < entry.interval then
    (List.range ((entry.elapsed now).toNat + 1)).map fun (k : Nat) =>
      entry.expiration + k * entry.period
  else [entry.expiration]

/-- The entry once the timer has been fired for all of these times. -/
def final (entry : TimerEntry γ) (now : Time) : Option (TimerEntry γ) :=
  if entry.expiration > now then some entry
  else if 0 < entry.interval then some { entry with
    expiration := entry.expiration + (entry.elapsed now + 1) * entry.period }
  else none

theorem period_pos {entry : TimerEntry γ} (hPeriodic : 0 < entry.interval) :
    0 < entry.period :=
  Int.mul_pos hPeriodic (by decide)

/-- One period later there is one period less to go. -/
theorem elapsed_later (entry : TimerEntry γ) (now : Time) (hPeriodic : 0 < entry.interval) :
    elapsed { entry with expiration := entry.expiration + entry.period } now =
      entry.elapsed now - 1 := by
  have hPeriod := period_pos hPeriodic
  have hShift : now - (entry.expiration + entry.period) =
      now - entry.expiration + (-1) * entry.period := by ring
  show (now - (entry.expiration + entry.period)) / entry.period = _
  rw [hShift, Int.add_mul_ediv_right _ _ hPeriod.ne']
  rfl

/-- The next expiration is later than `now` exactly when no whole period has passed. -/
theorem elapsed_eq_zero {entry : TimerEntry γ} {now : Time}
    (hDue : entry.expiration ≤ now) (hLast : entry.expiration + entry.period > now) :
    entry.elapsed now = 0 :=
  Int.ediv_eq_zero_of_lt (sub_nonneg.mpr hDue) (sub_lt_iff_lt_add'.mpr hLast)

theorem elapsed_pos {entry : TimerEntry γ} {now : Time} (hPeriodic : 0 < entry.interval)
    (hMore : ¬ entry.expiration + entry.period > now) : 1 ≤ entry.elapsed now := by
  apply (Int.le_ediv_iff_mul_le (period_pos hPeriodic)).mpr
  rw [one_mul]
  exact le_sub_iff_add_le'.mpr (not_lt.mp hMore)

/-- After all the due times the timer expires later than `now`. -/
theorem now_lt_final (entry : TimerEntry γ) (now : Time) (hPeriodic : 0 < entry.interval) :
    now < entry.expiration + (entry.elapsed now + 1) * entry.period := by
  have hLt := Int.lt_ediv_add_one_mul_self (now - entry.expiration) (period_pos hPeriodic)
  exact sub_lt_iff_lt_add'.mp hLt

theorem dueTimes_later {entry : TimerEntry γ} {now : Time} (hLater : entry.expiration > now) :
    entry.dueTimes now = [] := by
  simp [dueTimes, hLater]

/-- Firing a timer takes the first of its due times and leaves the others. -/
theorem dueTimes_due {entry : TimerEntry γ} {now : Time} (hDue : ¬ entry.expiration > now) :
    entry.dueTimes now =
      entry.expiration :: (entry.fire.map (dueTimes · now)).getD [] := by
  by_cases hPeriodic : 0 < entry.interval
  · simp only [dueTimes, fire, if_neg hDue, if_pos hPeriodic, Option.map_some, Option.getD_some]
    rw [List.range_succ_eq_map, List.map_cons, List.map_map]
    congr 1
    · simp
    · by_cases hLast : entry.expiration + entry.period > now
      · simp [hLast, elapsed_eq_zero (not_lt.mp hDue) hLast]
      · have hPos := elapsed_pos hPeriodic hLast
        have hCount : (entry.elapsed now).toNat =
            (elapsed { entry with expiration := entry.expiration + entry.period } now).toNat
              + 1 := by
          rw [elapsed_later entry now hPeriodic]
          omega
        rw [if_neg hLast, hCount]
        apply List.map_congr_left
        intro k _
        simp only [Function.comp_apply, Nat.succ_eq_add_one, period]
        push_cast
        ring
  · simp [dueTimes, fire, hDue, hPeriodic]

/-- Firing a timer does not change where it ends. -/
theorem final_due {entry : TimerEntry γ} {now : Time} (hDue : ¬ entry.expiration > now) :
    entry.final now = entry.fire.bind (final · now) := by
  by_cases hPeriodic : 0 < entry.interval
  · simp only [final, fire, if_neg hDue, if_pos hPeriodic, Option.bind_some]
    by_cases hLast : entry.expiration + entry.period > now
    · simp [hLast, elapsed_eq_zero (not_lt.mp hDue) hLast]
    · rw [if_neg hLast, elapsed_later entry now hPeriodic]
      simp only [period, Option.some.injEq, TimerEntry.mk.injEq, true_and, and_true]
      ring
  · simp [final, fire, hDue, hPeriodic]

end TimerEntry

namespace TimerQueue

/-- `m_active_timers` is the set of pairs `(expiration, id)` over `m_timers`. -/
def Mirrors (q : TimerQueue γ) : Prop :=
  ∀ time id, toLex (time, id) ∈ q.activeTimers ↔
    ∃ entry, q.timers id = some entry ∧ entry.expiration = time

/-- Between two operations of a run the containers agree. -/
theorem Coherent.mirrors {q : TimerQueue γ} (hCoherent : Coherent none q) : Mirrors q := by
  intro time id
  simpa using hCoherent.mirror time id

/-- The due times of the timer `id`; none if it has no entry. -/
def dueTimes (q : TimerQueue γ) (now : Time) (id : TimerId) : List Time :=
  ((q.timers id).map (TimerEntry.dueTimes · now)).getD []

/-- The entry of the timer `id` when none of its times is due any more. -/
def finalEntry (q : TimerQueue γ) (now : Time) (id : TimerId) : Option (TimerEntry γ) :=
  (q.timers id).bind (TimerEntry.final · now)

/-- The timer has a callback to invoke. -/
def hasCallback (q : TimerQueue γ) (id : TimerId) : Bool :=
  (q.timers id).any (·.callback.isSome)

/-- The pairs that the loop takes out in its first iterations. -/
def firings (now : Time) : Nat → TimerQueue γ → List (Time ×ₗ TimerId)
  | 0, _ => []
  | n + 1, q =>
      match q.earliest, expireOnce now [] q with
      | some head, .next q' => head :: firings now n q'
      | _, _ => []

/-! ## One iteration -/

/-- What an iteration does that fires the timer `head`. -/
structure Fires (q : TimerQueue γ) (head : Time ×ₗ TimerId) (entry : TimerEntry γ)
    (q' : TimerQueue γ) : Prop where
  timers_eq : q'.timers = Function.update q.timers (ofLex head).2 entry.fire
  active_eq : q'.activeTimers = q.activeTimers.erase head ∪
    (entry.fire.map fun next => toLex (next.expiration, (ofLex head).2)).toFinset
  fired_eq : q'.fired = q.fired ++ if entry.callback.isSome then [ofLex head] else []

/-- A callback that makes no calls only leaves its trace in the history. -/
theorem invoke_nil {q : TimerQueue γ} {head : Time ×ₗ TimerId} {entry : TimerEntry γ}
    (hTime : entry.expiration = (ofLex head).1) :
    (q.pop head).invoke entry (ofLex head).2 [] = { q.pop head with
      fired := q.fired ++ if entry.callback.isSome then [ofLex head] else [] } := by
  unfold invoke
  cases entry.callback with
  | none => simp [pop]
  | some callback =>
      simp only [Option.isSome_some, if_true, hTime]
      rfl

theorem settle_fires {q : TimerQueue γ} {head : Time ×ₗ TimerId} {entry : TimerEntry γ}
    (hEntry : q.timers (ofLex head).2 = some entry)
    (hTime : entry.expiration = (ofLex head).1) :
    ∃ q', ((q.pop head).invoke entry (ofLex head).2 []).settle (ofLex head).2 = .next q' ∧
      Fires q head entry q' := by
  rw [invoke_nil hTime]
  by_cases hPeriodic : 0 < entry.interval
  · refine ⟨_, by simp only [settle, pop, hEntry, if_pos hPeriodic]; rfl, ?_, ?_, rfl⟩
    · simp [reschedule, TimerEntry.fire, hPeriodic, TimerEntry.period]
    · simp [reschedule, TimerEntry.fire, hPeriodic, TimerEntry.period]
  · refine ⟨_, by simp only [settle, pop, hEntry, if_neg hPeriodic]; rfl, ?_, ?_, rfl⟩
    · simp [eraseTimer, TimerEntry.fire, hPeriodic]
    · simp [eraseTimer, TimerEntry.fire, hPeriodic]

/-- Either no timer is due, or the earliest timer is fired. -/
theorem Mirrors.expireOnce_cases {q : TimerQueue γ} (hMirrors : Mirrors q) (now : Time) :
    (expireOnce now [] q = .leave ∧
      ∀ head, q.earliest = some head → (ofLex head).1 > now) ∨
    ∃ head entry q', q.earliest = some head ∧ q.timers (ofLex head).2 = some entry ∧
      entry.expiration = (ofLex head).1 ∧ ¬ (ofLex head).1 > now ∧
      expireOnce now [] q = .next q' ∧ Fires q head entry q' := by
  by_cases hLeave : ∀ head, q.earliest = some head → (ofLex head).1 > now
  · exact Or.inl ⟨expireOnce_leave hLeave, hLeave⟩
  · push Not at hLeave
    obtain ⟨head, hHead, hDue⟩ := hLeave
    have hMem : toLex ((ofLex head).1, (ofLex head).2) ∈ q.activeTimers :=
      mem_of_earliest hHead
    obtain ⟨entry, hEntry, hTime⟩ := (hMirrors _ _).mp hMem
    obtain ⟨q', hSettle, hFires⟩ := settle_fires hEntry hTime
    rw [← expireOnce_due hHead (not_lt.mpr hDue) hEntry] at hSettle
    exact Or.inr ⟨head, entry, q', hHead, hEntry, hTime, not_lt.mpr hDue, hSettle, hFires⟩

section Fires

variable {q q' : TimerQueue γ} {head : Time ×ₗ TimerId} {entry : TimerEntry γ}

theorem Fires.mem_active (hFires : Fires q head entry q') {pair : Time ×ₗ TimerId} :
    pair ∈ q'.activeTimers ↔ (pair ≠ head ∧ pair ∈ q.activeTimers) ∨
      ∃ next, entry.fire = some next ∧ pair = toLex (next.expiration, (ofLex head).2) := by
  rw [hFires.active_eq]
  cases entry.fire with
  | none => simp
  | some next => simp [or_comm]

/-- The earliest timer is the only active one with its id. -/
theorem Mirrors.other_id (hMirrors : Mirrors q) (hEntry : q.timers (ofLex head).2 = some entry)
    (hTime : entry.expiration = (ofLex head).1) {pair : Time ×ₗ TimerId}
    (hPair : pair ∈ q.activeTimers) (hNe : pair ≠ head) : (ofLex pair).2 ≠ (ofLex head).2 := by
  intro hId
  have hMem : toLex ((ofLex pair).1, (ofLex pair).2) ∈ q.activeTimers := hPair
  obtain ⟨found, hFound, hPairTime⟩ := (hMirrors _ _).mp hMem
  rw [hId, hEntry] at hFound
  obtain rfl := Option.some.inj hFound
  apply hNe
  apply ofLex.injective
  exact Prod.ext (hPairTime.symm.trans hTime) hId

theorem Fires.mirrors (hFires : Fires q head entry q') (hMirrors : Mirrors q)
    (hEntry : q.timers (ofLex head).2 = some entry)
    (hTime : entry.expiration = (ofLex head).1) : Mirrors q' := by
  intro time id
  rw [hFires.mem_active, hFires.timers_eq]
  by_cases hId : id = (ofLex head).2
  · subst hId
    rw [Function.update_self]
    constructor
    · rintro (⟨hNe, hMem⟩ | ⟨next, hNext, hPair⟩)
      · exact (hMirrors.other_id hEntry hTime hMem hNe rfl).elim
      · have hEq : (time, (ofLex head).2) = (next.expiration, (ofLex head).2) := hPair
        exact ⟨next, hNext, (congrArg Prod.fst hEq).symm⟩
    · rintro ⟨next, hNext, rfl⟩
      exact Or.inr ⟨next, hNext, rfl⟩
  · rw [Function.update_of_ne hId, ← hMirrors time id]
    constructor
    · rintro (⟨-, hMem⟩ | ⟨next, -, hPair⟩)
      · exact hMem
      · have hEq : (time, id) = (next.expiration, (ofLex head).2) := hPair
        exact absurd (congrArg Prod.snd hEq) hId
    · intro hMem
      refine Or.inl ⟨?_, hMem⟩
      rintro rfl
      exact hId rfl

/-- Every timer that is active afterwards comes after the one that was fired. -/
theorem Fires.head_lt (hFires : Fires q head entry q') (hHead : q.earliest = some head)
    (hTime : entry.expiration = (ofLex head).1) {pair : Time ×ₗ TimerId}
    (hPair : pair ∈ q'.activeTimers) : head < pair := by
  rcases hFires.mem_active.mp hPair with ⟨hNe, hMem⟩ | ⟨next, hNext, rfl⟩
  · exact lt_of_le_of_ne (earliest_le hHead hMem) hNe.symm
  · have hPeriodic : 0 < entry.interval := by
      by_contra hNot
      simp [TimerEntry.fire, hNot] at hNext
    obtain rfl : { entry with expiration := entry.expiration + entry.period } = next := by
      simpa [TimerEntry.fire, hPeriodic] using hNext
    apply Prod.Lex.toLex_lt_toLex.mpr
    left
    show (ofLex head).1 < entry.expiration + entry.period
    rw [← hTime]
    exact lt_add_of_pos_right _ (TimerEntry.period_pos hPeriodic)

/-- The earliest timer uses up the first of its due times, and only that. -/
theorem Fires.dueTimes_eq (hFires : Fires q head entry q')
    (hEntry : q.timers (ofLex head).2 = some entry)
    (hTime : entry.expiration = (ofLex head).1) {now : Time}
    (hDue : ¬ (ofLex head).1 > now) (id : TimerId) :
    q.dueTimes now id =
      (if id = (ofLex head).2 then [(ofLex head).1] else []) ++ q'.dueTimes now id := by
  unfold dueTimes
  rw [hFires.timers_eq]
  by_cases hId : id = (ofLex head).2
  · subst hId
    rw [← hTime] at hDue ⊢
    simp [hEntry, TimerEntry.dueTimes_due hDue]
  · simp [hId]

theorem Fires.finalEntry_eq (hFires : Fires q head entry q')
    (hEntry : q.timers (ofLex head).2 = some entry)
    (hTime : entry.expiration = (ofLex head).1) {now : Time}
    (hDue : ¬ (ofLex head).1 > now) (id : TimerId) :
    q'.finalEntry now id = q.finalEntry now id := by
  unfold finalEntry
  rw [hFires.timers_eq]
  by_cases hId : id = (ofLex head).2
  · subst hId
    rw [← hTime] at hDue
    simp [hEntry, TimerEntry.final_due hDue]
  · simp [hId]

/-- A timer that stays keeps its callback. -/
theorem Fires.hasCallback_eq (hFires : Fires q head entry q')
    (hEntry : q.timers (ofLex head).2 = some entry) {id : TimerId}
    (hStays : q'.timers id ≠ none) : q'.hasCallback id = q.hasCallback id := by
  unfold hasCallback
  rw [hFires.timers_eq] at hStays ⊢
  by_cases hId : id = (ofLex head).2
  · subst hId
    rw [Function.update_self] at hStays ⊢
    by_cases hPeriodic : 0 < entry.interval
    · simp [hEntry, TimerEntry.fire, hPeriodic]
    · simp [TimerEntry.fire, hPeriodic] at hStays
  · simp [hId]

/-- How many iterations are left. -/
def pending (now : Time) (q : TimerQueue γ) : Nat :=
  ∑ pair ∈ q.activeTimers, (q.dueTimes now (ofLex pair).2).length

theorem Fires.pending_eq (hFires : Fires q head entry q') (hMirrors : Mirrors q)
    (hEntry : q.timers (ofLex head).2 = some entry)
    (hTime : entry.expiration = (ofLex head).1) (hHead : q.earliest = some head) {now : Time}
    (hDue : ¬ (ofLex head).1 > now) : q.pending now = q'.pending now + 1 := by
  have hDueTimes := hFires.dueTimes_eq hEntry hTime hDue
  have hRest : ∑ pair ∈ q.activeTimers.erase head, (q.dueTimes now (ofLex pair).2).length =
      ∑ pair ∈ q.activeTimers.erase head, (q'.dueTimes now (ofLex pair).2).length := by
    apply Finset.sum_congr rfl
    intro pair hPair
    obtain ⟨hNe, hMem⟩ := Finset.mem_erase.mp hPair
    have hOther := hMirrors.other_id hEntry hTime hMem hNe
    rw [hDueTimes]
    simp [hOther]
  have hFirst : (q.dueTimes now (ofLex head).2).length =
      (q'.dueTimes now (ofLex head).2).length + 1 := by
    rw [hDueTimes]
    simp [Nat.add_comm]
  have hSplit : q.pending now = (q.dueTimes now (ofLex head).2).length +
      ∑ pair ∈ q.activeTimers.erase head, (q.dueTimes now (ofLex pair).2).length :=
    (Finset.add_sum_erase _ _ (mem_of_earliest hHead)).symm
  have hAfter : q'.pending now = (q'.dueTimes now (ofLex head).2).length +
      ∑ pair ∈ q.activeTimers.erase head, (q'.dueTimes now (ofLex pair).2).length := by
    unfold pending
    rw [hFires.active_eq]
    cases hFire : entry.fire with
    | none =>
        have hNone : q'.dueTimes now (ofLex head).2 = [] := by
          simp [dueTimes, hFires.timers_eq, hFire]
        simp [hNone]
    | some next =>
        have hAbsent : toLex (next.expiration, (ofLex head).2) ∉ q.activeTimers.erase head := by
          intro hMem
          obtain ⟨hNe, hMem⟩ := Finset.mem_erase.mp hMem
          exact hMirrors.other_id hEntry hTime hMem hNe rfl
        simp only [Option.map_some, Option.toFinset_some, Finset.union_singleton]
        rw [Finset.sum_insert hAbsent]
        rfl
  omega

end Fires

/-! ## The whole loop -/

/-- What the loop has done when it is left: `pairs` are the timers that it fired, in order. -/
structure Drained (now : Time) (q : TimerQueue γ) (pairs : List (Time ×ₗ TimerId))
    (q' : TimerQueue γ) : Prop where
  sorted : pairs.Pairwise (· < ·)
  mem_after : ∀ bound, (∀ pair ∈ q.activeTimers, bound < pair) → ∀ pair ∈ pairs, bound < pair
  times_eq : ∀ id, ((pairs.filter fun pair => (ofLex pair).2 = id).map fun pair =>
    (ofLex pair).1) = q.dueTimes now id
  timers_eq : ∀ id, q'.timers id = q.finalEntry now id
  fired_eq : q'.fired = q.fired ++
    (pairs.filter fun pair => q.hasCallback (ofLex pair).2).map ofLex
  mirrors : Mirrors q'
  not_due : ∀ pair ∈ q'.activeTimers, now < (ofLex pair).1

/-- The loop is left when the earliest timer is not due, and then none is. -/
theorem drained_of_leave {q : TimerQueue γ} (hMirrors : Mirrors q) {now : Time}
    (hLeave : ∀ head, q.earliest = some head → (ofLex head).1 > now) :
    Drained now q [] q := by
  have hNotDue := forall_active_late hLeave
  have hLater : ∀ id entry, q.timers id = some entry → entry.expiration > now := by
    intro id entry hEntry
    exact hNotDue (toLex (entry.expiration, id)) ((hMirrors _ _).mpr ⟨entry, hEntry, rfl⟩)
  refine ⟨List.Pairwise.nil, by simp, ?_, ?_, by simp, hMirrors, hNotDue⟩
  · intro id
    cases hEntry : q.timers id with
    | none => simp [dueTimes, hEntry]
    | some entry => simp [dueTimes, hEntry, TimerEntry.dueTimes_later (hLater id entry hEntry)]
  · intro id
    cases hEntry : q.timers id with
    | none => simp [finalEntry, hEntry]
    | some entry => simp [finalEntry, hEntry, TimerEntry.final, hLater id entry hEntry]

/-- A timer that is fired in the rest of the loop has an entry. -/
theorem Drained.timers_ne_none {now : Time} {q q' : TimerQueue γ}
    {pairs : List (Time ×ₗ TimerId)} (hDrained : Drained now q pairs q')
    {pair : Time ×ₗ TimerId} (hPair : pair ∈ pairs) : q.timers (ofLex pair).2 ≠ none := by
  intro hNone
  have hTimes := hDrained.times_eq (ofLex pair).2
  have hEmpty : q.dueTimes now (ofLex pair).2 = [] := by simp [dueTimes, hNone]
  rw [hEmpty, List.map_eq_nil_iff, List.filter_eq_nil_iff] at hTimes
  simpa using hTimes pair hPair

theorem drained_of_fires {now : Time} {q q' final : TimerQueue γ} {head : Time ×ₗ TimerId}
    {entry : TimerEntry γ} {pairs : List (Time ×ₗ TimerId)} (hFires : Fires q head entry q')
    (hHead : q.earliest = some head) (hEntry : q.timers (ofLex head).2 = some entry)
    (hTime : entry.expiration = (ofLex head).1) (hDue : ¬ (ofLex head).1 > now)
    (hRest : Drained now q' pairs final) : Drained now q (head :: pairs) final := by
  have hAfter : ∀ pair ∈ q'.activeTimers, head < pair :=
    fun pair hPair => hFires.head_lt hHead hTime hPair
  refine ⟨?_, ?_, ?_, ?_, ?_, hRest.mirrors, hRest.not_due⟩
  · exact List.pairwise_cons.mpr ⟨hRest.mem_after head hAfter, hRest.sorted⟩
  · intro bound hBound pair hPair
    have hHeadBound : bound < head := hBound head (mem_of_earliest hHead)
    rcases List.mem_cons.mp hPair with rfl | hPair
    · exact hHeadBound
    · exact lt_trans hHeadBound (hRest.mem_after head hAfter pair hPair)
  · intro id
    rw [hFires.dueTimes_eq hEntry hTime hDue id, ← hRest.times_eq id]
    by_cases hId : id = (ofLex head).2
    · simp [hId]
    · have hId' : ¬ (ofLex head).2 = id := fun hEq => hId hEq.symm
      simp [hId, hId']
  · intro id
    rw [hRest.timers_eq id, hFires.finalEntry_eq hEntry hTime hDue id]
  · have hFilter : pairs.filter (fun pair => q'.hasCallback (ofLex pair).2) =
        pairs.filter fun pair => q.hasCallback (ofLex pair).2 := by
      apply List.filter_congr
      intro pair hPair
      exact hFires.hasCallback_eq hEntry (hRest.timers_ne_none hPair)
    have hCallback : q.hasCallback (ofLex head).2 = entry.callback.isSome := by
      simp [hasCallback, hEntry]
    rw [hRest.fired_eq, hFires.fired_eq, hFilter]
    cases hSome : entry.callback.isSome with
    | true => simp [hCallback, hSome]
    | false => simp [hCallback, hSome]

/-- With an iteration for each due time the loop comes to its end. -/
theorem expireLoop_drained {q : TimerQueue γ} (hMirrors : Mirrors q) {now : Time} {n : Nat}
    (hPending : q.pending now ≤ n) :
    ∃ q', expireLoop now (List.replicate n []) q = .done q' ∧
      Drained now q (firings now n q) q' := by
  induction n generalizing q with
  | zero =>
      rcases hMirrors.expireOnce_cases now with
        ⟨hOnce, hLeave⟩ | ⟨head, entry, q', hHead, hEntry, hTime, hDue, -, hFires⟩
      · exact ⟨q, by simp [expireLoop, hOnce], drained_of_leave hMirrors hLeave⟩
      · have hCount := hFires.pending_eq hMirrors hEntry hTime hHead hDue
        omega
  | succ n ih =>
      rcases hMirrors.expireOnce_cases now with
        ⟨hOnce, hLeave⟩ | ⟨head, entry, q', hHead, hEntry, hTime, hDue, hOnce, hFires⟩
      · refine ⟨q, by simp [List.replicate_succ, expireLoop, hOnce], ?_⟩
        have hNone : firings now (n + 1) q = [] := by
          simp only [firings, hOnce]
          split <;> simp_all
        rw [hNone]
        exact drained_of_leave hMirrors hLeave
      · have hCount := hFires.pending_eq hMirrors hEntry hTime hHead hDue
        obtain ⟨final, hLoop, hRest⟩ := ih (hFires.mirrors hMirrors hEntry hTime) (by omega)
        refine ⟨final, by simp [List.replicate_succ, expireLoop, hOnce, hLoop], ?_⟩
        simp only [firings, hHead, hOnce]
        exact drained_of_fires hFires hHead hEntry hTime hDue hRest

/-- The times at which the timer `id` is fired in the first iterations. -/
def firingTimes (now : Time) (n : Nat) (q : TimerQueue γ) (id : TimerId) : List Time :=
  ((firings now n q).filter fun pair => (ofLex pair).2 = id).map fun pair => (ofLex pair).1

/-- **A pass fires exactly what is due.**  From every queue whose containers agree, the
loop ends.  It fires the timers in increasing order of `(expiration, id)`, each one-shot
timer that is due once, and each periodic timer that is due once for every period that
has begun; the former are removed, the latter end at their first expiration after `now`,
all other timers are left alone, and no active timer is due afterwards. -/
theorem processExpiredTimers_exact {q : TimerQueue γ} (hMirrors : Mirrors q)
    (now finish : Time) :
    ∃ n, ∀ m, n ≤ m → ∃ q',
      processExpiredTimers now finish (List.replicate m []) q = .done q' ∧
      (firings now m q).Pairwise (· < ·) ∧
      q'.fired = q.fired ++
        ((firings now m q).filter fun pair => q.hasCallback (ofLex pair).2).map ofLex ∧
      (∀ id entry, q.timers id = some entry → entry.interval ≤ 0 → entry.expiration ≤ now →
        firingTimes now m q id = [entry.expiration] ∧ q'.timers id = none) ∧
      (∀ id entry, q.timers id = some entry → 0 < entry.interval → entry.expiration ≤ now →
        ((firingTimes now m q id).length : Int) =
          (now - entry.expiration) / (entry.interval * nanosPerMilli) + 1 ∧
        (∃ later, q'.timers id = some { entry with expiration := later } ∧ now < later ∧
          later = entry.expiration +
            ((now - entry.expiration) / (entry.interval * nanosPerMilli) + 1) *
              (entry.interval * nanosPerMilli))) ∧
      (∀ id entry, q.timers id = some entry → now < entry.expiration →
        firingTimes now m q id = [] ∧ q'.timers id = some entry) ∧
      (∀ id, q.timers id = none → firingTimes now m q id = [] ∧ q'.timers id = none) ∧
      Mirrors q' ∧ ∀ pair ∈ q'.activeTimers, now < (ofLex pair).1 := by
  refine ⟨q.pending now, fun m hEnough => ?_⟩
  obtain ⟨final, hLoop, hDrained⟩ := expireLoop_drained hMirrors hEnough
  obtain ⟨timer, hTimer⟩ := rearm_eq final finish
  have hTimes : ∀ id, firingTimes now m q id = q.dueTimes now id := hDrained.times_eq
  have hTimers : ∀ id, final.timers id = q.finalEntry now id := hDrained.timers_eq
  refine ⟨final.rearm finish, by simp [processExpiredTimers, hLoop], hDrained.sorted, ?_⟩
  rw [hTimer]
  refine ⟨hDrained.fired_eq, ?_, ?_, ?_, ?_, hDrained.mirrors, hDrained.not_due⟩
  · intro id entry hEntry hOneShot hDue
    simp only [hTimes, hTimers, dueTimes, finalEntry, hEntry]
    simp [TimerEntry.dueTimes, TimerEntry.final, not_lt.mpr hDue, not_lt.mpr hOneShot]
  · intro id entry hEntry hPeriodic hDue
    simp only [hTimes, hTimers, dueTimes, finalEntry, hEntry]
    have hElapsed : 0 ≤ entry.elapsed now :=
      Int.ediv_nonneg (sub_nonneg.mpr hDue) (TimerEntry.period_pos hPeriodic).le
    refine ⟨?_, _, ?_, TimerEntry.now_lt_final entry now hPeriodic, rfl⟩
    · show _ = entry.elapsed now + 1
      simp only [Option.map_some, Option.getD_some, TimerEntry.dueTimes, not_lt.mpr hDue,
        hPeriodic, if_true, if_false, List.length_map, List.length_range]
      omega
    · simp [TimerEntry.final, not_lt.mpr hDue, hPeriodic]
  · intro id entry hEntry hLater
    simp only [hTimes, hTimers, dueTimes, finalEntry, hEntry]
    simp [TimerEntry.dueTimes, TimerEntry.final, hLater]
  · intro id hNone
    simp [hTimes, hTimers, dueTimes, finalEntry, hNone]

/-- A one-shot timer and a periodic timer of one millisecond, both due in a pass that is
two and a half milliseconds late. -/
def lateQueue : TimerQueue Unit :=
  ((new 3 : TimerQueue Unit).apply (.runEvery 1 (some ()) 0 0)).apply
    (.runAt 1500000 (some ()) 0)

theorem processExpiredTimers_exact_lateQueue :
    ∃ n, ∀ m, n ≤ m → ∃ q',
      processExpiredTimers 3500000 3500001 (List.replicate m []) lateQueue = .done q' ∧
        firingTimes 3500000 m lateQueue 2 = [1500000] ∧
        (firingTimes 3500000 m lateQueue 1).length = 3 := by
  have hCoherent : Coherent none lateQueue :=
    apply_coherent (apply_coherent (new_coherent 3) (by simp) _) (by simp) _
  obtain ⟨n, hPass⟩ := processExpiredTimers_exact hCoherent.mirrors 3500000 3500001
  refine ⟨n, fun m hEnough => ?_⟩
  obtain ⟨q', hDone, -, -, hOneShot, hPeriodic, -⟩ := hPass m hEnough
  refine ⟨q', hDone, (hOneShot 2 ⟨2, 1500000, 0, some ()⟩ rfl (by decide) (by decide)).1, ?_⟩
  have hCount := (hPeriodic 1 ⟨1, 1000000, 1, some ()⟩ rfl (by decide) (by decide)).1
  have hThree : ((3500000 : Int) - 1000000) / (1 * nanosPerMilli) + 1 = 3 := by decide
  rw [hThree] at hCount
  exact_mod_cast hCount

end TimerQueue
end SolarNet
