import SolarNet.Lib.Termination
import SolarNet.Net.TimerExpiry
import SolarNet.Net.TimerSelfCancel

/-!
# Whether an expiry pass ends

The loop of `ProcessExpiredTimers` reads the first element of `m_active_timers`
again in each iteration and compares it with the same `now`.  A timer that a
callback adds at a time not later than `now` is therefore expired in the same
pass, and its callback may add another one.

What the callbacks do in a pass that may go on for ever is a stream of scripts,
one for each iteration.  `Spawns` says that the callback of one timer leaves a
new timer that is due in the same pass, and the pass ends exactly when no timer
that is due at its beginning starts an endless chain of timers of this kind.  For
one direction the due timers are weighted by their id and the number of their due
times: an iteration replaces one of them by finitely many that weigh less.  For
the other, each timer of a chain is expired in a later iteration than the one
before it.

`Callbacks` is a criterion that looks at the callbacks only: chains end when no
callback starts an endless sequence of callbacks each of which may add a timer
with the next one.
-/

namespace SolarNet

open Lib

variable {γ : Type*}

namespace TimerQueue

/-! ## Chains of timers -/

/-- The calls of the next iteration's callback spare the timer that it belongs to. -/
def SparesOwn (now : Time) (q : TimerQueue γ) (script : List (TimerOp γ)) : Prop :=
  q.selfCancels now script = false

/-- The pass comes to its end. -/
def Ends (now finish : Time) (scripts : Stream' (List (TimerOp γ))) (q : TimerQueue γ) : Prop :=
  ∃ n q', processExpiredTimers now finish (scripts.take n) q = .done q'

/-- Iteration `n` of the pass invokes the callback of the timer `parent`, which leaves the
new timer `child`, and this timer is due. -/
structure SpawnsAt (now : Time) (scripts : Stream' (List (TimerOp γ))) (q : TimerQueue γ)
    (n : ℕ) (child parent : TimerId) (before after : TimerQueue γ) : Prop where
  before_eq : exec (iterate now) q (scripts.take n) = some before
  after_eq : iterate now before (scripts.get n) = some after
  earliest_eq : ∃ time, before.earliest = some (toLex (time, parent))
  new : before.timers child = none
  due : ∃ entry, after.timers child = some entry ∧ entry.expiration ≤ now

def Spawns (now : Time) (scripts : Stream' (List (TimerOp γ))) (q : TimerQueue γ)
    (child parent : TimerId) : Prop :=
  ∃ n before after, SpawnsAt now scripts q n child parent before after

/-- No timer of the queue that is due at `now` starts an endless chain. -/
def ChainsEnd (now : Time) (scripts : Stream' (List (TimerOp γ))) (q : TimerQueue γ) : Prop :=
  ∀ id entry, q.timers id = some entry → entry.expiration ≤ now →
    ¬ ∃ chain : ℕ → TimerId, chain 0 = id ∧
      ∀ n, Spawns now scripts q (chain (n + 1)) (chain n)

/-- The chains that start at a due timer end in the sense of accessibility. -/
theorem chainsEnd_iff {now : Time} {scripts : Stream' (List (TimerOp γ))} {q : TimerQueue γ} :
    ChainsEnd now scripts q ↔ ∀ id entry, q.timers id = some entry → entry.expiration ≤ now →
      Acc (Spawns now scripts q) id := by
  unfold ChainsEnd
  simp only [← not_acc_iff_exists_descending_chain, not_not]

end TimerQueue

/-! ## What callbacks may do -/

namespace TimerOp

/-- The operation adds a timer with this expiration and callback. -/
def adds : TimerOp γ → Time → Option γ → Prop
  | .runAt time callback _, expiration, added => expiration = time ∧ added = callback
  | .runAfter delay callback start _, expiration, added =>
      expiration = start + delay * nanosPerMilli ∧ added = callback
  | .runEvery interval callback start _, expiration, added =>
      expiration = start + interval * nanosPerMilli ∧ added = callback
  | .cancel _ _, _, _ => False

theorem adds_or_cancel (op : TimerOp γ) :
    (∃ expiration callback, op.adds expiration callback) ∨ ∃ id now, op = .cancel id now := by
  cases op with
  | runAt time callback now => exact Or.inl ⟨_, _, rfl, rfl⟩
  | runAfter delay callback start now => exact Or.inl ⟨_, _, rfl, rfl⟩
  | runEvery interval callback start now => exact Or.inl ⟨_, _, rfl, rfl⟩
  | cancel id now => exact Or.inr ⟨id, now, rfl⟩

end TimerOp

/-- What one invocation of each callback may do.  Every invocation makes finitely
many calls, and the calls may differ from one invocation to the next. -/
structure Callbacks (γ : Type*) where
  may : γ → Set (List (TimerOp γ))

namespace Callbacks

/-- An invocation of `parent` may add a timer with `child` that is due at `now`. -/
def ScheduledBy (callbacks : Callbacks γ) (now : Time) (child parent : Option γ) : Prop :=
  ∃ callback, parent = some callback ∧ ∃ script ∈ callbacks.may callback,
    ∃ op ∈ script, ∃ time ≤ now, op.adds time child

/-- The script of the next iteration is one that the callback may perform. -/
def Permits (callbacks : Callbacks γ) (now : Time) (q : TimerQueue γ)
    (script : List (TimerOp γ)) : Prop :=
  ∀ head entry callback, q.earliest = some head → (ofLex head).1 ≤ now →
    q.timers (ofLex head).2 = some entry → entry.callback = some callback →
    script ∈ callbacks.may callback

end Callbacks

namespace TimerQueue

/-- An iteration in which nothing cancels its own timer goes on or leaves the loop. -/
theorem iterate_eq_none {now : Time} {q : TimerQueue γ} {script : List (TimerOp γ)}
    (hCoherent : Coherent none q) (hSpares : SparesOwn now q script)
    (hStuck : iterate now q script = none) : expireOnce now script q = .leave := by
  cases hOnce : expireOnce now script q with
  | leave => rfl
  | next q' =>
      rw [iterate_eq_some.mpr hOnce] at hStuck
      cases hStuck
  | useAfterFree id =>
      have hSelf := (expireOnce_useAfterFree_iff hCoherent now script).mp ⟨id, hOnce⟩
      rw [show q.selfCancels now script = false from hSpares] at hSelf
      cases hSelf

/-! ## The timers after a callback -/

/-- Setting the timerfd does not touch the timers. -/
theorem rearm_timers (q : TimerQueue γ) (now : Time) : (q.rearm now).timers = q.timers := by
  obtain ⟨timer, hTimer⟩ := rearm_eq q now
  rw [hTimer]

/-- The queue after an operation that adds a timer. -/
theorem apply_of_adds {op : TimerOp γ} {expiration : Time} {callback : Option γ}
    (hAdds : op.adds expiration callback) (q : TimerQueue γ) :
    ∃ interval now, q.apply op = (q.withTimer expiration interval callback).rearm now := by
  cases op with
  | runAt time added now =>
      obtain ⟨rfl, rfl⟩ := hAdds
      exact ⟨0, now, addTimer_eq q _ _ _ now⟩
  | runAfter delay added start now =>
      obtain ⟨rfl, rfl⟩ := hAdds
      exact ⟨0, now, addTimer_eq q _ _ _ now⟩
  | runEvery interval added start now =>
      obtain ⟨rfl, rfl⟩ := hAdds
      exact ⟨interval, now, addTimer_eq q _ _ _ now⟩
  | cancel id now => exact hAdds.elim

theorem runAt_timers (q : TimerQueue γ) (time : Time) (callback : Option γ) (now : Time) :
    (q.apply (.runAt time callback now)).timers =
      Function.update q.timers q.nextId (some ⟨q.nextId, time, 0, callback⟩) := by
  obtain ⟨timer, hTimer⟩ := rearm_eq (q.withTimer time 0 callback) now
  rw [apply, runAt, addTimer_eq, hTimer]
  rfl

/-- A timer that is there after an operation was there before, or was added. -/
theorem apply_timers_cases {q : TimerQueue γ} {op : TimerOp γ} {id : TimerId}
    {entry : TimerEntry γ} (hEntry : (q.apply op).timers id = some entry) :
    q.timers id = some entry ∨
      (q.nextId ≤ id ∧ op.adds entry.expiration entry.callback) := by
  rcases op.adds_or_cancel with ⟨expiration, callback, hAdds⟩ | ⟨other, now, rfl⟩
  · obtain ⟨interval, now, hApply⟩ := apply_of_adds hAdds q
    rw [hApply, rearm_timers] at hEntry
    by_cases hId : id = q.nextId
    · obtain rfl : _ = entry := by simpa [withTimer, hId] using hEntry
      exact Or.inr ⟨hId.ge, hAdds⟩
    · exact Or.inl (by simpa [withTimer, hId] using hEntry)
  · left
    by_cases hId : id = other
    · rw [hId, cancel_timers] at hEntry
      cases hEntry
    · cases hOther : q.timers other with
      | none =>
          have hSame : q.apply (.cancel other now) = q := cancel_none hOther now
          rwa [hSame] at hEntry
      | some found =>
          have hGone : q.apply (.cancel other now) =
              (q.withoutTimer other found.expiration).rearm now := cancel_some hOther now
          rw [hGone, rearm_timers] at hEntry
          simpa [withoutTimer, hId] using hEntry

/-- A timer that is there after a callback was there before, or the callback
added it. -/
theorem runScript_timers_cases {q : TimerQueue γ} {script : List (TimerOp γ)} {id : TimerId}
    {entry : TimerEntry γ} (hEntry : (q.runScript script).timers id = some entry) :
    q.timers id = some entry ∨
      (q.nextId ≤ id ∧ ∃ op ∈ script, op.adds entry.expiration entry.callback) := by
  induction script generalizing q with
  | nil => exact Or.inl hEntry
  | cons op script ih =>
      rcases ih hEntry with hOld | ⟨hId, later, hLater, hAdds⟩
      · rcases apply_timers_cases hOld with hOlder | ⟨hId, hAdds⟩
        · exact Or.inl hOlder
        · exact Or.inr ⟨hId, op, List.mem_cons_self, hAdds⟩
      · exact Or.inr ⟨(nextId_le_apply q op).trans hId, later,
          List.mem_cons_of_mem op hLater, hAdds⟩

/-! ## The timers after one iteration -/

/-- What an iteration does that expires the timer `head`. -/
structure Expires (now : Time) (script : List (TimerOp γ)) (q : TimerQueue γ)
    (head : Time ×ₗ TimerId) (entry : TimerEntry γ) (q' : TimerQueue γ) : Prop where
  earliest_eq : q.earliest = some head
  due : (ofLex head).1 ≤ now
  entry_eq : q.timers (ofLex head).2 = some entry
  expiration_eq : entry.expiration = (ofLex head).1
  timers_eq : q'.timers = Function.update
    ((q.pop head).invoke entry (ofLex head).2 script).timers (ofLex head).2 entry.fire

/-- The calls of the callback that the next iteration invokes spare its timer. -/
theorem spares_of_selfCancels {now : Time} {script : List (TimerOp γ)} {q : TimerQueue γ}
    {head : Time ×ₗ TimerId} {entry : TimerEntry γ} {callback : γ}
    (hHead : q.earliest = some head) (hDue : ¬ (ofLex head).1 > now)
    (hEntry : q.timers (ofLex head).2 = some entry) (hCallback : entry.callback = some callback)
    (hSpares : SparesOwn now q script) :
    ∀ op ∈ script, op.cancels (ofLex head).2 = false := by
  simpa [SparesOwn, selfCancels, dueCallback, hHead, hDue, hEntry, hCallback] using hSpares

/-- The calls of a callback are those of its script, and an empty function makes none. -/
theorem invoke_cases (q : TimerQueue γ) (entry : TimerEntry γ) (id : TimerId)
    (script : List (TimerOp γ)) :
    (entry.callback = none ∧ q.invoke entry id script = q) ∨
      ∃ callback logged, entry.callback = some callback ∧
        q.invoke entry id script = { q with fired := logged }.runScript script := by
  unfold invoke
  cases hCallback : entry.callback with
  | none => exact Or.inl ⟨rfl, rfl⟩
  | some callback => exact Or.inr ⟨callback, _, rfl, rfl⟩

/-- The timer that is put back or erased is the one that was taken out. -/
theorem settle_timers {q q' : TimerQueue γ} {id : TimerId} {entry : TimerEntry γ}
    (hEntry : q.timers id = some entry) (hSettle : q.settle id = .next q') :
    q'.timers = Function.update q.timers id entry.fire := by
  obtain ⟨found, hFound, hCases⟩ := settle_cases hSettle
  obtain rfl := Option.some.inj (hEntry.symm.trans hFound)
  rcases hCases with ⟨hPeriodic, rfl⟩ | ⟨hOneShot, rfl⟩
  · simp [reschedule, TimerEntry.fire, hPeriodic, TimerEntry.period]
  · simp [eraseTimer, TimerEntry.fire, hOneShot]

/-- An iteration that goes on expires the earliest timer. -/
theorem expires_of_next {now : Time} {script : List (TimerOp γ)} {q q' : TimerQueue γ}
    (hCoherent : Coherent none q) (hSpares : SparesOwn now q script)
    (hNext : expireOnce now script q = .next q') :
    ∃ head entry, Expires now script q head entry q' := by
  rcases hCoherent.expireOnce_cases now script with
    ⟨hLeave, -⟩ | ⟨head, entry, hHead, hDue, hEntry, hId, -, hSettle⟩
  · rw [hLeave] at hNext
    cases hNext
  · rw [hSettle] at hNext
    obtain ⟨found, hFound, hTime⟩ := hCoherent.entry_of_earliest hHead
    obtain rfl := Option.some.inj (hEntry.symm.trans hFound)
    -- After the callback the entry is found again, as it was.
    refine ⟨head, entry, hHead, not_lt.mp hDue, hEntry, hTime, settle_timers ?_ hNext⟩
    rcases invoke_cases (q.pop head) entry (ofLex head).2 script with
      ⟨-, hSame⟩ | ⟨callback, logged, hCallback, hRuns⟩
    · rw [hSame]
      exact hEntry
    · rw [hRuns, runScript_timers]
      · exact hEntry
      · exact hId
      · exact spares_of_selfCancels hHead hDue hEntry hCallback hSpares

/-- The loop is not left while a timer is due. -/
theorem Coherent.expireOnce_ne_leave {q : TimerQueue γ} (hCoherent : Coherent none q)
    {now : Time} {id : TimerId} {entry : TimerEntry γ} (hEntry : q.timers id = some entry)
    (hDue : entry.expiration ≤ now) (script : List (TimerOp γ)) :
    expireOnce now script q ≠ .leave := by
  intro hLeave
  have hMem : toLex (entry.expiration, id) ∈ q.activeTimers :=
    (hCoherent.mirrors _ _).mpr ⟨entry, hEntry, rfl⟩
  have hLate := forall_active_late (expireOnce_eq_leave hLeave) _ hMem
  exact absurd hDue (not_le.mpr hLate)

section Expires

variable {now : Time} {script : List (TimerOp γ)} {q q' : TimerQueue γ}
  {head : Time ×ₗ TimerId} {entry : TimerEntry γ}

/-- Where a timer comes from that is there after the iteration. -/
theorem Expires.origin (hExpires : Expires now script q head entry q') {id : TimerId}
    {found : TimerEntry γ} (hFound : q'.timers id = some found) :
    (id = (ofLex head).2 ∧ entry.fire = some found) ∨
      (id ≠ (ofLex head).2 ∧ q.timers id = some found) ∨
      (q.nextId ≤ id ∧ ∃ callback, entry.callback = some callback ∧
        ∃ op ∈ script, op.adds found.expiration found.callback) := by
  rw [hExpires.timers_eq] at hFound
  by_cases hId : id = (ofLex head).2
  · subst hId
    exact Or.inl ⟨rfl, by simpa using hFound⟩
  · rw [Function.update_of_ne hId] at hFound
    right
    rcases invoke_cases (q.pop head) entry (ofLex head).2 script with
      ⟨-, hSame⟩ | ⟨callback, logged, hCallback, hRuns⟩
    · rw [hSame] at hFound
      exact Or.inl ⟨hId, hFound⟩
    · rw [hRuns] at hFound
      rcases runScript_timers_cases hFound with hOld | ⟨hNew, hAdds⟩
      · exact Or.inl ⟨hId, hOld⟩
      · exact Or.inr ⟨hNew, callback, hCallback, hAdds⟩

end Expires

/-! ## An iteration replaces a timer by lighter ones -/

/-- The active timers that are due at `now`. -/
def dueTimers (now : Time) (q : TimerQueue γ) : Finset (Time ×ₗ TimerId) :=
  q.activeTimers.filter fun pair => (ofLex pair).1 ≤ now

/-- What the pass has to do: each due timer weighs its id, and how often it is due. -/
def work (now : Time) (q : TimerQueue γ) : Weighted (Time ×ₗ TimerId) (TimerId × ℕ) where
  members := q.dueTimers now
  weight pair := ((ofLex pair).2, (q.dueTimes now (ofLex pair).2).length)

/-- A timer is lighter when the other's callback spawns it, or when it is the same timer
and due less often. -/
def Lighter (now : Time) (scripts : Stream' (List (TimerOp γ))) (q : TimerQueue γ) :
    TimerId × ℕ → TimerId × ℕ → Prop :=
  Prod.Lex (Spawns now scripts q) (· < ·)

/-- The due timers, each with its entry. -/
theorem Coherent.mem_dueTimers {q : TimerQueue γ} (hCoherent : Coherent none q) {now : Time}
    {pair : Time ×ₗ TimerId} :
    pair ∈ q.dueTimers now ↔ ∃ entry, q.timers (ofLex pair).2 = some entry ∧
      entry.expiration = (ofLex pair).1 ∧ (ofLex pair).1 ≤ now := by
  have hMirror := hCoherent.mirrors (ofLex pair).1 (ofLex pair).2
  rw [dueTimers, Finset.mem_filter]
  constructor
  · rintro ⟨hMem, hDue⟩
    obtain ⟨entry, hEntry, hTime⟩ := hMirror.mp hMem
    exact ⟨entry, hEntry, hTime, hDue⟩
  · rintro ⟨entry, hEntry, hTime, hDue⟩
    exact ⟨hMirror.mpr ⟨entry, hEntry, hTime⟩, hDue⟩

theorem dueTimes_of_timers {q : TimerQueue γ} {now : Time} {id : TimerId}
    {entry : TimerEntry γ} (hEntry : q.timers id = some entry) :
    q.dueTimes now id = entry.dueTimes now := by
  simp [dueTimes, hEntry]

section Descent

variable {now : Time} {scripts : Stream' (List (TimerOp γ))} {script : List (TimerOp γ)}
  {n : ℕ} {start q q' : TimerQueue γ} {head : Time ×ₗ TimerId} {entry : TimerEntry γ}

/-- A timer that goes back expires later. -/
theorem Expires.head_gone (hExpires : Expires now script q head entry q')
    (hCoherent' : Coherent none q') : head ∉ q'.dueTimers now := by
  intro hMem
  obtain ⟨found, hFound, hTime, -⟩ := hCoherent'.mem_dueTimers.mp hMem
  rw [hExpires.timers_eq, Function.update_self, TimerEntry.fire] at hFound
  split at hFound
  · next hPeriodic =>
    obtain rfl := Option.some.inj hFound
    have hPeriod := TimerEntry.period_pos hPeriodic
    have hSame : entry.expiration + entry.period = entry.expiration :=
      hTime.trans hExpires.expiration_eq.symm
    exact (lt_add_of_pos_right entry.expiration hPeriod).ne' hSame
  · cases hFound

/-- A timer that goes back is due once less. -/
theorem Expires.length_dueTimes_lt (hExpires : Expires now script q head entry q')
    {found : TimerEntry γ} (hFire : entry.fire = some found) :
    (found.dueTimes now).length < (entry.dueTimes now).length := by
  have hDue : ¬ entry.expiration > now := by
    rw [hExpires.expiration_eq]
    exact not_lt.mpr hExpires.due
  rw [TimerEntry.dueTimes_due hDue, hFire]
  simp

/-- A timer that is due before and after an iteration has the same entry. -/
theorem Expires.timers_eq_of_due (hExpires : Expires now script q head entry q')
    (hCoherent : Coherent none q) (hCoherent' : Coherent none q') {pair : Time ×ₗ TimerId}
    (hOld : pair ∈ q.dueTimers now) (hNew : pair ∈ q'.dueTimers now) :
    q'.timers (ofLex pair).2 = q.timers (ofLex pair).2 := by
  obtain ⟨before, hBefore, hTime, -⟩ := hCoherent.mem_dueTimers.mp hOld
  obtain ⟨after, hAfter, -, -⟩ := hCoherent'.mem_dueTimers.mp hNew
  rw [hAfter]
  rcases hExpires.origin hAfter with ⟨hId, -⟩ | ⟨-, hSame⟩ | ⟨hFresh, -⟩
  · -- The earliest timer is not due under its old expiration any more.
    have hHead : pair = head := by
      rw [hId, hExpires.entry_eq] at hBefore
      obtain rfl := Option.some.inj hBefore
      apply ofLex.injective
      exact Prod.ext (hTime.symm.trans hExpires.expiration_eq) hId
    rw [hHead] at hNew
    exact absurd hNew (hExpires.head_gone hCoherent')
  · exact hSame.symm
  · exact absurd (hCoherent.id_lt hBefore) (not_lt.mpr hFresh)

/-- A new timer that is due is spawned by the timer that was expired. -/
theorem Expires.spawnsAt (hExpires : Expires now (scripts.get n) q head entry q')
    (hCoherent : Coherent none q) (hRun : exec (iterate now) start (scripts.take n) = some q)
    (hNext : iterate now q (scripts.get n) = some q') {id : TimerId} {found : TimerEntry γ}
    (hFresh : q.nextId ≤ id) (hFound : q'.timers id = some found)
    (hDue : found.expiration ≤ now) : SpawnsAt now scripts start n id (ofLex head).2 q q' := by
  refine ⟨hRun, hNext, ⟨(ofLex head).1, hExpires.earliest_eq⟩, ?_, found, hFound, hDue⟩
  rw [Option.eq_none_iff_forall_ne_some]
  exact fun old hOld => absurd (hCoherent.id_lt hOld) (not_lt.mpr hFresh)

end Descent

/-- A state of the pass after `n` iterations, in which every due timer has only chains
that end. -/
structure Dying (now : Time) (scripts : Stream' (List (TimerOp γ))) (start : TimerQueue γ)
    (n : ℕ) (q : TimerQueue γ) : Prop where
  exec_eq : exec (iterate now) start (scripts.take n) = some q
  coherent : Coherent none q
  acc : ∀ id entry, q.timers id = some entry → entry.expiration ≤ now →
    Acc (Spawns now scripts start) id

section Dying

variable {now : Time} {scripts : Stream' (List (TimerOp γ))} {n : ℕ} {start q q' : TimerQueue γ}
  {head : Time ×ₗ TimerId} {entry : TimerEntry γ}

theorem Dying.acc_head (hDying : Dying now scripts start n q)
    (hExpires : Expires now (scripts.get n) q head entry q') :
    Acc (Spawns now scripts start) (ofLex head).2 :=
  hDying.acc _ entry hExpires.entry_eq (hExpires.expiration_eq.trans_le hExpires.due)

/-- The chains of the timers that are due after an iteration are parts of chains
of timers that were due before. -/
theorem Dying.next (hDying : Dying now scripts start n q)
    (hExpires : Expires now (scripts.get n) q head entry q')
    (hNext : iterate now q (scripts.get n) = some q') : Dying now scripts start (n + 1) q' := by
  refine ⟨exec_take_succ.mpr ⟨q, hDying.exec_eq, hNext⟩,
    expireOnce_coherent hDying.coherent (iterate_eq_some.mp hNext), ?_⟩
  intro id found hFound hDue
  rcases hExpires.origin hFound with ⟨rfl, -⟩ | ⟨-, hOld⟩ | ⟨hFresh, -⟩
  · exact hDying.acc_head hExpires
  · exact hDying.acc id found hOld hDue
  · have hSpawns := hExpires.spawnsAt hDying.coherent hDying.exec_eq hNext hFresh hFound hDue
    exact (hDying.acc_head hExpires).inv ⟨n, q, q', hSpawns⟩

/-- A timer that is due only after an iteration is lighter than the one expired. -/
theorem Dying.lighter (hDying : Dying now scripts start n q)
    (hExpires : Expires now (scripts.get n) q head entry q')
    (hNext : iterate now q (scripts.get n) = some q') (hCoherent' : Coherent none q')
    {pair : Time ×ₗ TimerId} (hNew : pair ∈ q'.dueTimers now) (hOld : pair ∉ q.dueTimers now) :
    Lighter now scripts start ((q'.work now).weight pair) ((q.work now).weight head) := by
  obtain ⟨found, hFound, hTime, hDue⟩ := hCoherent'.mem_dueTimers.mp hNew
  simp only [work, dueTimes_of_timers hFound, dueTimes_of_timers hExpires.entry_eq]
  rcases hExpires.origin hFound with ⟨hId, hFire⟩ | ⟨-, hSame⟩ | ⟨hFresh, -⟩
  · rw [hId]
    exact Prod.Lex.right _ (hExpires.length_dueTimes_lt hFire)
  · exact absurd (hDying.coherent.mem_dueTimers.mpr ⟨found, hSame, hTime, hDue⟩) hOld
  · exact Prod.Lex.left _ _ ⟨n, q, q', hExpires.spawnsAt hDying.coherent hDying.exec_eq hNext
      hFresh hFound (hTime.trans_le hDue)⟩

/-- An iteration takes the earliest timer out, and the timers that it adds are lighter. -/
theorem Dying.replaces (hDying : Dying now scripts start n q)
    (hExpires : Expires now (scripts.get n) q head entry q')
    (hNext : iterate now q (scripts.get n) = some q') :
    Replaces (Lighter now scripts start) (q'.work now) (q.work now) := by
  have hCoherent := hDying.coherent
  have hCoherent' := (hDying.next hExpires hNext).coherent
  refine ⟨head, ?_, hExpires.head_gone hCoherent', ?_, ?_, ?_⟩
  · exact hCoherent.mem_dueTimers.mpr
      ⟨entry, hExpires.entry_eq, hExpires.expiration_eq, hExpires.due⟩
  · exact Prod.lexAccessible (hDying.acc_head hExpires) (fun n => wellFounded_lt.apply n) _
  · intro pair hOld hNew
    simp only [work, dueTimes, hExpires.timers_eq_of_due hCoherent hCoherent' hOld hNew]
  · intro pair hNew hOld
    exact hDying.lighter hExpires hNext hCoherent' hNew hOld

end Dying

/-- Chains that end make the pass end: each iteration lowers the work. -/
theorem ends_of_chainsEnd {now : Time} {scripts : Stream' (List (TimerOp γ))}
    {q : TimerQueue γ} (hCoherent : Coherent none q)
    (hSpares : ∀ n, Meets (iterate now) (SparesOwn now) q (scripts.take n))
    (hChains : ChainsEnd now scripts q) (finish : Time) : Ends now finish scripts q := by
  -- A pass that went on would lower the work for ever.
  have hStart : Dying now scripts q 0 q := ⟨rfl, hCoherent, chainsEnd_iff.mp hChains⟩
  obtain ⟨n, middle, hRun, hMiddle, hOk, hStuck⟩ :=
    exists_stuck_of_wellFounded (replaces_wellFounded (Lighter now scripts q)) (work now)
      (Dying now scripts q) hStart
      (fun n q q' hDying hOk hNext => by
        obtain ⟨head, entry, hExpires⟩ :=
          expires_of_next hDying.coherent hOk (iterate_eq_some.mp hNext)
        exact ⟨hDying.next hExpires hNext, hDying.replaces hExpires hNext⟩)
      hSpares
  have hLeave := iterate_eq_none hMiddle.coherent hOk hStuck
  refine ⟨n + 1, middle.rearm finish, ?_⟩
  rw [Stream'.take_succ', processExpiredTimers, expireLoop_append hRun, expireLoop, hLeave]

/-! ## An endless chain keeps the pass going -/

/-- Once the loop has been left there is no further iteration. -/
theorem exec_eq_none_of_done {now : Time} {scripts : List (List (TimerOp γ))}
    {q q' : TimerQueue γ} (hDone : expireLoop now scripts q = .done q')
    (script : List (TimerOp γ)) : exec (iterate now) q (scripts ++ [script]) = none := by
  induction scripts generalizing q with
  | nil =>
      have hLeave : expireOnce now [] q = .leave := by
        unfold expireLoop at hDone
        split at hDone
        · next hLeave => exact hLeave
        · cases hDone
      have hAgain : expireOnce now script q = .leave :=
        expireOnce_leave (expireOnce_eq_leave hLeave)
      simp [iterate, hAgain]
  | cons first scripts ih =>
      simp only [expireLoop] at hDone
      rw [List.cons_append, exec_cons]
      cases hOnce : expireOnce now first q with
      | leave => simp [iterate, hOnce]
      | useAfterFree id =>
          rw [hOnce] at hDone
          cases hDone
      | next middle =>
          rw [hOnce] at hDone
          rw [iterate_eq_some.mpr hOnce]
          exact ih hDone

/-- A pass that has an iteration at every position does not end. -/
theorem not_ends_of_exec {now : Time} {scripts : Stream' (List (TimerOp γ))} {q : TimerQueue γ}
    (hRuns : ∀ n, ∃ q', exec (iterate now) q (scripts.take n) = some q') (finish : Time) :
    ¬ Ends now finish scripts q := by
  rintro ⟨n, q', hDone⟩
  cases hLoop : expireLoop now (scripts.take n) q with
  | done last =>
      obtain ⟨next, hNext⟩ := hRuns (n + 1)
      rw [Stream'.take_succ', exec_eq_none_of_done hLoop] at hNext
      cases hNext
  | useAfterFree id => simp [processExpiredTimers, hLoop] at hDone
  | unfinished => simp [processExpiredTimers, hLoop] at hDone

theorem nextId_le_runScript (q : TimerQueue γ) (script : List (TimerOp γ)) :
    q.nextId ≤ (q.runScript script).nextId := by
  induction script generalizing q with
  | nil => exact le_rfl
  | cons op script ih => exact (nextId_le_apply q op).trans (ih (q.apply op))

theorem nextId_le_invoke (q : TimerQueue γ) (entry : TimerEntry γ) (id : TimerId)
    (script : List (TimerOp γ)) : q.nextId ≤ (q.invoke entry id script).nextId := by
  unfold invoke
  split
  · exact nextId_le_runScript _ script
  · exact le_rfl

/-- Ids are only handed out. -/
theorem nextId_le_iterate {now : Time} {script : List (TimerOp γ)} {q q' : TimerQueue γ}
    (hCoherent : Coherent none q) (hNext : iterate now q script = some q') :
    q.nextId ≤ q'.nextId := by
  have hOnce := iterate_eq_some.mp hNext
  rcases hCoherent.expireOnce_cases now script with
    ⟨hLeave, -⟩ | ⟨head, entry, -, -, -, -, -, hSettle⟩
  · rw [hLeave] at hOnce
    cases hOnce
  · have hInvoke := nextId_le_invoke (q.pop head) entry (ofLex head).2 script
    rw [hSettle] at hOnce
    obtain ⟨found, -, ⟨-, rfl⟩ | ⟨-, rfl⟩⟩ := settle_cases hOnce
    · exact hInvoke
    · exact hInvoke

section Chain

variable {now : Time} {scripts : Stream' (List (TimerOp γ))}
  {start before after before' after' : TimerQueue γ} {n m : ℕ}
  {child parent grandchild : TimerId}

/-- The states of a pass are coherent. -/
theorem coherent_of_exec {scripts : List (List (TimerOp γ))} (hCoherent : Coherent none start)
    (hRun : exec (iterate now) start scripts = some before) : Coherent none before :=
  exec_invariant (Coherent none)
    (fun _ _ _ hInv hNext => expireOnce_coherent hInv (iterate_eq_some.mp hNext)) hCoherent hRun

/-- The iteration that spawns a timer expires its parent. -/
theorem SpawnsAt.expires (hSpawns : SpawnsAt now scripts start n child parent before after)
    (hCoherent : Coherent none start) (hSpares : SparesOwn now before (scripts.get n)) :
    ∃ time entry, Expires now (scripts.get n) before (toLex (time, parent)) entry after := by
  obtain ⟨head, entry, hExpires⟩ := expires_of_next
    (coherent_of_exec hCoherent hSpawns.before_eq) hSpares (iterate_eq_some.mp hSpawns.after_eq)
  obtain ⟨time, hHead⟩ := hSpawns.earliest_eq
  obtain rfl := Option.some.inj (hHead.symm.trans hExpires.earliest_eq)
  exact ⟨time, entry, hExpires⟩

/-- The callback of the parent has added the timer that is spawned. -/
theorem SpawnsAt.added (hSpawns : SpawnsAt now scripts start n child parent before after)
    {time : Time} {entry : TimerEntry γ}
    (hExpires : Expires now (scripts.get n) before (toLex (time, parent)) entry after) :
    ∃ found callback, after.timers child = some found ∧ found.expiration ≤ now ∧
      before.nextId ≤ child ∧ entry.callback = some callback ∧
      ∃ op ∈ scripts.get n, op.adds found.expiration found.callback := by
  obtain ⟨found, hFound, hDue⟩ := hSpawns.due
  rcases hExpires.origin hFound with
    ⟨rfl, -⟩ | ⟨-, hOld⟩ | ⟨hFresh, callback, hCallback, hAdds⟩
  · exact absurd (hSpawns.new.symm.trans hExpires.entry_eq) (by simp)
  · exact absurd (hSpawns.new.symm.trans hOld) (by simp)
  · exact ⟨found, callback, hFound, hDue, hFresh, hCallback, hAdds⟩

/-- A timer is expired in a later iteration than its parent. -/
theorem SpawnsAt.lt (hSpawns : SpawnsAt now scripts start n child parent before after)
    (hNext : SpawnsAt now scripts start m grandchild child before' after')
    (hCoherent : Coherent none start)
    (hSpares : ∀ n, Meets (iterate now) (SparesOwn now) start (scripts.take n)) : n < m := by
  by_contra hLe
  obtain ⟨time, entry, hExpires⟩ :=
    hSpawns.expires hCoherent (ok_of_meets_take hSpares hSpawns.before_eq)
  obtain ⟨found, callback, -, -, hFresh, -⟩ := hSpawns.added hExpires
  have hCoherent' := coherent_of_exec hCoherent hNext.before_eq
  -- When the child expires its id has been handed out; before its parent ran it had not.
  have hKnown : child < before'.nextId := by
    obtain ⟨time, hHead⟩ := hNext.earliest_eq
    obtain ⟨entry, hEntry, -⟩ := hCoherent'.entry_of_earliest hHead
    exact hCoherent'.id_lt hEntry
  have hGrows : Coherent none before ∧ before'.nextId ≤ before.nextId :=
    invariant_of_exec_take (fun q => Coherent none q ∧ before'.nextId ≤ q.nextId)
      (fun q script next hInv _ hStep =>
        ⟨expireOnce_coherent hInv.1 (iterate_eq_some.mp hStep),
          hInv.2.trans (nextId_le_iterate hInv.1 hStep)⟩)
      hSpares (not_lt.mp hLe) hNext.before_eq ⟨hCoherent', le_rfl⟩ hSpawns.before_eq
  exact absurd (hKnown.trans_le hGrows.2) (not_lt.mpr hFresh)

/-- An endless chain takes the pass through infinitely many iterations. -/
theorem exists_exec_of_chain (hCoherent : Coherent none start)
    (hSpares : ∀ n, Meets (iterate now) (SparesOwn now) start (scripts.take n))
    {chain : ℕ → TimerId}
    (hChain : ∀ n, Spawns now scripts start (chain (n + 1)) (chain n)) (n : ℕ) :
    ∃ q, exec (iterate now) start (scripts.take n) = some q := by
  -- Each timer of the chain is spawned in a later iteration than the one before.
  choose position before after hSpawns using hChain
  have hMono : StrictMono position :=
    strictMono_nat_of_lt_succ fun n => (hSpawns n).lt (hSpawns (n + 1)) hCoherent hSpares
  exact exists_exec_take_of_le hMono.le_apply (hSpawns n).before_eq

end Chain

/-- The first invocation schedules its callback for the same pass and cancels another timer,
the second schedules it once more, and then no invocation does anything. -/
def retryTwice : Stream' (List (TimerOp Unit)) :=
  Stream'.cons [.runAt 5 (some ()) 10, .cancel 2 10]
    (Stream'.cons [.runAt 5 (some ()) 10] (Stream'.const []))

/-- Two timers with this callback. -/
def twoTimers : List (Action Unit) :=
  [.call (.runAt 3 (some ()) 0), .call (.runAt 4 (some ()) 0)]

/-- A callback that makes no calls spares its timer. -/
theorem sparesOwn_nil (now : Time) (q : TimerQueue γ) : SparesOwn now q [] := by
  unfold SparesOwn selfCancels
  split <;> rfl

theorem meets_sparesOwn_const_nil (now : Time) (q : TimerQueue γ) (n : ℕ) :
    Meets (iterate now) (SparesOwn now) q ((Stream'.const []).take n) := by
  induction n generalizing q with
  | zero => trivial
  | succ n ih => exact ⟨sparesOwn_nil now q, fun next _ => ih next⟩

/-- Each invocation schedules the callback at the nanosecond five. -/
def rearming : Stream' (List (TimerOp Unit)) :=
  Stream'.const [.runAt 5 (some ()) 10]

/-- The queue holds one timer, which is due at the nanosecond five. -/
structure OneDue (q : TimerQueue Unit) : Prop where
  coherent : Coherent none q
  timers_eq : ∃ id, q.timers = Function.update (fun _ => none) id (some ⟨id, 5, 0, some ()⟩)

/-- Its callback does not cancel it, and another one like it takes its place. -/
theorem OneDue.iterate {q : TimerQueue Unit} (hOne : OneDue q) :
    SparesOwn 10 q [.runAt 5 (some ()) 10] ∧
      ∃ next, TimerQueue.iterate 10 q [.runAt 5 (some ()) 10] = some next ∧ OneDue next := by
  obtain ⟨id, hTimers⟩ := hOne.timers_eq
  have hCoherent := hOne.coherent
  have hEntry : q.timers id = some ⟨id, 5, 0, some ()⟩ := by simp [hTimers]
  have hSpares : SparesOwn 10 q [.runAt 5 (some ()) 10] := by
    unfold SparesOwn selfCancels
    split <;> rfl
  refine ⟨hSpares, ?_⟩
  cases hNext : TimerQueue.iterate 10 q [.runAt 5 (some ()) 10] with
  | none =>
      have hLeave := iterate_eq_none hCoherent hSpares hNext
      exact absurd hLeave (hCoherent.expireOnce_ne_leave hEntry (show (5 : Time) ≤ 10 by decide) _)
  | some next =>
      have hOnce := iterate_eq_some.mp hNext
      refine ⟨next, rfl, expireOnce_coherent hCoherent hOnce, q.nextId, ?_⟩
      obtain ⟨head, entry, hExpires⟩ := expires_of_next hCoherent hSpares hOnce
      have hHead : (ofLex head).2 = id := by
        by_contra hOther
        have hNone := hExpires.entry_eq
        rw [hTimers, Function.update_of_ne hOther] at hNone
        cases hNone
      have hSame := hExpires.entry_eq
      rw [hHead, hEntry] at hSame
      obtain rfl := Option.some.inj hSame
      have hFresh : q.nextId ≠ id := (hCoherent.id_lt hEntry).ne'
      have hAdded : ((q.pop head).invoke ⟨id, 5, 0, some ()⟩ id [.runAt 5 (some ()) 10]).timers =
          Function.update q.timers q.nextId (some ⟨q.nextId, 5, 0, some ()⟩) :=
        runAt_timers { q.pop head with fired := _ } 5 (some ()) 10
      rw [hExpires.timers_eq, hHead, hAdded, hTimers]
      funext other
      by_cases hOther : other = id
      · simp [hOther, TimerEntry.fire, hFresh.symm]
      · simp [hOther, Function.update_apply]

theorem OneDue.meets {q : TimerQueue Unit} (hOne : OneDue q) (n : ℕ) :
    Meets (TimerQueue.iterate 10) (SparesOwn 10) q (rearming.take n) := by
  induction n generalizing q with
  | zero => trivial
  | succ n ih =>
      obtain ⟨hSpares, next, hNext, hOneNext⟩ := hOne.iterate
      refine ⟨hSpares, fun other hOther => ?_⟩
      obtain rfl := Option.some.inj (hNext.symm.trans hOther)
      exact ih hOneNext

/-- No timer of the queue that is due starts an endless sequence of callbacks each of which
may schedule the next. -/
def CallbacksEnd (callbacks : Callbacks γ) (now : Time) (q : TimerQueue γ) : Prop :=
  ∀ id entry, q.timers id = some entry → entry.expiration ≤ now →
    ¬ ∃ chain : ℕ → Option γ, chain 0 = entry.callback ∧
      ∀ n, callbacks.ScheduledBy now (chain (n + 1)) (chain n)

/-- The timer has been handed out, and its callback is the one given. -/
structure Bound (id : TimerId) (callback : Option γ) (q : TimerQueue γ) : Prop where
  coherent : Coherent none q
  known : id < q.nextId
  callback_eq : ∀ entry, q.timers id = some entry → entry.callback = callback

theorem callback_of_fire {entry found : TimerEntry γ} (hFire : entry.fire = some found) :
    found.callback = entry.callback := by
  unfold TimerEntry.fire at hFire
  split at hFire
  · obtain rfl := Option.some.inj hFire
    rfl
  · cases hFire

/-- A timer keeps its callback. -/
theorem Bound.iterate {now : Time} {script : List (TimerOp γ)} {q q' : TimerQueue γ}
    {id : TimerId} {callback : Option γ} (hBound : Bound id callback q)
    (hSpares : SparesOwn now q script) (hNext : TimerQueue.iterate now q script = some q') :
    Bound id callback q' := by
  have hOnce := iterate_eq_some.mp hNext
  refine ⟨expireOnce_coherent hBound.coherent hOnce,
    hBound.known.trans_le (nextId_le_iterate hBound.coherent hNext), ?_⟩
  intro found hFound
  obtain ⟨head, entry, hExpires⟩ := expires_of_next hBound.coherent hSpares hOnce
  rcases hExpires.origin hFound with ⟨rfl, hFire⟩ | ⟨-, hOld⟩ | ⟨hFresh, -⟩
  · rw [callback_of_fire hFire]
    exact hBound.callback_eq entry hExpires.entry_eq
  · exact hBound.callback_eq found hOld
  · exact absurd hBound.known (not_lt.mpr hFresh)

/-- Along a chain of timers there is a chain of callbacks, so chains of callbacks that end
make the chains of timers end. -/
theorem chainsEnd_of_callbacksEnd {callbacks : Callbacks γ} {now : Time}
    {scripts : Stream' (List (TimerOp γ))} {q : TimerQueue γ} (hCoherent : Coherent none q)
    (hSpares : ∀ n, Meets (iterate now) (SparesOwn now) q (scripts.take n))
    (hPermits : ∀ n, Meets (iterate now) (callbacks.Permits now) q (scripts.take n))
    (hCallbacks : CallbacksEnd callbacks now q) : ChainsEnd now scripts q := by
  rintro id first hFirst hDue ⟨chain, rfl, hChain⟩
  choose position before after hSpawns using hChain
  choose time fired hExpires using fun n => (hSpawns n).expires hCoherent
    (ok_of_meets_take hSpares (hSpawns n).before_eq)
  -- The callback of a timer is the same whenever the timer is there.
  have hSame : ∀ {m n id callback middle final}, m ≤ n →
      exec (iterate now) q (scripts.take m) = some middle → Bound id callback middle →
      exec (iterate now) q (scripts.take n) = some final → Bound id callback final :=
    fun hLe hMiddle hBound hFinal => invariant_of_exec_take (Bound _ _)
      (fun _ _ _ hBound hOk hNext => hBound.iterate hOk hNext) hSpares hLe hMiddle hBound hFinal
  refine hCallbacks (chain 0) first hFirst hDue ⟨fun n => (fired n).callback, ?_, fun n => ?_⟩
  · have hStart : Bound (chain 0) first.callback q := by
      refine ⟨hCoherent, hCoherent.id_lt hFirst, fun entry hEntry => ?_⟩
      obtain rfl := Option.some.inj (hFirst.symm.trans hEntry)
      rfl
    have hLater := hSame (Nat.zero_le (position 0)) rfl hStart (hSpawns 0).before_eq
    exact hLater.callback_eq (fired 0) (hExpires 0).entry_eq
  · obtain ⟨found, callback, hFound, hFoundDue, -, hCallback, op, hOp, hAdds⟩ :=
      (hSpawns n).added (hExpires n)
    have hAfter : exec (iterate now) q (scripts.take (position n + 1)) = some (after n) :=
      exec_take_succ.mpr ⟨before n, (hSpawns n).before_eq, (hSpawns n).after_eq⟩
    have hCoherent' := coherent_of_exec hCoherent hAfter
    have hBound : Bound (chain (n + 1)) found.callback (after n) := by
      refine ⟨hCoherent', hCoherent'.id_lt hFound, fun entry hEntry => ?_⟩
      obtain rfl := Option.some.inj (hFound.symm.trans hEntry)
      rfl
    have hLt := (hSpawns n).lt (hSpawns (n + 1)) hCoherent hSpares
    have hLater := hSame hLt hAfter hBound (hSpawns (n + 1)).before_eq
    have hScript := ok_of_meets_take hPermits (hSpawns n).before_eq _ (fired n) callback
      (hExpires n).earliest_eq (hExpires n).due (hExpires n).entry_eq hCallback
    refine ⟨callback, hCallback, scripts.get (position n), hScript, op, hOp, found.expiration,
      hFoundDue, ?_⟩
    have hKept := hLater.callback_eq (fired (n + 1)) (hExpires (n + 1)).entry_eq
    rwa [← hKept] at hAdds

theorem ends_of_callbacksEnd {callbacks : Callbacks γ} {now : Time}
    {scripts : Stream' (List (TimerOp γ))} {q : TimerQueue γ} (hCoherent : Coherent none q)
    (hSpares : ∀ n, Meets (iterate now) (SparesOwn now) q (scripts.take n))
    (hPermits : ∀ n, Meets (iterate now) (callbacks.Permits now) q (scripts.take n))
    (hCallbacks : CallbacksEnd callbacks now q) (finish : Time) : Ends now finish scripts q :=
  ends_of_chainsEnd hCoherent hSpares
    (chainsEnd_of_callbacksEnd hCoherent hSpares hPermits hCallbacks) finish

end TimerQueue
end SolarNet
