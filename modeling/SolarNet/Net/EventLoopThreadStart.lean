import SolarNet.Net.EventLoopThread

/-!
# `Start` and an early `Quit`

`Start` waits for `m_loop != nullptr`, and `ThreadFunc` resets `m_loop` when its
loop ends.  There is one notification, before `Loop()` is entered.  A loop that
ends before `Start` has looked at `m_loop` leaves `Start` waiting for ever.

A loop ends only after `m_quit` is set.  The invariants of this file hold that
fact along every run; the file shows that `Start` returns its loop as long as
nobody calls `Quit` before, and that an early `Quit` makes the hang possible.
-/

namespace SolarNet

open Lib

namespace EventLoop

variable {F T : Type*} [DecidableEq T] {e e' : EventLoop F T} {label : LoopLabel F T}

/-- Only `Quit` stores the flag, and nothing resets it. -/
theorem step_quit_eq (hStep : step e label = some e') :
    e'.quit = e.quit ∨ (∃ caller, label = .quit caller) ∧ e'.quit = true := by
  cases label with
  | loop act =>
      simp only [step, Option.ite_none_right_eq_some] at hStep
      exact Or.inl (moves_of_loopStep hStep.2).calls_eq.2
  | queueInLoop caller functor =>
      simp only [step, Option.ite_none_right_eq_some, Option.some.injEq] at hStep
      obtain ⟨-, rfl⟩ := hStep
      exact Or.inl rfl
  | runInLoop caller functor =>
      simp only [step, Option.ite_none_right_eq_some, Option.some.injEq] at hStep
      obtain ⟨-, rfl⟩ := hStep
      cases caller <;> exact Or.inl rfl
  | quit caller =>
      simp only [step, Option.ite_none_right_eq_some, Option.some.injEq] at hStep
      obtain ⟨-, rfl⟩ := hStep
      exact Or.inr ⟨⟨caller, rfl⟩, rfl⟩
  | finishCall caller =>
      simp only [step, Option.ite_none_left_eq_some, Option.some.injEq] at hStep
      obtain ⟨-, rfl⟩ := hStep
      unfold finishCall
      split <;> exact Or.inl rfl

theorem step_quit_stays (hStep : step e label = some e') (hQuit : e.quit = true) :
    e'.quit = true := by
  rcases step_quit_eq hStep with hSame | ⟨-, hSet⟩
  · rw [hSame]
    exact hQuit
  · exact hSet

/-- `Loop()` is left by the second test of `m_quit`. -/
theorem step_leaves (hStep : step e label = some e') (hPc : e'.pc = .outside) :
    e.pc = .outside ∨ e.quit = true := by
  rcases step_call_frame hStep with ⟨act, -, -, hMoves⟩ | ⟨-, hSame, -, -⟩
  · cases hMoves with
    | testBottom hTesting =>
        right
        by_contra hQuit
        simp [hQuit] at hPc
    | testTop hTop =>
        cases hQuit : e.quit with
        | false => simp [hQuit] at hPc
        | true => exact Or.inr rfl
    | handleRead hHandling => exact Or.inl hPc
    | _ => cases hPc
  · exact Or.inl (hSame ▸ hPc)

end EventLoop

/-- `m_loop` is set and the loop has not been left for good. -/
def ThreadStage.published : ThreadStage → Bool
  | .init | .unlocked | .notified | .looping => true
  | _ => false

/-- `loop.Loop()` has been called. -/
def ThreadStage.entered : ThreadStage → Bool
  | .looping | .cleared | .ended => true
  | _ => false

namespace EventLoopThread

variable {F T : Type*} {s s' : EventLoopThread F T} {label : ThreadLabel F T}

/-! ## The loop ends after `Quit` -/

/-- `Loop()` has returned. -/
def LoopReturned (s : EventLoopThread F T) : Prop :=
  s.thread = .cleared ∨ s.thread = .ended ∨
    s.thread = .looping ∧ s.eventLoop.pc = .outside

theorem entered_of_loopReturned (hReturned : s.LoopReturned) : s.thread.entered = true := by
  rcases hReturned with hThread | hThread | ⟨hThread, -⟩
  all_goals
    rw [hThread]
    rfl

/-- How the members, the thread and its loop belong together. -/
structure Coherent (s : EventLoopThread F T) : Prop where
  unstarted : s.started = false → s.thread = .absent ∧ s.loop = false
  absent : s.thread = .absent → s.eventLoop.quit = false
  returned : s.LoopReturned → s.eventLoop.quit = true
  published : s.loop = true → s.thread.published = true

theorem coherent_new : Coherent (new : EventLoopThread F T) := by
  refine ⟨fun _ => ⟨rfl, rfl⟩, fun _ => rfl, ?_, nofun⟩
  intro hReturned
  cases entered_of_loopReturned hReturned

/-- The call stores `m_quit`. -/
def storesQuit (s : EventLoopThread F T) : ThreadLabel F T → Bool
  | .loop (.quit _) => true
  | .stopNext side => s.stops side == .quit
  | _ => false

theorem Coherent.frame (hInv : s.Coherent) (hStarted : s'.started = s.started)
    (hThread : s'.thread = s.thread) (hLoop : s'.loop = s.loop)
    (hEvent : s'.eventLoop = s.eventLoop) : s'.Coherent := by
  obtain ⟨hUnstarted, hAbsent, hReturned, hPublished⟩ := hInv
  refine ⟨?_, ?_, ?_, ?_⟩
  · rw [hStarted, hThread, hLoop]
    exact hUnstarted
  · rw [hThread, hEvent]
    exact hAbsent
  · unfold LoopReturned
    rw [hThread, hEvent]
    exact hReturned
  · rw [hLoop, hThread]
    exact hPublished

/-- The background thread goes on. -/
theorem Coherent.advance (hInv : s.Coherent) (hPresent : s.thread ≠ .absent)
    (hStarted : s'.started = s.started) (hStill : s'.thread ≠ .absent)
    (hReturned : s'.LoopReturned → s'.eventLoop.quit = true)
    (hPublished : s'.loop = true → s'.thread.published = true) : s'.Coherent := by
  refine ⟨?_, fun hAbsent => absurd hAbsent hStill, hReturned, hPublished⟩
  rw [hStarted]
  intro hNot
  exact absurd (hInv.unstarted hNot).1 hPresent

theorem Coherent.loop_eq_false (hInv : s.Coherent) (hThread : s.thread.published = false) :
    s.loop = false := by
  by_contra hLoop
  have hPublished := hInv.published (by simpa using hLoop)
  rw [hThread] at hPublished
  cases hPublished

theorem isOutside_iff {pc : LoopPc (LoopTask F)} : pc.isOutside = true ↔ pc = .outside := by
  cases pc <;> simp [LoopPc.isOutside]

/-- A step of the loop is taken while its object is alive. -/
theorem alive_of_mayTake {label : LoopLabel (LoopTask F) (Peer T)}
    (hMay : s.mayTake label = true) : s.thread.alive = true := by
  have hCall : ∀ caller, s.mayCall caller = true → s.thread.alive = true := by
    intro caller hCaller
    cases caller with
    | loopThread =>
        simp only [mayCall, Bool.and_eq_true, Bool.or_eq_true, beq_iff_eq] at hCaller
        rcases hCaller.2 with hInit | ⟨hLooping, -⟩
        · rw [hInit]
          rfl
        · rw [hLooping]
          rfl
    | other peer =>
        cases peer with
        | owner => exact (Bool.and_eq_true_iff.mp hCaller).2
        | thread name => exact (Bool.and_eq_true_iff.mp hCaller).2
  cases label with
  | loop act =>
      have hThread : s.thread = .notified ∨ s.thread = .looping := by
        cases act <;> simp only [mayTake, Bool.and_eq_true, beq_iff_eq] at hMay <;> tauto
      rcases hThread with hThread | hThread
      · rw [hThread]
        rfl
      · rw [hThread]
        rfl
  | queueInLoop caller functor => exact hCall caller hMay
  | runInLoop caller functor => exact hCall caller hMay
  | quit caller => exact hCall caller hMay
  | finishCall caller => exact hCall caller hMay

theorem afterLabel_of_ne {label : LoopLabel (LoopTask F) (Peer T)} (stage : ThreadStage)
    (hLabel : label ≠ .loop .enter) : afterLabel stage label = stage := by
  unfold afterLabel
  split
  · exact absurd rfl hLabel
  · rfl

theorem notified_of_mayTake (hMay : s.mayTake (.loop .enter) = true) :
    s.thread = .notified := by
  simp only [mayTake, Bool.and_eq_true, beq_iff_eq] at hMay
  exact hMay.1

section Steps

variable [DecidableEq T]

/-- A use of the loop pointer leaves everything but the loop and the call as it is, and does
not move the loop thread. -/
theorem use_spec (s : EventLoopThread F T) {side : Side}
    (hUses : (s.stops side).usesLoop = true) :
    ∃ eventLoop stage,
      s.use side = { s with eventLoop := eventLoop }.setStop side stage ∧
      eventLoop.pc = s.eventLoop.pc ∧
      (eventLoop.quit = s.eventLoop.quit ∨ s.stops side = .quit ∧ eventLoop.quit = true) ∧
      (stage.usesLoop = true ∨ stage = .join) := by
  have hFinish : (s.eventLoop.finishCall side.caller).pc = s.eventLoop.pc ∧
      (s.eventLoop.finishCall side.caller).quit = s.eventLoop.quit := by
    unfold EventLoop.finishCall
    split <;> exact ⟨rfl, rfl⟩
  cases hStage : s.stops side with
  | idle | returned | join | finish => simp [hStage, StopStage.usesLoop] at hUses
  | testThread =>
      refine ⟨s.eventLoop, if side = .loopThread then .quit else .runInLoop,
        by simp only [use, hStage], rfl, Or.inl rfl, Or.inl ?_⟩
      split <;> rfl
  | runInLoop =>
      refine ⟨s.eventLoop, if side = .loopThread then .quit else .push,
        by simp only [use, hStage], rfl, Or.inl rfl, Or.inl ?_⟩
      split <;> rfl
  | push =>
      exact ⟨s.eventLoop.queueInLoop side.caller .quitLoop, .pushed, by simp only [use, hStage],
        rfl, Or.inl rfl, Or.inl rfl⟩
  | pushed =>
      exact ⟨s.eventLoop, .wakeup, by simp only [use, hStage], rfl, Or.inl rfl, Or.inl rfl⟩
  | quit =>
      exact ⟨s.eventLoop.quitStore side.caller, .quitting, by simp only [use, hStage], rfl,
        Or.inr ⟨rfl, rfl⟩, Or.inl rfl⟩
  | wakeup | quitting =>
      exact ⟨s.eventLoop.finishCall side.caller, .join, by simp only [use, hStage], hFinish.1,
        Or.inl hFinish.2, Or.inr rfl⟩

theorem Moves.quit_eq (hMoves : Moves s label s') :
    s'.eventLoop.quit = s.eventLoop.quit ∨
      s.storesQuit label = true ∧ s'.eventLoop.quit = true := by
  cases hMoves with
  | loop label eventLoop hMay hStep =>
      rcases EventLoop.step_quit_eq hStep with hSame | ⟨⟨caller, rfl⟩, hSet⟩
      · exact Or.inl hSame
      · exact Or.inr ⟨rfl, hSet⟩
  | use side hUses hAlive =>
      obtain ⟨eventLoop, stage, hUse, -, hQuit, -⟩ := s.use_spec hUses
      rw [hUse]
      rcases hQuit with hSame | ⟨hStage, hSet⟩
      · exact Or.inl hSame
      · exact Or.inr ⟨by simp [storesQuit, hStage], hSet⟩
  | _ => exact Or.inl rfl

/-- What a step of the loop does to the invariant; `Loop()` may be entered by it. -/
theorem Coherent.loop (hInv : s.Coherent) {label : LoopLabel (LoopTask F) (Peer T)}
    {eventLoop : EventLoop (LoopTask F) (Peer T)} (hMay : s.mayTake label = true)
    (hStep : s.eventLoop.step label = some eventLoop) :
    Coherent { s with eventLoop := eventLoop, thread := afterLabel s.thread label } := by
  have hPresent : s.thread ≠ .absent := by
    intro hAbsent
    have hAlive := alive_of_mayTake hMay
    rw [hAbsent] at hAlive
    cases hAlive
  by_cases hEnter : label = .loop .enter
  · subst hEnter
    have hTop : eventLoop.pc = .top := by
      simp only [EventLoop.step, Option.ite_none_right_eq_some] at hStep
      cases EventLoop.moves_of_loopStep hStep.2
      rfl
    have hStill : afterLabel s.thread (.loop .enter : LoopLabel (LoopTask F) (Peer T)) ≠
        .absent := by
      simp [afterLabel]
    refine hInv.advance hPresent rfl hStill ?_ fun _ => rfl
    rintro (hLeft | hLeft | ⟨-, hOutside⟩)
    · cases hLeft
    · cases hLeft
    · have hPc : eventLoop.pc = .outside := hOutside
      rw [hTop] at hPc
      cases hPc
  · have hStays := EventLoop.step_quit_stays hStep
    rw [afterLabel_of_ne s.thread hEnter]
    refine hInv.advance hPresent rfl hPresent ?_ hInv.published
    rintro (hLeft | hLeft | ⟨hLooping, hOutside⟩)
    · exact hStays (hInv.returned (Or.inl hLeft))
    · exact hStays (hInv.returned (Or.inr (Or.inl hLeft)))
    · rcases EventLoop.step_leaves hStep hOutside with hBefore | hQuit
      · exact hStays (hInv.returned (Or.inr (Or.inr ⟨hLooping, hBefore⟩)))
      · exact hStays hQuit

theorem Coherent.use (hInv : s.Coherent) {side : Side}
    (hUses : (s.stops side).usesLoop = true) (hAlive : s.thread.alive = true) :
    (s.use side).Coherent := by
  have hPresent : s.thread ≠ .absent := by
    intro hAbsent
    rw [hAbsent] at hAlive
    cases hAlive
  obtain ⟨eventLoop, stage, hUse, hPc, hQuit, -⟩ := s.use_spec hUses
  rw [hUse]
  refine hInv.advance hPresent rfl hPresent ?_ hInv.published
  rintro hReturned
  have hBefore : s.LoopReturned := by
    rcases hReturned with hLeft | hLeft | ⟨hLooping, hOutside⟩
    · exact Or.inl hLeft
    · exact Or.inr (Or.inl hLeft)
    · exact Or.inr (Or.inr ⟨hLooping, hPc ▸ hOutside⟩)
  rcases hQuit with hSame | ⟨-, hSet⟩
  · show eventLoop.quit = true
    rw [hSame]
    exact hInv.returned hBefore
  · exact hSet

theorem Moves.coherent (hMoves : Moves s label s') (hInv : s.Coherent) : s'.Coherent := by
  cases hMoves with
  | start hFree hMutex hStarted =>
      refine ⟨nofun, nofun, ?_, ?_⟩
      · intro hReturned
        cases entered_of_loopReturned hReturned
      · intro hLoop
        have hSet : s.loop = true := hLoop
        rw [(hInv.unstarted hStarted).2] at hSet
        cases hSet
  | construct hThread =>
      refine hInv.advance (by simp [hThread]) rfl nofun ?_ ?_
      · intro hReturned
        cases entered_of_loopReturned hReturned
      · intro hLoop
        have hSet : s.loop = true := hLoop
        rw [hInv.loop_eq_false (by rw [hThread]; rfl)] at hSet
        cases hSet
  | publish hThread hMutex =>
      refine hInv.advance (by simp [hThread]) rfl nofun ?_ fun _ => rfl
      intro hReturned
      cases entered_of_loopReturned hReturned
  | endInit hThread hFree =>
      refine hInv.advance (by simp [hThread]) rfl nofun ?_ fun _ => rfl
      intro hReturned
      cases entered_of_loopReturned hReturned
  | notify hThread =>
      refine hInv.advance (by simp [hThread]) rfl nofun ?_ fun _ => rfl
      intro hReturned
      cases entered_of_loopReturned hReturned
  | clear hThread hMutex hFree hPc =>
      have hQuit := hInv.returned (Or.inr (Or.inr ⟨hThread, isOutside_iff.mp hPc⟩))
      exact hInv.advance (by simp [hThread]) rfl nofun (fun _ => hQuit) nofun
  | destroy hThread =>
      have hQuit := hInv.returned (Or.inl hThread)
      refine hInv.advance (by simp [hThread]) rfl nofun (fun _ => hQuit) ?_
      intro hLoop
      have hSet : s.loop = true := hLoop
      rw [hInv.loop_eq_false (by rw [hThread]; rfl)] at hSet
      cases hSet
  | loop label eventLoop hMay hStep => exact hInv.loop hMay hStep
  | use side hUses hAlive => exact hInv.use hUses hAlive
  | finishStop side hStop hMutex =>
      exact ⟨fun hStarted => ⟨(hInv.unstarted hStarted).1, rfl⟩, hInv.absent, hInv.returned, nofun⟩
  | _ => exact hInv.frame rfl rfl rfl rfl

/-! ## The handshake -/

/-- `ThreadFunc` has returned, and `Start` waits for a loop that nobody will announce. -/
def Hangs (s : EventLoopThread F T) : Prop :=
  s.thread = .ended ∧ s.start = .waiting ∧ s.loop = false

/-- `m_quit` is not stored before `Start` has returned. -/
def QuitsAfterStart (s : EventLoopThread F T) (label : ThreadLabel F T) : Prop :=
  s.storesQuit label = true → s.start = .idle

/-- `Start` is called on a thread that is not there yet; no other step begins a wait. -/
theorem Moves.start_ne_idle (hMoves : Moves s label s') (hInv : s.Coherent)
    (hStart : s'.start ≠ .idle) :
    s.start ≠ .idle ∨ label = .startLock ∧ s.thread = .absent := by
  cases hMoves with
  | start hFree hMutex hStarted => exact Or.inr ⟨rfl, (hInv.unstarted hStarted).1⟩
  | startWait hCreated => exact Or.inl (by simp [hCreated])
  | spuriousWakeup hWaiting => exact Or.inl (by simp [hWaiting])
  | startRecheck hWoken hMutex => exact Or.inl (by simp [hWoken])
  | notify hThread =>
      left
      intro hIdle
      exact hStart (by simp [EventLoopThread.notify, hIdle])
  | use side hUses hAlive =>
      obtain ⟨eventLoop, stage, hUse, -⟩ := s.use_spec hUses
      rw [hUse] at hStart
      exact Or.inl hStart
  | _ => exact Or.inl hStart

/-- While `Start` is in progress, `m_quit` is not set. -/
structure Handshake (s : EventLoopThread F T) : Prop where
  coherent : s.Coherent
  quiet : s.start ≠ .idle → s.eventLoop.quit = false

theorem step_handshake (s : EventLoopThread F T) (label : ThreadLabel F T)
    (s' : EventLoopThread F T) (hInv : s.Handshake) (hOk : QuitsAfterStart s label)
    (hStep : step s label = some s') : s'.Handshake := by
  have hMoves := (moves_of_step hStep).2
  refine ⟨hMoves.coherent hInv.coherent, fun hStart => ?_⟩
  have hQuiet : s.eventLoop.quit = false ∧ s.storesQuit label = false := by
    rcases hMoves.start_ne_idle hInv.coherent hStart with hBefore | ⟨rfl, hAbsent⟩
    · refine ⟨hInv.quiet hBefore, ?_⟩
      by_contra hStores
      exact hBefore (hOk (by simpa using hStores))
    · exact ⟨hInv.coherent.absent hAbsent, rfl⟩
  rcases hMoves.quit_eq with hSame | ⟨hStores, -⟩
  · rw [hSame]
    exact hQuiet.1
  · rw [hQuiet.2] at hStores
    cases hStores

theorem not_hangs_of_meets {labels : List (ThreadLabel F T)}
    (hRun : exec step new labels = some s) (hMeets : Meets step QuitsAfterStart new labels) :
    ¬ s.Hangs := by
  have hInv : s.Handshake :=
    exec_invariant_of_meets Handshake step_handshake ⟨coherent_new, fun _ => rfl⟩ hMeets hRun
  rintro ⟨hEnded, hWaiting, -⟩
  have hQuit := hInv.coherent.returned (Or.inr (Or.inl hEnded))
  rw [hInv.quiet (by simp [hWaiting])] at hQuit
  cases hQuit

/-! ## The way into the hang -/

/-- Who holds `m_mutex` between two steps, and that the loop is entered once. -/
structure Launch (s : EventLoopThread F T) : Prop where
  owner : s.mutex = some .owner → s.start = .created
  loopThread : s.mutex = some .loopThread → s.thread = .init
  unentered : s.thread.entered = false → s.eventLoop.pc = .outside

theorem Launch.loop (hInv : s.Launch) {label : LoopLabel (LoopTask F) (Peer T)}
    {eventLoop : EventLoop (LoopTask F) (Peer T)} (hMay : s.mayTake label = true)
    (hStep : s.eventLoop.step label = some eventLoop) :
    Launch { s with eventLoop := eventLoop, thread := afterLabel s.thread label } := by
  by_cases hEnter : label = .loop .enter
  · subst hEnter
    refine ⟨hInv.owner, fun hLoop => ?_, nofun⟩
    have hInit := hInv.loopThread hLoop
    rw [notified_of_mayTake hMay] at hInit
    cases hInit
  · rw [afterLabel_of_ne s.thread hEnter]
    refine ⟨hInv.owner, hInv.loopThread, fun hBefore => ?_⟩
    have hThread : s.thread.entered = false := hBefore
    rcases EventLoop.step_call_frame hStep with ⟨act, rfl, -, -⟩ | ⟨-, hPc, -, -⟩
    · -- The steps of `Loop()` are taken inside it.
      have hLooping : s.thread = .looping := by
        cases act <;> simp_all [mayTake]
      rw [hLooping] at hThread
      cases hThread
    · exact hPc.trans (hInv.unentered hThread)

theorem Moves.launch (hMoves : Moves s label s') (hCoherent : s.Coherent) (hInv : s.Launch) :
    s'.Launch := by
  have hNot : ∀ stage, s.thread = stage → stage ≠ .init → s.mutex ≠ some .loopThread := by
    intro stage hStage hNe hLoop
    exact hNe (hStage.symm.trans (hInv.loopThread hLoop))
  cases hMoves with
  | start hFree hMutex hStarted =>
      refine ⟨fun _ => rfl, nofun, fun _ => hInv.unentered ?_⟩
      rw [(hCoherent.unstarted hStarted).1]
      rfl
  | startWait hStart => exact ⟨nofun, nofun, hInv.unentered⟩
  | startRecheck hStart hMutex => exact ⟨nofun, nofun, hInv.unentered⟩
  | spuriousWakeup hStart =>
      refine ⟨fun hOwner => ?_, hInv.loopThread, hInv.unentered⟩
      have hCreated := hInv.owner hOwner
      rw [hStart] at hCreated
      cases hCreated
  | construct hThread =>
      refine ⟨hInv.owner, fun hLoop => (hNot _ hThread nofun hLoop).elim, fun _ => ?_⟩
      exact hInv.unentered (by rw [hThread]; rfl)
  | publish hThread hMutex =>
      exact ⟨nofun, fun _ => rfl, fun _ => hInv.unentered (by rw [hThread]; rfl)⟩
  | endInit hThread hFree =>
      exact ⟨nofun, nofun, fun _ => hInv.unentered (by rw [hThread]; rfl)⟩
  | notify hThread =>
      refine ⟨fun hOwner => ?_, fun hLoop => (hNot _ hThread nofun hLoop).elim, fun _ => ?_⟩
      · have hCreated := hInv.owner hOwner
        simp [EventLoopThread.notify, hCreated]
      · exact hInv.unentered (by rw [hThread]; rfl)
  | clear hThread hMutex hFree hPc =>
      exact ⟨hInv.owner, fun hLoop => (hNot _ hThread nofun hLoop).elim, nofun⟩
  | destroy hThread =>
      exact ⟨hInv.owner, fun hLoop => (hNot _ hThread nofun hLoop).elim, nofun⟩
  | loop label eventLoop hMay hStep => exact hInv.loop hMay hStep
  | use side hUses hAlive =>
      obtain ⟨eventLoop, stage, hUse, hPc, -⟩ := s.use_spec hUses
      rw [hUse]
      exact ⟨hInv.owner, hInv.loopThread, fun hBefore => hPc.trans (hInv.unentered hBefore)⟩
  | _ => exact ⟨hInv.owner, hInv.loopThread, hInv.unentered⟩

/-- A step of the background thread or of the wait in `Start`, and no call of the user. -/
def ownStep : ThreadLabel F T → Bool
  | .startWait | .spuriousWakeup | .startRecheck | .thread _ | .loop (.loop _) => true
  | _ => false

/-- The background thread and `Start` get into the hang by themselves. -/
def MayHang (s : EventLoopThread F T) : Prop :=
  ∃ (labels : List (ThreadLabel F T)) (t : EventLoopThread F T),
    (∀ label ∈ labels, ownStep label = true) ∧ exec step s labels = some t ∧ t.Hangs

theorem MayHang.of_step (label : ThreadLabel F T) (hOwn : ownStep label = true)
    (hStep : step s label = some s') (hHang : s'.MayHang) : s.MayHang := by
  obtain ⟨labels, t, hAll, hRun, hHangs⟩ := hHang
  refine ⟨label :: labels, t, ?_, exec_cons_eq_some.mpr ⟨s', hStep, hRun⟩, hHangs⟩
  intro other hOther
  rcases List.mem_cons.mp hOther with rfl | hRest
  · exact hOwn
  · exact hAll other hRest

/-- `Start` is blocked in its wait, and the loop has been told to quit. -/
structure Doomed (s : EventLoopThread F T) : Prop where
  fault : s.fault = none
  blocked : s.start = .waiting ∨ s.start = .woken
  quit : s.eventLoop.quit = true
  free : s.loopThreadFree = true

theorem mayHang_of_ended (hDoomed : s.Doomed) (hMutex : s.mutex = none)
    (hThread : s.thread = .ended) (hLoop : s.loop = false) : s.MayHang := by
  rcases hDoomed.blocked with hWaiting | hWoken
  · exact ⟨[], s, by simp, rfl, hThread, hWaiting, hLoop⟩
  · have hStep : step s .startRecheck = some s.testLoop := by
      simp [step, hDoomed.fault, hWoken, hMutex]
    refine MayHang.of_step .startRecheck rfl hStep ⟨[], _, by simp, rfl, hThread, ?_, hLoop⟩
    simp [testLoop, hLoop]

theorem mayHang_of_cleared (hDoomed : s.Doomed) (hMutex : s.mutex = none)
    (hThread : s.thread = .cleared) (hLoop : s.loop = false) : s.MayHang := by
  have hStep : step s (.thread .destroy) = some { s with thread := .ended } := by
    simp [step, threadStep, hDoomed.fault, hThread]
  refine MayHang.of_step _ rfl hStep (mayHang_of_ended ?_ hMutex rfl hLoop)
  exact { hDoomed with }

/-- The steps of `Loop()` are taken by the loop thread while it is in `ThreadFunc`. -/
theorem mayHang_of_acts (acts : List LoopAct) {final : EventLoop (LoopTask F) (Peer T)}
    (hDoomed : s.Doomed) (hMutex : s.mutex = none) (hThread : s.thread = .looping)
    (hEnter : .enter ∉ acts)
    (hRun : exec EventLoop.step s.eventLoop (acts.map .loop) = some final)
    (hPc : final.pc = .outside) : s.MayHang := by
  induction acts generalizing s with
  | nil =>
      obtain rfl : s.eventLoop = final := by simpa using hRun
      have hOutside := isOutside_iff.mpr hPc
      have hStep : step s (.thread .clear) = some { s with loop := false, thread := .cleared } := by
        simp [step, threadStep, hDoomed.fault, hThread, hMutex, hDoomed.free, hOutside]
      refine MayHang.of_step _ rfl hStep (mayHang_of_cleared ?_ hMutex rfl rfl)
      exact { hDoomed with }
  | cons act acts ih =>
      rw [List.mem_cons, not_or] at hEnter
      obtain ⟨next, hNext, hRest⟩ := exec_cons_eq_some.mp hRun
      have hAct := hNext
      simp only [EventLoop.step, Option.ite_none_right_eq_some] at hAct
      obtain ⟨hCalls, hQuit⟩ := (EventLoop.moves_of_loopStep hAct.2).calls_eq
      have hStops : (s.stops .loopThread).free = true := (Bool.and_eq_true_iff.mp hDoomed.free).1
      have hMay : s.mayTake (.loop act) = true := by
        have hDone : s.quitLoopDone = true := by
          unfold quitLoopDone
          rw [hDoomed.quit]
          split <;> rfl
        cases act <;> simp_all [mayTake]
      have hStep : step s (.loop (.loop act)) = some { s with eventLoop := next } := by
        have hAfter : afterLabel s.thread (.loop act : LoopLabel (LoopTask F) (Peer T)) =
            s.thread := by
          refine afterLabel_of_ne s.thread fun hEq => hEnter.1 ?_
          simpa using hEq.symm
        simp [step, takeLabel, hDoomed.fault, hMay, hNext, hAfter]
      refine MayHang.of_step _ rfl hStep (ih ?_ hMutex hThread hEnter.2 hRest)
      refine ⟨hDoomed.fault, hDoomed.blocked, ?_, ?_⟩
      · show next.quit = true
        rw [hQuit]
        exact hDoomed.quit
      · simp only [loopThreadFree, hCalls]
        exact hDoomed.free

theorem mayHang_of_looping (hDoomed : s.Doomed) (hMutex : s.mutex = none)
    (hThread : s.thread = .looping) : s.MayHang := by
  have hIdle : s.eventLoop.calls .loopThread = .idle := by
    simpa using (Bool.and_eq_true_iff.mp hDoomed.free).2
  obtain ⟨acts, final, hEnter, hRun, hPc⟩ := EventLoop.returns_of_quit hDoomed.quit hIdle
  exact mayHang_of_acts acts hDoomed hMutex hThread hEnter hRun hPc


theorem mayHang_of_notified (hDoomed : s.Doomed) (hMutex : s.mutex = none)
    (hThread : s.thread = .notified) (hPc : s.eventLoop.pc = .outside) : s.MayHang := by
  obtain ⟨hStops, hCall⟩ := Bool.and_eq_true_iff.mp hDoomed.free
  have hIdle : s.eventLoop.calls .loopThread = .idle := by simpa using hCall
  have hMay : s.mayTake (.loop .enter) = true := by simp [mayTake, hThread, hStops]
  have hStep : step s (.loop (.loop .enter)) =
      some { s with eventLoop := { s.eventLoop with pc := .top }, thread := .looping } := by
    simp [step, takeLabel, hDoomed.fault, hMay, EventLoop.step, hIdle, EventLoop.loopStep, hPc,
      afterLabel]
  refine MayHang.of_step _ rfl hStep (mayHang_of_looping ?_ hMutex rfl)
  exact ⟨hDoomed.fault, hDoomed.blocked, hDoomed.quit, hDoomed.free⟩

theorem mayHang_of_unlocked (hDoomed : s.Doomed) (hMutex : s.mutex = none)
    (hThread : s.thread = .unlocked) (hPc : s.eventLoop.pc = .outside) : s.MayHang := by
  have hStep : step s (.thread .notify) = some s.notify := by
    simp [step, threadStep, hDoomed.fault, hThread]
  refine MayHang.of_step _ rfl hStep (mayHang_of_notified ?_ hMutex rfl hPc)
  refine ⟨hDoomed.fault, Or.inr ?_, hDoomed.quit, hDoomed.free⟩
  rcases hDoomed.blocked with hWaiting | hWoken
  · simp [notify, hWaiting]
  · simp [notify, hWoken]

theorem mayHang_of_init (hDoomed : s.Doomed) (hThread : s.thread = .init)
    (hPc : s.eventLoop.pc = .outside) : s.MayHang := by
  have hStep : step s (.thread .endInit) =
      some { s with mutex := none, thread := .unlocked } := by
    simp [step, threadStep, hDoomed.fault, hThread, hDoomed.free]
  refine MayHang.of_step _ rfl hStep (mayHang_of_unlocked ?_ rfl rfl hPc)
  exact { hDoomed with }

theorem mayHang_of_constructed (hDoomed : s.Doomed) (hMutex : s.mutex = none)
    (hThread : s.thread = .constructed) (hPc : s.eventLoop.pc = .outside) : s.MayHang := by
  have hStep : step s (.thread .publish) =
      some { s with mutex := some .loopThread, loop := true, thread := .init } := by
    simp [step, threadStep, hDoomed.fault, hThread, hMutex]
  refine MayHang.of_step _ rfl hStep (mayHang_of_init ?_ rfl hPc)
  exact { hDoomed with }

/-- Wherever the background thread is. -/
theorem Doomed.mayHang (hDoomed : s.Doomed) (hCoherent : s.Coherent) (hLaunch : s.Launch) :
    s.MayHang := by
  have hMutex : s.thread ≠ .init → s.mutex = none := by
    intro hThread
    cases hHolder : s.mutex with
    | none => rfl
    | some side =>
        cases side with
        | owner =>
            have hCreated := hLaunch.owner hHolder
            rcases hDoomed.blocked with hBlocked | hBlocked <;> simp [hCreated] at hBlocked
        | loopThread => exact absurd (hLaunch.loopThread hHolder) hThread
  have hPc := hLaunch.unentered
  cases hThread : s.thread with
  | absent =>
      have hQuit := hCoherent.absent hThread
      rw [hDoomed.quit] at hQuit
      cases hQuit
  | created =>
      have hStep : step s (.thread .construct) = some { s with thread := .constructed } := by
        simp [step, threadStep, hDoomed.fault, hThread]
      refine MayHang.of_step _ rfl hStep (mayHang_of_constructed ?_ ?_ rfl ?_)
      · exact { hDoomed with }
      · exact hMutex (by simp [hThread])
      · exact hPc (by rw [hThread]; rfl)
  | constructed =>
      exact mayHang_of_constructed hDoomed (hMutex (by simp [hThread])) hThread
        (hPc (by rw [hThread]; rfl))
  | init => exact mayHang_of_init hDoomed hThread (hPc (by rw [hThread]; rfl))
  | unlocked =>
      exact mayHang_of_unlocked hDoomed (hMutex (by simp [hThread])) hThread
        (hPc (by rw [hThread]; rfl))
  | notified =>
      exact mayHang_of_notified hDoomed (hMutex (by simp [hThread])) hThread
        (hPc (by rw [hThread]; rfl))
  | looping => exact mayHang_of_looping hDoomed (hMutex (by simp [hThread])) hThread
  | cleared =>
      exact mayHang_of_cleared hDoomed (hMutex (by simp [hThread])) hThread
        (hCoherent.loop_eq_false (by rw [hThread]; rfl))
  | ended =>
      exact mayHang_of_ended hDoomed (hMutex (by simp [hThread])) hThread
        (hCoherent.loop_eq_false (by rw [hThread]; rfl))

omit [DecidableEq T] in
theorem storesQuit_of_ownStep (s : EventLoopThread F T) (hOwn : ownStep label = true) :
    s.storesQuit label = false := by
  cases label with
  | loop label => cases label <;> first | rfl | cases hOwn
  | startLock | getLoop _ | stopLock _ | stopNext _ => cases hOwn
  | startWait | spuriousWakeup | startRecheck | thread _ => rfl

/-- Without a `Quit` there is no way into the hang. -/
theorem MayHang.quit_set (hHang : s.MayHang) (hCoherent : s.Coherent) :
    s.eventLoop.quit = true := by
  obtain ⟨labels, t, hOwn, hRun, hEnded, -⟩ := hHang
  induction labels generalizing s with
  | nil =>
      obtain rfl : s = t := by simpa using hRun
      exact hCoherent.returned (Or.inr (Or.inl hEnded))
  | cons label labels ih =>
      obtain ⟨next, hNext, hRest⟩ := exec_cons_eq_some.mp hRun
      have hMoves := (moves_of_step hNext).2
      have hLater := ih (hMoves.coherent hCoherent)
        (fun other hOther => hOwn other (List.mem_cons_of_mem label hOther)) hRest
      rcases hMoves.quit_eq with hSame | ⟨hStores, -⟩
      · exact hSame.symm.trans hLater
      · rw [storesQuit_of_ownStep s (hOwn label List.mem_cons_self)] at hStores
        cases hStores

/-- **When `Start` returns.**  In every run in which `m_quit` is not stored before `Start` has
returned, no state is reached in which `ThreadFunc` has returned and `Start` still waits.
The condition is needed: while `Start` is blocked, the background thread and `Start` get into
the hang by themselves if and only if `m_quit` is set. -/
theorem start_never_hangs {labels : List (ThreadLabel F T)}
    (hRun : exec step new labels = some s) :
    (Meets step QuitsAfterStart new labels → ¬ s.Hangs) ∧
      (s.fault = none → s.start = .waiting ∨ s.start = .woken → s.loopThreadFree = true →
        (s.MayHang ↔ s.eventLoop.quit = true)) := by
  have hInv : s.Coherent ∧ s.Launch := by
    refine exec_invariant (fun s => s.Coherent ∧ s.Launch) ?_ ?_ hRun
    · rintro s label next ⟨hCoherent, hLaunch⟩ hStep
      have hMoves := (moves_of_step hStep).2
      exact ⟨hMoves.coherent hCoherent, hMoves.launch hCoherent hLaunch⟩
    · exact ⟨coherent_new, nofun, nofun, fun _ => rfl⟩
  refine ⟨not_hangs_of_meets hRun, fun hFault hBlocked hFree => ⟨?_, fun hQuit => ?_⟩⟩
  · intro hHang
    exact hHang.quit_set hInv.1
  · have hDoomed : s.Doomed := ⟨hFault, hBlocked, hQuit, hFree⟩
    exact hDoomed.mayHang hInv.1 hInv.2

end Steps

instance (s : EventLoopThread F T) (label : ThreadLabel F T) :
    Decidable (QuitsAfterStart s label) :=
  inferInstanceAs (Decidable (s.storesQuit label = true → s.start = .idle))

/-- The owner calls `Quit` when `Start` has returned, and the loop ends. -/
def lateQuit : List (ThreadLabel Nat Nat) :=
  [.startLock, .thread .construct, .startWait, .thread .publish, .thread .endInit,
    .thread .notify, .startRecheck, .loop (.loop .enter), .loop (.quit (.other .owner)),
    .loop (.finishCall (.other .owner)), .loop (.loop .testTop), .loop (.loop .startPending),
    .loop (.loop .swap), .loop (.loop .endPending), .loop (.loop .destroyFunctors),
    .loop (.loop .testBottom), .thread .clear, .thread .destroy]

/-- The init callback calls `Quit`; the background thread is through before `Start` gets
`m_mutex` again. -/
def quitInInit : List (ThreadLabel Nat Nat) :=
  [.startLock, .thread .construct, .startWait, .thread .publish, .loop (.quit .loopThread),
    .loop (.finishCall .loopThread), .thread .endInit, .thread .notify, .loop (.loop .enter),
    .loop (.loop .testTop), .loop (.loop .startPending), .loop (.loop .swap),
    .loop (.loop .endPending), .loop (.loop .destroyFunctors), .loop (.loop .testBottom),
    .thread .clear, .thread .destroy, .startRecheck]

/-- The late `Quit` is harmless, and after the early one the hang lies ahead. -/
theorem start_never_hangs_lateQuit :
    (∃ s : EventLoopThread Nat Nat, exec step new lateQuit = some s ∧ s.thread = .ended ∧
      ¬ s.Hangs) ∧
    ∃ s : EventLoopThread Nat Nat, exec step new (quitInInit.take 6) = some s ∧ s.MayHang := by
  have hLate : ∃ s : EventLoopThread Nat Nat, exec step new lateQuit = some s ∧
      s.thread = .ended := ⟨_, rfl, rfl⟩
  have hEarly : ∃ s : EventLoopThread Nat Nat, exec step new (quitInInit.take 6) = some s ∧
      s.fault = none ∧ s.start = .waiting ∧ s.loopThreadFree = true ∧ s.eventLoop.quit = true :=
    ⟨_, rfl, rfl, rfl, rfl, rfl⟩
  obtain ⟨late, hLateRun, hEnded⟩ := hLate
  obtain ⟨early, hEarlyRun, hFault, hWaiting, hFree, hQuit⟩ := hEarly
  refine ⟨⟨late, hLateRun, hEnded, ?_⟩, early, hEarlyRun, ?_⟩
  · exact (start_never_hangs hLateRun).1 (by decide)
  · exact ((start_never_hangs hEarlyRun).2 hFault (Or.inl hWaiting) hFree).mpr hQuit

theorem hangs_quitInInit :
    ∃ s : EventLoopThread Nat Nat, exec step new quitInInit = some s ∧ s.Hangs :=
  ⟨_, rfl, rfl, rfl, rfl⟩

end EventLoopThread
end SolarNet
