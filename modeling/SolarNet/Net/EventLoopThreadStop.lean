import SolarNet.Net.EventLoopThreadStart

/-!
# `Stop`, the end of the loop, and `Stop` on the loop thread

`Stop` copies `m_loop` under `m_mutex` and uses the copy when the mutex is
released.  The loop lives on the stack of the background thread, which destroys
it as soon as `Loop()` has returned.  Nothing keeps the loop alive until `Stop` is
through with it: `Quit` may have been called already, and even the functor that
`Stop` itself posts can end the loop before `QueueInLoop` gets to its `Wakeup`.

On the loop thread `Stop` calls `Quit` and goes on to `Join`, which is a join of
the thread with itself.

The file shows that `Stop` is safe in every run in which it is not called
effectively on the loop thread, and in which `m_quit` is not set before `Stop` has
made its last use of the pointer.
-/

namespace SolarNet

open Lib

namespace EventLoopThread

variable {F T : Type*} {s s' : EventLoopThread F T} {label : ThreadLabel F T}

/-- There is no background thread, and `GetLoop()` is `nullptr`. -/
def Gone (s : EventLoopThread F T) : Prop :=
  (s.thread = .absent ∨ s.thread = .ended) ∧ s.loop = false

/-- What `Stop` promises: it uses the loop while it is alive, it does not join the thread it
runs on, and when it has returned to the owner the thread has ended. -/
structure StopSafe (s : EventLoopThread F T) : Prop where
  fault : s.fault = none
  returned : s.stops .owner = .returned → s.Gone

/-- On the loop thread `Stop` finds that the owner has called it before; the owner's call does
not find a loop that was told to quit; and `m_quit` is not stored as long as that call uses
the loop. -/
def StopsFirst (s : EventLoopThread F T) : ThreadLabel F T → Prop
  | .stopLock .loopThread => s.stopped = true
  | .stopLock .owner =>
      s.started = true → s.stopped = false → s.loop = true → s.eventLoop.quit = false
  | label => s.storesQuit label = true → (s.stops .owner).usesLoop = false

theorem StopsFirst.of_storesQuit (hOk : StopsFirst s label) (hStores : s.storesQuit label = true) :
    (s.stops .owner).usesLoop = false := by
  cases label with
  | stopLock side => cases hStores
  | _ => exact hOk hStores

theorem not_free_of_usesLoop {stage : StopStage} (hUses : stage.usesLoop = true) :
    stage.free = false := by
  cases stage <;> first | rfl | cases hUses

theorem alive_of_published {stage : ThreadStage} (hPublished : stage.published = true) :
    stage.alive = true := by
  cases stage <;> first | rfl | cases hPublished

/-- What holds between the steps of a call of `Stop`. -/
structure StopInv (s : EventLoopThread F T) : Prop where
  coherent : s.Coherent
  fault : s.fault = none
  loopThread : (s.stops .loopThread).free = true
  member : s.started = true → s.stopped = false → s.handle = some .member
  inside : (s.stops .owner).free = false → s.stopped = true
  uses : (s.stops .owner).usesLoop = true →
    s.eventLoop.quit = false ∧ s.thread.alive = true ∧ s.handle = some (.moved .owner)
  join : s.stops .owner = .join → s.handle = some (.moved .owner)
  finish : s.stops .owner = .finish → s.thread = .ended
  returned : s.stops .owner = .returned → s.Gone
  stopped : s.stopped = true → (s.stops .owner).free = true → s.thread = .ended ∧ s.loop = false

theorem stopInv_new : StopInv (new : EventLoopThread F T) where
  coherent := coherent_new
  fault := rfl
  loopThread := rfl
  member := nofun
  inside := nofun
  uses := nofun
  join := nofun
  finish := nofun
  returned := nofun
  stopped := nofun

@[simp] theorem setStop_self (s : EventLoopThread F T) (side : Side) (stage : StopStage) :
    (s.setStop side stage).stops side = stage := by
  simp [setStop]

theorem free_of_ownerFree (hFree : s.ownerFree = true) : (s.stops .owner).free = true := by
  simp only [ownerFree, Bool.and_eq_true] at hFree
  exact hFree.1.2

/-- The owner is outside `Stop`. -/
theorem StopInv.of_free (hCoherent : s.Coherent) (hFault : s.fault = none)
    (hLoopThread : (s.stops .loopThread).free = true) (hFree : (s.stops .owner).free = true)
    (hMember : s.started = true → s.stopped = false → s.handle = some .member)
    (hReturned : s.stops .owner = .returned → s.Gone)
    (hStopped : s.stopped = true → s.thread = .ended ∧ s.loop = false) : s.StopInv := by
  have hNot : ∀ stage : StopStage, stage.free = false → s.stops .owner ≠ stage := by
    intro stage hBusy hEq
    rw [hEq, hBusy] at hFree
    cases hFree
  refine ⟨hCoherent, hFault, hLoopThread, hMember, ?_, ?_, ?_, ?_, hReturned, ?_⟩
  · intro hBusy
    rw [hFree] at hBusy
    cases hBusy
  · intro hUses
    rw [not_free_of_usesLoop hUses] at hFree
    cases hFree
  · exact fun hJoin => absurd hJoin (hNot .join rfl)
  · exact fun hFinish => absurd hFinish (hNot .finish rfl)
  · exact fun hTrue _ => hStopped hTrue

/-- The owner is inside `Stop`, before `Join` has returned. -/
theorem StopInv.of_joining (hCoherent : s.Coherent) (hFault : s.fault = none)
    (hLoopThread : (s.stops .loopThread).free = true)
    (hStage : (s.stops .owner).usesLoop = true ∨ s.stops .owner = .join)
    (hStopped : s.stopped = true) (hMoved : s.handle = some (.moved .owner))
    (hUses : (s.stops .owner).usesLoop = true →
      s.eventLoop.quit = false ∧ s.thread.alive = true) : s.StopInv := by
  have hBusy : (s.stops .owner).free = false := by
    rcases hStage with hNext | hJoin
    · exact not_free_of_usesLoop hNext
    · rw [hJoin]
      rfl
  refine ⟨hCoherent, hFault, hLoopThread, ?_, fun _ => hStopped, ?_, fun _ => hMoved, ?_, ?_, ?_⟩
  · intro _ hNot
    rw [hStopped] at hNot
    cases hNot
  · exact fun hNext => ⟨(hUses hNext).1, (hUses hNext).2, hMoved⟩
  · intro hFinish
    rw [hFinish] at hStage
    rcases hStage with hNext | hJoin
    · cases hNext
    · cases hJoin
  · intro hReturned
    rw [hReturned] at hBusy
    cases hBusy
  · intro _ hFree
    rw [hBusy] at hFree
    cases hFree

/-! ## The owner's calls -/

/-- `Stop` returns at once. -/
theorem StopInv.stopNothing (hInv : s.StopInv) (hFree : s.ownerFree = true)
    (hNothing : s.started = false ∨ s.stopped = true) :
    (s.setStop .owner .returned).StopInv := by
  have hStopped : s.stopped = true → s.thread = .ended ∧ s.loop = false :=
    fun hTrue => hInv.stopped hTrue (free_of_ownerFree hFree)
  have hGone : s.Gone := by
    rcases hNothing with hNot | hTrue
    · obtain ⟨hAbsent, hLoop⟩ := hInv.coherent.unstarted hNot
      exact ⟨Or.inl hAbsent, hLoop⟩
    · obtain ⟨hEnded, hLoop⟩ := hStopped hTrue
      exact ⟨Or.inr hEnded, hLoop⟩
  exact .of_free (hInv.coherent.frame rfl rfl rfl rfl) hInv.fault hInv.loopThread rfl hInv.member
    (fun _ => hGone) hStopped

/-- The owner copies `m_loop` and takes the thread over. -/
theorem StopInv.stopLock (hInv : s.StopInv) (hOk : StopsFirst s (.stopLock .owner))
    (hStarted : s.started = true) (hStopped : s.stopped = false) :
    StopInv ({ s with
      stopped := true
      handle := if s.handle = some ThreadHandle.member then some (.moved .owner)
        else s.handle }.setStop .owner (if s.loop then .testThread else .join)) := by
  have hStage : (if s.loop then StopStage.testThread else .join).usesLoop = true ↔
      s.loop = true := by
    cases s.loop <;> simp [StopStage.usesLoop]
  refine .of_joining (hInv.coherent.frame rfl rfl rfl rfl) hInv.fault hInv.loopThread ?_ rfl ?_ ?_
  · rw [setStop_self, hStage]
    cases s.loop <;> simp
  · exact if_pos (hInv.member hStarted hStopped)
  · rw [setStop_self, hStage]
    intro hLoop
    exact ⟨hOk hStarted hStopped hLoop, alive_of_published (hInv.coherent.published hLoop)⟩

theorem StopInv.joined (hInv : s.StopInv) (hStop : s.stops .owner = .join)
    (hEnded : s.thread = .ended) : (s.setStop .owner .finish).StopInv :=
  { coherent := hInv.coherent.frame rfl rfl rfl rfl
    fault := hInv.fault
    loopThread := hInv.loopThread
    member := hInv.member
    inside := fun _ => hInv.inside (by rw [hStop]; rfl)
    uses := nofun
    join := nofun
    finish := fun _ => hEnded
    returned := nofun
    stopped := nofun }

section Steps

variable [DecidableEq T]

/-- A loop that was not told to quit stays alive. -/
theorem Moves.alive_stays (hMoves : Moves s label s') (hInv : s.Coherent)
    (hAlive : s.thread.alive = true) (hQuit : s.eventLoop.quit = false) :
    s'.thread.alive = true := by
  cases hMoves with
  | start hFree hMutex hStarted =>
      rw [(hInv.unstarted hStarted).1] at hAlive
      cases hAlive
  | destroy hThread =>
      rw [hInv.returned (Or.inl hThread)] at hQuit
      cases hQuit
  | loop label eventLoop hMay hStep =>
      by_cases hEnter : label = .loop .enter
      · subst hEnter
        rfl
      · rw [afterLabel_of_ne s.thread hEnter]
        exact hAlive
  | use side hUses _ =>
      obtain ⟨eventLoop, stage, hUse, -⟩ := s.use_spec hUses
      rw [hUse]
      exact hAlive
  | construct | publish | endInit | notify | clear => rfl
  | _ => exact hAlive

/-- The steps of the background thread, of the wait in `Start` and of `GetLoop` touch neither
the calls of `Stop` nor the flags. -/
theorem StopInv.background (hInv : s.StopInv) (hMoves : Moves s label s')
    (hOk : StopsFirst s label) (hFault : s'.fault = s.fault) (hStops : s'.stops = s.stops)
    (hStarted : s'.started = s.started) (hStopped : s'.stopped = s.stopped)
    (hHandle : s'.handle = s.handle)
    (hGone : s.thread = .absent ∨ s.thread = .ended →
      s'.thread = s.thread ∧ s'.loop = s.loop) : s'.StopInv := by
  refine ⟨hMoves.coherent hInv.coherent, ?_, ?_, ?_, ?_, ?_, ?_, ?_, ?_, ?_⟩
  · rw [hFault]
    exact hInv.fault
  · rw [hStops]
    exact hInv.loopThread
  · rw [hStarted, hStopped, hHandle]
    exact hInv.member
  · rw [hStops, hStopped]
    exact hInv.inside
  · rw [hStops, hHandle]
    intro hUses
    obtain ⟨hQuit, hAlive, hMoved⟩ := hInv.uses hUses
    refine ⟨?_, hMoves.alive_stays hInv.coherent hAlive hQuit, hMoved⟩
    rcases hMoves.quit_eq with hSame | ⟨hStores, -⟩
    · rw [hSame]
      exact hQuit
    · rw [hOk.of_storesQuit hStores] at hUses
      cases hUses
  · rw [hStops, hHandle]
    exact hInv.join
  · rw [hStops]
    intro hFinish
    have hEnded := hInv.finish hFinish
    rw [(hGone (Or.inr hEnded)).1]
    exact hEnded
  · rw [hStops]
    intro hReturned
    obtain ⟨hThread, hLoop⟩ := hInv.returned hReturned
    obtain ⟨hSame, hSameLoop⟩ := hGone hThread
    exact ⟨hSame ▸ hThread, hSameLoop ▸ hLoop⟩
  · rw [hStops, hStopped]
    intro hTrue hFree
    obtain ⟨hEnded, hLoop⟩ := hInv.stopped hTrue hFree
    obtain ⟨hSame, hSameLoop⟩ := hGone (Or.inr hEnded)
    exact ⟨hSame ▸ hEnded, hSameLoop ▸ hLoop⟩

/-- A use of the copied pointer. -/
theorem StopInv.use (hInv : s.StopInv) (hOk : StopsFirst s (.stopNext .owner))
    (hUses : (s.stops .owner).usesLoop = true) : (s.use .owner).StopInv := by
  obtain ⟨hQuit, hAlive, hMoved⟩ := hInv.uses hUses
  have hCoherent := hInv.coherent.use hUses hAlive
  obtain ⟨eventLoop, stage, hUse, -, hStore, hStage⟩ := s.use_spec hUses
  have hSame : eventLoop.quit = s.eventLoop.quit := by
    rcases hStore with hSame | ⟨hQuitting, -⟩
    · exact hSame
    · -- The owner does not store the flag itself.
      have hNot := hOk.of_storesQuit (by simp [storesQuit, hQuitting])
      rw [hUses] at hNot
      cases hNot
  rw [hUse] at hCoherent ⊢
  refine .of_joining hCoherent hInv.fault hInv.loopThread ?_
    (hInv.inside (not_free_of_usesLoop hUses)) hMoved fun _ => ⟨hSame.trans hQuit, hAlive⟩
  rw [setStop_self]
  exact hStage

theorem StopInv.finishStop (hInv : s.StopInv) (hMoves : Moves s label (s.finishStop .owner))
    (hStop : s.stops .owner = .finish) : (s.finishStop .owner).StopInv := by
  have hEnded := hInv.finish hStop
  have hStopped : s.stopped = true := hInv.inside (by rw [hStop]; rfl)
  refine .of_free (hMoves.coherent hInv.coherent) hInv.fault hInv.loopThread rfl ?_
    (fun _ => ⟨Or.inr hEnded, rfl⟩) fun _ => ⟨hEnded, rfl⟩
  intro _ hNot
  have hFalse : s.stopped = false := hNot
  rw [hStopped] at hFalse
  cases hFalse

/-- `Start`, also after a call of `Stop` that has returned. -/
theorem StopInv.start (hInv : s.StopInv) (hMoves : Moves s .startLock s') : s'.StopInv := by
  have hCoherent := hMoves.coherent hInv.coherent
  cases hMoves with
  | startAgain hFree hMutex hStarted =>
      exact .of_free hCoherent hInv.fault hInv.loopThread rfl hInv.member nofun
        fun hStopped => hInv.stopped hStopped (free_of_ownerFree hFree)
  | start hFree hMutex hStarted =>
      exact .of_free hCoherent hInv.fault hInv.loopThread rfl (fun _ _ => rfl) nofun nofun

/-! ## Runs -/

/-- A step that meets the condition. -/
theorem step_stopInv (s : EventLoopThread F T) (label : ThreadLabel F T)
    (s' : EventLoopThread F T) (hInv : s.StopInv) (hOk : StopsFirst s label)
    (hStep : step s label = some s') : s'.StopInv := by
  have hMoves := (moves_of_step hStep).2
  have hStay := hMoves
  -- The loop thread is outside `Stop`.
  have hLoopThread : ∀ stage : StopStage, stage.free = false → s.stops .loopThread ≠ stage := by
    intro stage hBusy hEq
    have hFree := hInv.loopThread
    rw [hEq, hBusy] at hFree
    cases hFree
  have hNoUse : (s.stops .loopThread).usesLoop = false := by
    by_contra hUses
    exact hLoopThread _ (not_free_of_usesLoop (by simpa using hUses)) rfl
  cases hMoves with
  | startAgain | start => exact hInv.start hStay
  | stopNothing side hMay hMutex hNothing =>
      cases side with
      | owner => exact hInv.stopNothing hMay hNothing
      | loopThread =>
          exact { hInv with
            coherent := hInv.coherent.frame rfl rfl rfl rfl
            loopThread := rfl }
  | stopLock side hMay hMutex hStarted hStopped =>
      cases side with
      | owner => exact hInv.stopLock hOk hStarted hStopped
      | loopThread =>
          have hTrue : s.stopped = true := hOk
          rw [hStopped] at hTrue
          cases hTrue
  | use side hUses hAlive =>
      cases side with
      | owner => exact hInv.use hOk hUses
      | loopThread =>
          rw [hNoUse] at hUses
          cases hUses
  | useDestroyed side hUses hDestroyed =>
      cases side with
      | owner =>
          rw [(hInv.uses hUses).2.1] at hDestroyed
          cases hDestroyed
      | loopThread =>
          rw [hNoUse] at hUses
          cases hUses
  | join hStop hHandle hEnded => exact hInv.joined hStop hEnded
  | joinItself hStop hHandle => exact absurd hStop (hLoopThread .join rfl)
  | joinNothing side hStop hHandle =>
      cases side with
      | owner => exact absurd (hInv.join hStop) hHandle
      | loopThread => exact absurd hStop (hLoopThread .join rfl)
  | finishStop side hStop hMutex =>
      cases side with
      | owner => exact hInv.finishStop hStay hStop
      | loopThread => exact absurd hStop (hLoopThread .finish rfl)
  | construct hThread | publish hThread _ | endInit hThread _ | notify hThread
  | clear hThread _ _ _ | destroy hThread =>
      refine hInv.background hStay hOk rfl rfl rfl rfl rfl ?_
      rintro (hGone | hGone) <;> rw [hThread] at hGone <;> cases hGone
  | loop label eventLoop hMay hStep =>
      refine hInv.background hStay hOk rfl rfl rfl rfl rfl ?_
      have hAlive := alive_of_mayTake hMay
      rintro (hGone | hGone) <;> rw [hGone] at hAlive <;> cases hAlive
  | startWait | spuriousWakeup | startRecheck | getLoop =>
      exact hInv.background hStay hOk rfl rfl rfl rfl rfl fun _ => ⟨rfl, rfl⟩

/-- **When `Stop` is safe.**  In every run in which `Stop` on the loop thread finds that the
owner has called it before, the owner's `Stop` does not find a loop that was told to quit, and
`m_quit` is not stored before that call has made its last use of the loop: every use of the
loop happens while it is alive, no thread joins itself, and when `Stop` has returned to the
owner the background thread has ended and `GetLoop()` is `nullptr`. -/
theorem stop_safe {labels : List (ThreadLabel F T)} (hRun : exec step new labels = some s)
    (hMeets : Meets step StopsFirst new labels) : s.StopSafe := by
  have hInv : s.StopInv := exec_invariant_of_meets StopInv step_stopInv stopInv_new hMeets hRun
  exact ⟨hInv.fault, hInv.returned⟩

end Steps

instance (s : EventLoopThread F T) : (label : ThreadLabel F T) → Decidable (StopsFirst s label)
  | .stopLock .owner =>
      inferInstanceAs (Decidable (s.started = true → s.stopped = false → s.loop = true →
        s.eventLoop.quit = false))
  | .stopLock .loopThread => inferInstanceAs (Decidable (s.stopped = true))
  | .loop label =>
      inferInstanceAs (Decidable (s.storesQuit (.loop label) = true →
        (s.stops .owner).usesLoop = false))
  | .stopNext side =>
      inferInstanceAs (Decidable (s.storesQuit (.stopNext side) = true →
        (s.stops .owner).usesLoop = false))
  | .startLock | .startWait | .spuriousWakeup | .startRecheck | .thread _ | .getLoop _ =>
      isTrue nofun

/-- `Start` has returned, and the loop thread is at `Poll`. -/
def startAndPoll : List (ThreadLabel Nat Nat) :=
  [.startLock, .thread .construct, .startWait, .thread .publish, .thread .endInit,
    .thread .notify, .startRecheck, .loop (.loop .enter), .loop (.loop .testTop)]

/-- `Poll` returns, the functor of `Stop` runs, and the background thread ends. -/
def endByFunctor : List (ThreadLabel Nat Nat) :=
  [.loop (.loop .pollReturn), .loop (.loop .endHandling), .loop (.loop .startPending),
    .loop (.loop .swap), .loop (.loop .runNext), .loop (.quit .loopThread),
    .loop (.finishCall .loopThread), .loop (.loop .functorReturn), .loop (.loop .endPending),
    .loop (.loop .destroyFunctors), .loop (.loop .testBottom), .thread .clear, .thread .destroy]

/-- The owner calls `Stop`, and its functor runs when `QueueInLoop` has returned. -/
def stopInOrder : List (ThreadLabel Nat Nat) :=
  startAndPoll ++ .stopLock .owner :: List.replicate 5 (.stopNext .owner) ++ endByFunctor ++
    [.stopNext .owner, .stopNext .owner]

theorem stop_safe_stopInOrder :
    ∃ s : EventLoopThread Nat Nat, exec step new stopInOrder = some s ∧
      s.stops .owner = .returned ∧ s.fault = none ∧ s.Gone := by
  have hRun : ∃ s : EventLoopThread Nat Nat, exec step new stopInOrder = some s ∧
      s.stops .owner = .returned := ⟨_, rfl, rfl⟩
  obtain ⟨s, hRun, hReturned⟩ := hRun
  have hSafe := stop_safe hRun (by decide)
  exact ⟨s, hRun, hReturned, hSafe.fault, hSafe.returned hReturned⟩

/-- The functor of `Stop` ends the loop before `QueueInLoop` is through. -/
def stopOvertaken : List (ThreadLabel Nat Nat) :=
  startAndPoll ++ .stopLock .owner :: List.replicate 3 (.stopNext .owner) ++ endByFunctor ++
    [.stopNext .owner]

/-- A handler calls `Stop`. -/
def stopOnLoopThread : List (ThreadLabel Nat Nat) :=
  startAndPoll ++ .loop (.loop .pollReturn) :: .stopLock .loopThread ::
    List.replicate 4 (.stopNext .loopThread)

/-- A handler calls `Stop`, and then the owner does. -/
def stopTwice : List (ThreadLabel Nat Nat) :=
  startAndPoll ++ [.loop (.loop .pollReturn), .stopLock .loopThread, .stopLock .owner]

theorem not_stopSafe_runs :
    (∃ s : EventLoopThread Nat Nat, exec step new stopOvertaken = some s ∧
      s.fault = some .usedDestroyedLoop) ∧
    (∃ s : EventLoopThread Nat Nat, exec step new stopOnLoopThread = some s ∧
      s.fault = some .joinedItself) ∧
    ∃ s : EventLoopThread Nat Nat, exec step new stopTwice = some s ∧
      s.stops .owner = .returned ∧ s.thread = .looping ∧ s.loop = true :=
  ⟨⟨_, rfl, rfl⟩, ⟨_, rfl, rfl⟩, _, rfl, rfl, rfl, rfl⟩

end EventLoopThread
end SolarNet
