import SolarNet.Lib.Cyclic
import SolarNet.Lib.Run
import SolarNet.Net.EventLoopThreadPool

/-!
# `GetNextLoop` from many threads

`EventLoopThreadPool::GetNextLoop` reads `m_started` and `m_loops`, takes a
number with `fetch_add`, and returns the loop at that number.  Any thread may be
between two of these accesses while others take theirs, so a call is cut into
three steps, and a run is any interleaving of the steps of any threads.  The
calls are listed in the order of their increments; a call has a result once it
has returned.
-/

namespace SolarNet

open EventLoopThreadPool

/-- Where a thread is in `GetNextLoop`. -/
inductive NextStage where
  /-- Not in the function. -/
  | idle
  /-- The test for a started pool with loops is passed. -/
  | tested
  /-- `fetch_add` gave `index`; the increment was number `call`. -/
  | fetched (call index : Nat)
  deriving DecidableEq, Repr

/-- A call that has taken its number. -/
structure NextCall (T : Type) where
  thread : T
  result : Option LoopId
  deriving DecidableEq, Repr

/-- A pool whose loops are handed out.  `refused` lists the calls that returned
`nullptr`. -/
structure HandOut (T : Type) where
  pool : EventLoopThreadPool
  stage : T → NextStage
  calls : List (NextCall T)
  refused : List T

inductive HandOutLabel (T : Type) where
  | test (t : T)
  | fetchAdd (t : T)
  | ret (t : T)
  /-- The owner calls `Start` again. -/
  | start (failed : Finset Nat)

namespace HandOut

section Machine

variable {T : Type}

/-- Nobody is in `GetNextLoop`. -/
def new (T : Type) (pool : EventLoopThreadPool) : HandOut T where
  pool := pool
  stage := fun _ => .idle
  calls := []
  refused := []

variable [DecidableEq T]

def setStage (s : HandOut T) (t : T) (stage : NextStage) : HandOut T :=
  { s with stage := Function.update s.stage t stage }

/-- `if (!m_started || m_loops.empty()) return nullptr`. -/
def test (s : HandOut T) (t : T) : HandOut T :=
  if !s.pool.started || s.pool.loops.isEmpty then { s with refused := s.refused ++ [t] }
  else s.setStage t .tested

/-- `m_next_index.fetch_add(1)`. -/
def fetchAdd (s : HandOut T) (t : T) : HandOut T :=
  { s.setStage t (.fetched s.calls.length s.pool.nextIndex) with
    pool := { s.pool with nextIndex := (s.pool.nextIndex + 1) % 2 ^ sizeBits }
    calls := s.calls ++ [⟨t, none⟩] }

/-- `return m_loops[index % m_loops.size()]`. -/
def ret (s : HandOut T) (t : T) (call index : Nat) : HandOut T :=
  { s.setStage t .idle with
    calls := s.calls.modify call fun c =>
      { c with result := s.pool.loops[index % s.pool.loops.length]? } }

def step (s : HandOut T) : HandOutLabel T → Option (HandOut T)
  | .test t => if s.stage t = .idle then some (s.test t) else none
  | .fetchAdd t => if s.stage t = .tested then some (s.fetchAdd t) else none
  | .ret t =>
      match s.stage t with
      | .fetched call index => some (s.ret t call index)
      | _ => none
  | .start failed => some { s with pool := s.pool.start failed }

omit [DecidableEq T] in
theorem modify_append_last (calls : List (NextCall T)) (last : NextCall T)
    (f : NextCall T → NextCall T) :
    (calls ++ [last]).modify calls.length f = calls ++ [f last] := by
  induction calls with
  | nil => rfl
  | cons first calls ih => simp [ih]

/-- The steps of one call, with nobody in between, are `GetNextLoop`. -/
theorem exec_solo {s : HandOut T} {t : T} (hIdle : s.stage t = .idle)
    (hStarted : s.pool.started = true) (hLoops : s.pool.loops ≠ []) :
    ∃ after, Lib.exec step s [.test t, .fetchAdd t, .ret t] = some after ∧
      after.pool = s.pool.getNextLoop.1 ∧
      after.calls = s.calls ++ [⟨t, s.pool.getNextLoop.2⟩] := by
  have hTest : s.test t = s.setStage t .tested := by
    simp [test, hStarted, hLoops]
  refine ⟨((s.setStage t .tested).fetchAdd t).ret t s.calls.length s.pool.nextIndex, ?_, ?_, ?_⟩
  · simp [step, hIdle, hTest, setStage, fetchAdd]
  · simp [ret, fetchAdd, setStage, getNextLoop, hStarted, hLoops]
  · simp [ret, fetchAdd, setStage, getNextLoop, hStarted, hLoops, modify_append_last]

end Machine

section Fairness

variable {T : Type} {loops : List LoopId}

/-- The pool stays started with the same loops, the counter and the numbers in
hand are the numbers of the increments, and a call that has returned got the loop
at its number. -/
structure InTurn (loops : List LoopId) (s : HandOut T) : Prop where
  started : s.pool.started = true
  sameLoops : s.pool.loops = loops
  nextIndex : s.pool.nextIndex = s.calls.length % 2 ^ sizeBits
  inHand : ∀ t call index, s.stage t = .fetched call index → index = call % 2 ^ sizeBits
  results : ∀ k loop, (s.calls[k]?).bind NextCall.result = some loop →
    loops[k % 2 ^ sizeBits % loops.length]? = some loop
  refused : s.refused = []

theorem inTurn_new {pool : EventLoopThreadPool} (hStarted : pool.started = true)
    (hIndex : pool.nextIndex = 0) : InTurn pool.loops (new T pool) where
  started := hStarted
  sameLoops := rfl
  nextIndex := by simpa [new] using hIndex
  inHand := by simp [new]
  results := by simp [new]
  refused := rfl

variable [DecidableEq T]

theorem InTurn.test {s : HandOut T} (hLoops : loops ≠ []) (hInv : InTurn loops s) (t : T) :
    InTurn loops (s.test t) := by
  have hTest : s.test t = s.setStage t .tested := by
    simp [HandOut.test, hInv.started, hInv.sameLoops, hLoops]
  rw [hTest]
  refine ⟨hInv.started, hInv.sameLoops, hInv.nextIndex, ?_, hInv.results, hInv.refused⟩
  intro other call index hStage
  by_cases hEq : other = t
  · simp [setStage, hEq] at hStage
  · simp only [setStage, Function.update_of_ne hEq] at hStage
    exact hInv.inHand other call index hStage

theorem InTurn.fetchAdd {s : HandOut T} (hInv : InTurn loops s) (t : T) :
    InTurn loops (s.fetchAdd t) := by
  constructor
  case started => exact hInv.started
  case sameLoops => exact hInv.sameLoops
  case refused => exact hInv.refused
  case nextIndex =>
    simp only [HandOut.fetchAdd, hInv.nextIndex, List.length_append, List.length_singleton]
    rw [Nat.mod_add_mod]
  case inHand =>
    intro other call index hStage
    by_cases hEq : other = t
    · subst hEq
      simp only [HandOut.fetchAdd, setStage, Function.update_self, NextStage.fetched.injEq]
        at hStage
      obtain ⟨rfl, rfl⟩ := hStage
      exact hInv.nextIndex
    · simp only [HandOut.fetchAdd, setStage, Function.update_of_ne hEq] at hStage
      exact hInv.inHand other call index hStage
  case results =>
    intro k loop hResult
    simp only [HandOut.fetchAdd] at hResult
    refine hInv.results k loop ?_
    by_cases hK : k < s.calls.length
    · rwa [List.getElem?_append_left hK] at hResult
    · rw [List.getElem?_append_right (not_lt.mp hK)] at hResult
      cases hRest : k - s.calls.length with
      | zero => simp [hRest] at hResult
      | succ rest => simp [hRest] at hResult

theorem InTurn.ret {s : HandOut T} (hInv : InTurn loops s) {t : T} {call index : Nat}
    (hStage : s.stage t = .fetched call index) : InTurn loops (s.ret t call index) := by
  constructor
  case started => exact hInv.started
  case sameLoops => exact hInv.sameLoops
  case refused => exact hInv.refused
  case nextIndex =>
    rw [HandOut.ret, List.length_modify]
    exact hInv.nextIndex
  case inHand =>
    intro other call' index' hOther
    by_cases hEq : other = t
    · simp [HandOut.ret, setStage, hEq] at hOther
    · simp only [HandOut.ret, setStage, Function.update_of_ne hEq] at hOther
      exact hInv.inHand other call' index' hOther
  case results =>
    intro k loop hResult
    simp only [HandOut.ret, List.getElem?_modify] at hResult
    by_cases hK : call = k
    · subst hK
      -- the value that is stored now, whatever the call had before
      obtain ⟨c, hCall, hLoop⟩ := Option.bind_eq_some_iff.mp hResult
      obtain ⟨before, -, rfl⟩ := Option.map_eq_some_iff.mp hCall
      rw [if_pos rfl] at hLoop
      rw [← hInv.inHand t call index hStage, ← hInv.sameLoops]
      exact hLoop
    · simp only [if_neg hK, id_map'] at hResult
      exact hInv.results k loop hResult

theorem inTurn_step (hLoops : loops ≠ []) (s : HandOut T) (label : HandOutLabel T)
    (next : HandOut T) (hInv : InTurn loops s) (hStep : step s label = some next) :
    InTurn loops next := by
  cases label with
  | test t =>
      obtain ⟨-, hNext⟩ := Option.ite_none_right_eq_some.mp hStep
      rw [← Option.some.inj hNext]
      exact hInv.test hLoops t
  | fetchAdd t =>
      obtain ⟨-, hNext⟩ := Option.ite_none_right_eq_some.mp hStep
      rw [← Option.some.inj hNext]
      exact hInv.fetchAdd t
  | ret t =>
      simp only [step] at hStep
      split at hStep
      case h_1 call index hStage =>
        rw [← Option.some.inj hStep]
        exact hInv.ret hStage
      case h_2 => cases hStep
  | start failed =>
      simp only [step, start_of_started hInv.started, Option.some.injEq] at hStep
      exact hStep ▸ hInv

omit [DecidableEq T] in
/-- The loops that consecutive increments got, once their calls have returned. -/
theorem InTurn.window {s : HandOut T} (hInv : InTurn loops s)
    (hCalls : s.calls.length < 2 ^ sizeBits) {start : Nat} {answers : List LoopId}
    (hAnswers : ((s.calls.drop start).take answers.length).map NextCall.result =
      answers.map some) :
    ∀ k, k < answers.length → answers[k]? = loops[(start + k) % loops.length]? := by
  intro k hK
  have hAt : (s.calls[start + k]?).bind NextCall.result = answers[k]? := by
    have hEntry := congrArg (fun l => l[k]?) hAnswers
    simp only [List.getElem?_map, List.getElem?_take_of_lt hK, List.getElem?_drop] at hEntry
    rw [List.getElem?_eq_getElem hK] at hEntry ⊢
    obtain ⟨c, hCall, hResult⟩ := Option.map_eq_some_iff.mp hEntry
    rw [hCall]
    exact hResult
  have hLt : start + k < s.calls.length := by
    by_contra hGe
    rw [List.getElem?_eq_none (not_lt.mp hGe), List.getElem?_eq_getElem hK] at hAt
    simp at hAt
  rw [List.getElem?_eq_getElem hK] at hAt ⊢
  have hLoop := hInv.results (start + k) _ hAt
  rw [Nat.mod_eq_of_lt (hLt.trans hCalls)] at hLoop
  exact hLoop.symm

end Fairness

/-- Whatever the threads do, the calls get the loops in turn, in the order of their
increments: in a window of `m` of them each of the `n` loops occurs `⌊m / n⌋` or
`⌈m / n⌉` times, and `n` of them get `n` different loops. -/
theorem getNextLoop_fair {T : Type} [DecidableEq T] (threadCount : Nat) (name : String)
    (ops : List PoolOp) (failed : Finset Nat) (pool : EventLoopThreadPool)
    (hStopped : ((EventLoopThreadPool.new threadCount name).run ops).isRunning = false)
    (hPool : pool = ((EventLoopThreadPool.new threadCount name).run ops).start failed)
    (hLoops : 1 ≤ pool.loops.length) (labels : List (HandOutLabel T)) (s : HandOut T)
    (hRun : Lib.exec step (new T pool) labels = some s) (hCalls : s.calls.length < 2 ^ 64) :
    s.refused = [] ∧
    ∀ (start : Nat) (answers : List LoopId),
      ((s.calls.drop start).take answers.length).map NextCall.result = answers.map some →
      (∀ loop ∈ pool.loops,
        answers.count loop = answers.length / pool.loops.length ∨
          answers.count loop = (answers.length + pool.loops.length - 1) / pool.loops.length) ∧
      (answers.length = pool.loops.length →
        answers.Nodup ∧ ∀ loop ∈ answers, loop ∈ pool.loops) := by
  obtain ⟨hStarted, hIndex, hNodup, -, -⟩ := start_spec hStopped failed
  rw [← hPool] at hStarted hIndex hNodup
  have hNonempty : pool.loops ≠ [] := List.ne_nil_of_length_pos hLoops
  have hInv : InTurn pool.loops s :=
    Lib.exec_invariant (InTurn pool.loops) (inTurn_step hNonempty)
      (inTurn_new hStarted hIndex) hRun
  refine ⟨hInv.refused, fun start answers hAnswers => ?_⟩
  have hWindow := hInv.window hCalls hAnswers
  exact ⟨fun loop hLoop => Lib.count_window hNodup hLoop hWindow, fun hLength =>
    ⟨Lib.nodup_window hNodup hLength hWindow, fun loop => Lib.mem_of_mem_window hWindow⟩⟩

/-- Two threads, the second of which takes its number first. -/
def overtaken : List (HandOutLabel Bool) :=
  [.test true, .test false, .fetchAdd false, .fetchAdd true, .ret true, .ret false,
    .test true, .fetchAdd true, .ret true]

theorem getNextLoop_fair_overtaken :
    ∃ s, Lib.exec step (new Bool ((EventLoopThreadPool.new 2 "io").start ∅)) overtaken = some s ∧
      s.calls = [⟨false, some 0⟩, ⟨true, some 1⟩, ⟨true, some 0⟩] ∧
      s.refused = [] ∧ [1, 0].Nodup := by
  obtain ⟨s, hRun, hResults⟩ : ∃ s,
      Lib.exec step (new Bool ((EventLoopThreadPool.new 2 "io").start ∅)) overtaken = some s ∧
      s.calls = [⟨false, some 0⟩, ⟨true, some 1⟩, ⟨true, some 0⟩] := ⟨_, rfl, by decide⟩
  obtain ⟨hRefused, hFair⟩ := getNextLoop_fair 2 "io" [] ∅ _ rfl rfl (by decide) overtaken s hRun
    (by rw [hResults]; decide)
  obtain ⟨-, hDistinct⟩ := hFair 1 [1, 0] (by rw [hResults]; decide)
  exact ⟨s, hRun, hResults, hRefused, (hDistinct (by decide)).1⟩

end HandOut

end SolarNet
