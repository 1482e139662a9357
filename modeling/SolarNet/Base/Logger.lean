import SolarNet.Lib.Mutex
import SolarNet.Lib.Run
import Mathlib.Data.List.Sublists
import Mathlib.Logic.Function.Basic

/-!
# `Logger`

`solar_net/base/logger.cpp` and the `LOG_` macros of `logger.h`, as an interleaving of any
number of calls.  A step is a load or a store of `m_level`, an operation on the mutex, or
what a call does to one appender under the mutex.  The macros test the level before they
call `Log`, which tests it again.

`Format`, `Append` and `Flush` may throw, and so may `push_back`.  The exception leaves the
call and the lock is released; the appenders behind the one that threw are not reached.

An appender is named by the call of `AddAppender` that brings it, the console appender of
the constructor by `none`.  The formatter is a function from events to lines.
-/

namespace SolarNet

open Lib

inductive LogLevel where
  | kTrace
  | kDebug
  | kInfo
  | kWarn
  | kError
  | kFatal
  | kOff
  deriving DecidableEq, Repr

namespace LogLevel

def value : LogLevel → Nat
  | .kTrace => 0
  | .kDebug => 1
  | .kInfo => 2
  | .kWarn => 3
  | .kError => 4
  | .kFatal => 5
  | .kOff => 6

/-- `IsLevelEnabled`, when the load of `m_level` gives `current`. -/
def isEnabled (level current : LogLevel) : Bool :=
  decide (current.value ≤ level.value) && level != .kOff

end LogLevel

/-- What a call does under the mutex. -/
inductive LoggerOp (ε : Type*) where
  | log (event : ε)
  | setFormatter (formatter : ε → String)
  | addAppender
  | clearAppenders
  | flush

/-- A call as it is made.  `SetFormatter` and `AddAppender` of a null pointer return at
once. -/
inductive LoggerCall (ε : Type*) where
  | log (level : LogLevel) (event : ε) (viaMacro : Bool)
  | locked (op : LoggerOp ε)
  | null

/-- The formatter and the appenders, with the lines that each appender has received and
how many of them it has flushed. -/
structure LogSinks (ε κ : Type*) where
  formatter : ε → String
  appenders : List (Option κ)
  lines : Option κ → List String
  flushed : Option κ → Nat

/-- A critical section that is over: whose it was, and how many appenders it reached.  For
`AddAppender`, 0 means that `push_back` threw. -/
structure LogTurn (ε κ : Type*) where
  call : κ
  op : LoggerOp ε
  reached : Nat

namespace LogSinks

variable {ε κ : Type*}

/-- After the constructor of `Logger`. -/
def new (defaultFormatter : ε → String) : LogSinks ε κ where
  formatter := defaultFormatter
  appenders := [none]
  lines _ := []
  flushed _ := 0

variable [DecidableEq κ]

/-- `Append` of one appender. -/
def append (s : LogSinks ε κ) (line : String) (appender : Option κ) : LogSinks ε κ :=
  { s with lines := Function.update s.lines appender (s.lines appender ++ [line]) }

/-- `Flush` of one appender. -/
def flush (s : LogSinks ε κ) (appender : Option κ) : LogSinks ε κ :=
  { s with flushed := Function.update s.flushed appender (s.lines appender).length }

/-- A whole critical section at once. -/
def turn (s : LogSinks ε κ) (t : LogTurn ε κ) : LogSinks ε κ :=
  match t.op with
  | .log event =>
      (s.appenders.take t.reached).foldl (fun sinks a => sinks.append (s.formatter event) a) s
  | .setFormatter formatter => { s with formatter := formatter }
  | .addAppender =>
      if t.reached = 0 then s else { s with appenders := s.appenders ++ [some t.call] }
  | .clearAppenders => { s with appenders := [] }
  | .flush => (s.appenders.take t.reached).foldl flush s

/-- Critical sections one after another. -/
def replay (s : LogSinks ε κ) (turns : List (LogTurn ε κ)) : LogSinks ε κ := turns.foldl turn s

/-- The lines of these critical sections, in order. -/
def written : LogSinks ε κ → List (LogTurn ε κ) → List String
  | _, [] => []
  | s, t :: turns =>
      match t.op with
      | .log event => s.formatter event :: written (s.turn t) turns
      | _ => written (s.turn t) turns

end LogSinks

/-- Where a call is. -/
inductive LoggerPc (ε κ : Type*) where
  | idle
  /-- Before this many loads of `m_level`. -/
  | testing (level : LogLevel) (event : ε) (loads : Nat)
  | wantsLock (op : LoggerOp ε)
  /-- With the lock, before the first statement. -/
  | holding (op : LoggerOp ε)
  /-- In the loop of `Log`, with the appenders that are left. -/
  | appending (event : ε) (line : String) (reached : Nat) (rest : List (Option κ))
  | flushing (reached : Nat) (rest : List (Option κ))
  | returned

def LoggerPc.holds {ε κ : Type*} : LoggerPc ε κ → Bool
  | .holding _ | .appending _ _ _ _ | .flushing _ _ => true
  | _ => false

/-- The logger, where each call is, and the critical sections that are over. -/
structure Logger (ε κ : Type*) where
  level : LogLevel
  mutex : Option κ
  sinks : LogSinks ε κ
  pc : κ → LoggerPc ε κ
  turns : List (LogTurn ε κ)

inductive LoggerLabel (ε κ : Type*) where
  | setLevel (level : LogLevel)
  | enter (call : κ) (request : LoggerCall ε)
  | load (call : κ)
  | lock (call : κ)
  /-- The next statement under the lock. -/
  | act (call : κ)
  /-- The statement throws. -/
  | throw (call : κ)

namespace Logger

variable {ε κ : Type*}

/-- The constructor. -/
def new (defaultFormatter : ε → String) : Logger ε κ where
  level := .kInfo
  mutex := none
  sinks := LogSinks.new defaultFormatter
  pc _ := .idle
  turns := []

variable [DecidableEq κ]

def setPc (w : Logger ε κ) (call : κ) (pc : LoggerPc ε κ) : Logger ε κ :=
  { w with pc := Function.update w.pc call pc }

/-- The lock guard is destroyed and the call returns or throws. -/
def release (w : Logger ε κ) (t : LogTurn ε κ) : Logger ε κ :=
  { w.setPc t.call .returned with mutex := none, turns := w.turns ++ [t] }

def start : LoggerCall ε → LoggerPc ε κ
  | .log level event viaMacro => .testing level event (if viaMacro then 2 else 1)
  | .locked op => .wantsLock op
  | .null => .returned

/-- A load of `m_level` and what follows it. -/
def tested (w : Logger ε κ) (level : LogLevel) (event : ε) (loads : Nat) : LoggerPc ε κ :=
  if level.isEnabled w.level then
    if loads = 0 then .wantsLock (.log event) else .testing level event loads
  else .returned

def act (w : Logger ε κ) (call : κ) : Option (Logger ε κ) :=
  match w.pc call with
  | .holding (.log event) =>
      some (w.setPc call (.appending event (w.sinks.formatter event) 0 w.sinks.appenders))
  | .holding (.setFormatter formatter) =>
      some ({ w with sinks := { w.sinks with formatter := formatter } }.release
        ⟨call, .setFormatter formatter, 0⟩)
  | .holding .addAppender =>
      some ({ w with
        sinks := { w.sinks with appenders := w.sinks.appenders ++ [some call] } }.release
        ⟨call, .addAppender, 1⟩)
  | .holding .clearAppenders =>
      some ({ w with sinks := { w.sinks with appenders := [] } }.release
        ⟨call, .clearAppenders, 0⟩)
  | .holding .flush => some (w.setPc call (.flushing 0 w.sinks.appenders))
  | .appending event line reached (appender :: rest) =>
      some ({ w with sinks := w.sinks.append line appender }.setPc call
        (.appending event line (reached + 1) rest))
  | .appending event _ reached [] => some (w.release ⟨call, .log event, reached⟩)
  | .flushing reached (appender :: rest) =>
      some ({ w with sinks := w.sinks.flush appender }.setPc call (.flushing (reached + 1) rest))
  | .flushing reached [] => some (w.release ⟨call, .flush, reached⟩)
  | _ => none

def throw (w : Logger ε κ) (call : κ) : Option (Logger ε κ) :=
  match w.pc call with
  | .holding (.log event) => some (w.release ⟨call, .log event, 0⟩)
  | .holding .addAppender => some (w.release ⟨call, .addAppender, 0⟩)
  | .appending event _ reached (_ :: _) => some (w.release ⟨call, .log event, reached⟩)
  | .flushing reached (_ :: _) => some (w.release ⟨call, .flush, reached⟩)
  | _ => none

def step (w : Logger ε κ) : LoggerLabel ε κ → Option (Logger ε κ)
  | .setLevel level => some { w with level := level }
  | .enter call request =>
      match w.pc call with
      | .idle => some (w.setPc call (start request))
      | _ => none
  | .load call =>
      match w.pc call with
      | .testing level event (loads + 1) => some (w.setPc call (w.tested level event loads))
      | _ => none
  | .lock call =>
      match w.pc call, w.mutex with
      | .wantsLock op, none => some { w.setPc call (.holding op) with mutex := some call }
      | _, _ => none
  | .act call => w.act call
  | .throw call => w.throw call

end Logger

/-! ## Critical sections -/

namespace LogSinks

variable {ε κ : Type*} [DecidableEq κ]

theorem replay_concat (s : LogSinks ε κ) (turns : List (LogTurn ε κ)) (t : LogTurn ε κ) :
    s.replay (turns ++ [t]) = (s.replay turns).turn t := by
  simp [replay]

/-- The next appender of a critical section. -/
theorem take_succ_of_drop {α : Type*} {l rest : List α} {a : α} {k : Nat}
    (hRest : a :: rest = l.drop k) : l.take (k + 1) = l.take k ++ [a] ∧ rest = l.drop (k + 1) := by
  have hAt : l[k]? = some a := by rw [← List.head?_drop, ← hRest, List.head?_cons]
  have hTail : rest = l.drop (k + 1) := by rw [← List.tail_drop, ← hRest, List.tail_cons]
  exact ⟨by rw [List.take_add_one, hAt]; rfl, hTail⟩

theorem turn_log_succ {s : LogSinks ε κ} {appender : Option κ} {rest : List (Option κ)} {k : Nat}
    (hRest : appender :: rest = s.appenders.drop k) (call : κ) (event : ε) :
    (s.turn ⟨call, .log event, k⟩).append (s.formatter event) appender =
      s.turn ⟨call, .log event, k + 1⟩ := by
  simp only [turn, (take_succ_of_drop hRest).1, List.foldl_append, List.foldl_cons, List.foldl_nil]

theorem turn_flush_succ {s : LogSinks ε κ} {appender : Option κ} {rest : List (Option κ)} {k : Nat}
    (hRest : appender :: rest = s.appenders.drop k) (call : κ) :
    (s.turn ⟨call, .flush, k⟩).flush appender = s.turn ⟨call, .flush, k + 1⟩ := by
  simp only [turn, (take_succ_of_drop hRest).1, List.foldl_append, List.foldl_cons, List.foldl_nil]

end LogSinks

namespace Logger

variable {ε κ : Type*} [DecidableEq κ]

/-- How far the owner of the mutex has come, when the critical sections before gave
`base`. -/
def InProgress (base sinks : LogSinks ε κ) (call : κ) : LoggerPc ε κ → Prop
  | .holding _ => sinks = base
  | .appending event line reached rest =>
      line = base.formatter event ∧ rest = base.appenders.drop reached ∧
        sinks = base.turn ⟨call, .log event, reached⟩
  | .flushing reached rest =>
      rest = base.appenders.drop reached ∧ sinks = base.turn ⟨call, .flush, reached⟩
  | _ => False

theorem InProgress.holds {base sinks : LogSinks ε κ} {call : κ} {pc : LoggerPc ε κ}
    (hProgress : InProgress base sinks call pc) : pc.holds = true := by
  cases pc <;> first | rfl | exact hProgress.elim

/-- The critical sections have had their effect one after another, and the owner of the
mutex has come to where it is. -/
structure Serial (init : LogSinks ε κ) (w : Logger ε κ) : Prop where
  exclusive : Exclusive w.mutex fun call => (w.pc call).holds = true
  free : w.mutex = none → w.sinks = init.replay w.turns
  held : ∀ call, w.mutex = some call →
    InProgress (init.replay w.turns) w.sinks call (w.pc call)
  returned : ∀ t ∈ w.turns, w.pc t.call = .returned
  nodup : (w.turns.map LogTurn.call).Nodup

variable {init : LogSinks ε κ} {w w' : Logger ε κ}

theorem new_serial (defaultFormatter : ε → String) :
    Serial (LogSinks.new defaultFormatter) (new defaultFormatter : Logger ε κ) where
  exclusive call hHolds := by cases hHolds
  free _ := rfl
  held call hMutex := by cases hMutex
  returned := by simp [new]
  nodup := by simp [new]

theorem setPc_pc (w : Logger ε κ) (call other : κ) (pc : LoggerPc ε κ) :
    (w.setPc call pc).pc other = if other = call then pc else w.pc other := by
  simp [setPc, Function.update_apply]

/-- A call that has not returned is none of those whose critical section is over. -/
theorem Serial.not_over (hSerial : Serial init w) {call : κ} (hPc : w.pc call ≠ .returned) :
    ∀ t ∈ w.turns, t.call ≠ call := by
  rintro t hMem rfl
  exact hPc (hSerial.returned t hMem)

/-- A step of a call outside the critical section. -/
theorem Serial.outside (hSerial : Serial init w) {call : κ} {pc : LoggerPc ε κ}
    (hOld : (w.pc call).holds = false) (hPc : w.pc call ≠ .returned) (hNew : pc.holds = false) :
    Serial init (w.setPc call pc) := by
  constructor
  case exclusive =>
    refine hSerial.exclusive.keep fun other hHolds => ?_
    rw [setPc_pc] at hHolds
    split at hHolds
    · simp [hNew] at hHolds
    · exact hHolds
  case free => exact hSerial.free
  case held =>
    intro owner hMutex
    have hProgress := hSerial.held owner hMutex
    have hOther : owner ≠ call := by
      rintro rfl
      simp [hProgress.holds] at hOld
    rw [setPc_pc, if_neg hOther]
    exact hProgress
  case returned =>
    intro t hMem
    rw [setPc_pc, if_neg (hSerial.not_over hPc t hMem)]
    exact hSerial.returned t hMem
  case nodup => exact hSerial.nodup

theorem Serial.lock (hSerial : Serial init w) {call : κ} {op : LoggerOp ε}
    (hPc : w.pc call = .wantsLock op) (hFree : w.mutex = none) :
    Serial init { w.setPc call (.holding op) with mutex := some call } := by
  constructor
  case exclusive =>
    refine hSerial.exclusive.acquire hFree fun other hHolds => ?_
    rw [setPc_pc] at hHolds
    split at hHolds
    · next hSame => exact Or.inl hSame
    · exact Or.inr hHolds
  case free => exact fun hNone => by cases hNone
  case held =>
    intro owner hMutex
    obtain rfl := Option.some.inj hMutex
    show InProgress (init.replay w.turns) w.sinks call ((w.setPc call (.holding op)).pc call)
    rw [setPc_pc, if_pos rfl]
    exact hSerial.free hFree
  case returned =>
    intro t hMem
    show (w.setPc call (.holding op)).pc t.call = .returned
    rw [setPc_pc, if_neg (hSerial.not_over (by simp [hPc]) t hMem)]
    exact hSerial.returned t hMem
  case nodup => exact hSerial.nodup

/-- A step of the owner that keeps the mutex. -/
theorem Serial.inside (hSerial : Serial init w) {call : κ} {pc : LoggerPc ε κ}
    {sinks : LogSinks ε κ} (hHolds : (w.pc call).holds = true)
    (hProgress : InProgress (init.replay w.turns) sinks call pc) :
    Serial init ({ w with sinks := sinks }.setPc call pc) := by
  have hMutex : w.mutex = some call := hSerial.exclusive call hHolds
  have hPc : w.pc call ≠ .returned := by
    intro hReturned
    simp [hReturned, LoggerPc.holds] at hHolds
  constructor
  case exclusive =>
    refine hSerial.exclusive.keep fun other hOther => ?_
    rw [setPc_pc] at hOther
    split at hOther
    · next hSame =>
      rw [hSame]
      exact hHolds
    · exact hOther
  case free => exact fun hNone => absurd (hMutex.symm.trans hNone) (by simp)
  case held =>
    intro owner hOwner
    obtain rfl : call = owner := Option.some.inj (hMutex.symm.trans hOwner)
    rw [setPc_pc, if_pos rfl]
    exact hProgress
  case returned =>
    intro t hMem
    rw [setPc_pc, if_neg (hSerial.not_over hPc t hMem)]
    exact hSerial.returned t hMem
  case nodup => exact hSerial.nodup

/-- The owner leaves its critical section. -/
theorem Serial.release (hSerial : Serial init w) {call : κ} {op : LoggerOp ε} {reached : Nat}
    {sinks : LogSinks ε κ} (hHolds : (w.pc call).holds = true)
    (hSinks : sinks = (init.replay w.turns).turn ⟨call, op, reached⟩) :
    Serial init ({ w with sinks := sinks }.release ⟨call, op, reached⟩) := by
  have hPc : w.pc call ≠ .returned := by
    intro hReturned
    simp [hReturned, LoggerPc.holds] at hHolds
  constructor
  case exclusive =>
    refine hSerial.exclusive.release hHolds fun other hOther => ?_
    change (((w.setPc call .returned).pc other).holds = true) at hOther
    rw [setPc_pc] at hOther
    split at hOther
    · cases hOther
    · next hNe => exact ⟨hNe, hOther⟩
  case free =>
    intro _
    show sinks = init.replay (w.turns ++ [⟨call, op, reached⟩])
    rw [LogSinks.replay_concat, hSinks]
  case held => exact fun owner hOwner => by cases hOwner
  case returned =>
    intro t hMem
    show (w.setPc call .returned).pc t.call = .returned
    rw [setPc_pc]
    split
    · rfl
    · next hNe =>
      rcases List.mem_append.mp hMem with hOld | hLast
      · exact hSerial.returned t hOld
      · obtain rfl := List.mem_singleton.mp hLast
        exact absurd rfl hNe
  case nodup =>
    show ((w.turns ++ [(⟨call, op, reached⟩ : LogTurn ε κ)]).map LogTurn.call).Nodup
    rw [List.map_append, List.map_singleton, ← List.concat_eq_append]
    refine hSerial.nodup.concat fun hMem => ?_
    obtain ⟨t, hT, hCall⟩ := List.mem_map.mp hMem
    exact hSerial.not_over hPc t hT hCall

/-- How far a call in its critical section has come. -/
theorem Serial.progress (hSerial : Serial init w) {call : κ} {pc : LoggerPc ε κ}
    (hPc : w.pc call = pc) (hHolds : pc.holds = true) :
    (w.pc call).holds = true ∧ InProgress (init.replay w.turns) w.sinks call pc := by
  subst hPc
  exact ⟨hHolds, hSerial.held call (hSerial.exclusive call hHolds)⟩

theorem act_serial {call : κ} (hSerial : Serial init w) (hStep : w.act call = some w') :
    Serial init w' := by
  unfold act at hStep
  split at hStep
  case h_1 event hPc =>
    obtain rfl := Option.some.inj hStep
    obtain ⟨hHolds, (hSame : w.sinks = init.replay w.turns)⟩ := hSerial.progress hPc rfl
    refine hSerial.inside hHolds ⟨by rw [hSame], ?_, hSame⟩
    rw [hSame, List.drop_zero]
  case h_2 formatter hPc =>
    obtain rfl := Option.some.inj hStep
    obtain ⟨hHolds, (hSame : w.sinks = init.replay w.turns)⟩ := hSerial.progress hPc rfl
    exact hSerial.release hHolds (by rw [hSame]; rfl)
  case h_3 hPc =>
    obtain rfl := Option.some.inj hStep
    obtain ⟨hHolds, (hSame : w.sinks = init.replay w.turns)⟩ := hSerial.progress hPc rfl
    exact hSerial.release hHolds (by rw [hSame]; rfl)
  case h_4 hPc =>
    obtain rfl := Option.some.inj hStep
    obtain ⟨hHolds, (hSame : w.sinks = init.replay w.turns)⟩ := hSerial.progress hPc rfl
    exact hSerial.release hHolds (by rw [hSame]; rfl)
  case h_5 hPc =>
    obtain rfl := Option.some.inj hStep
    obtain ⟨hHolds, (hSame : w.sinks = init.replay w.turns)⟩ := hSerial.progress hPc rfl
    refine hSerial.inside hHolds ⟨?_, hSame⟩
    rw [hSame, List.drop_zero]
  case h_6 event line reached appender rest hPc =>
    obtain rfl := Option.some.inj hStep
    obtain ⟨hHolds, rfl, hRest, hSinks⟩ := hSerial.progress hPc rfl
    refine hSerial.inside hHolds ⟨rfl, (LogSinks.take_succ_of_drop hRest).2, ?_⟩
    rw [hSinks, LogSinks.turn_log_succ hRest]
  case h_7 event line reached hPc =>
    obtain rfl := Option.some.inj hStep
    obtain ⟨hHolds, -, -, hSinks⟩ := hSerial.progress hPc rfl
    exact hSerial.release hHolds hSinks
  case h_8 reached appender rest hPc =>
    obtain rfl := Option.some.inj hStep
    obtain ⟨hHolds, hRest, hSinks⟩ := hSerial.progress hPc rfl
    refine hSerial.inside hHolds ⟨(LogSinks.take_succ_of_drop hRest).2, ?_⟩
    rw [hSinks, LogSinks.turn_flush_succ hRest]
  case h_9 reached hPc =>
    obtain rfl := Option.some.inj hStep
    obtain ⟨hHolds, -, hSinks⟩ := hSerial.progress hPc rfl
    exact hSerial.release hHolds hSinks
  case h_10 => cases hStep

/-- An exception ends a critical section where it is. -/
theorem throw_serial {call : κ} (hSerial : Serial init w) (hStep : w.throw call = some w') :
    Serial init w' := by
  unfold throw at hStep
  split at hStep
  case h_1 event hPc =>
    obtain rfl := Option.some.inj hStep
    obtain ⟨hHolds, (hSame : w.sinks = init.replay w.turns)⟩ := hSerial.progress hPc rfl
    exact hSerial.release hHolds (by rw [hSame]; rfl)
  case h_2 hPc =>
    obtain rfl := Option.some.inj hStep
    obtain ⟨hHolds, (hSame : w.sinks = init.replay w.turns)⟩ := hSerial.progress hPc rfl
    exact hSerial.release hHolds (by rw [hSame]; rfl)
  case h_3 event line reached appender rest hPc =>
    obtain rfl := Option.some.inj hStep
    obtain ⟨hHolds, -, -, hSinks⟩ := hSerial.progress hPc rfl
    exact hSerial.release hHolds hSinks
  case h_4 reached appender rest hPc =>
    obtain rfl := Option.some.inj hStep
    obtain ⟨hHolds, -, hSinks⟩ := hSerial.progress hPc rfl
    exact hSerial.release hHolds hSinks
  case h_5 => cases hStep

theorem step_serial {label : LoggerLabel ε κ} (hSerial : Serial init w)
    (hStep : step w label = some w') : Serial init w' := by
  cases label with
  | setLevel level =>
      obtain rfl := Option.some.inj hStep
      exact { hSerial with }
  | enter call request =>
      simp only [step] at hStep
      split at hStep
      case h_2 => cases hStep
      case h_1 hPc =>
        obtain rfl := Option.some.inj hStep
        refine hSerial.outside (by rw [hPc]; rfl) (by simp [hPc]) ?_
        cases request <;> rfl
  | load call =>
      simp only [step] at hStep
      split at hStep
      case h_2 => cases hStep
      case h_1 level event loads hPc =>
        obtain rfl := Option.some.inj hStep
        refine hSerial.outside (by rw [hPc]; rfl) (by simp [hPc]) ?_
        unfold tested
        split
        · split <;> rfl
        · rfl
  | lock call =>
      simp only [step] at hStep
      split at hStep
      case h_2 => cases hStep
      case h_1 op hPc hFree =>
        obtain rfl := Option.some.inj hStep
        exact hSerial.lock hPc hFree
  | act call => exact act_serial hSerial hStep
  | throw call => exact throw_serial hSerial hStep

theorem exec_serial {labels : List (LoggerLabel ε κ)} (hSerial : Serial init w)
    (hRun : exec step w labels = some w') : Serial init w' :=
  exec_invariant (Serial init) (fun _ _ _ hInv hStep => step_serial hInv hStep) hSerial hRun

/-! ## One common order -/

end Logger

namespace LogSinks

variable {ε κ : Type*} [DecidableEq κ] {s : LogSinks ε κ}

/-- The appenders are different, and each is the console appender or was added. -/
structure Distinct (s : LogSinks ε κ) (turns : List (LogTurn ε κ)) : Prop where
  nodup : s.appenders.Nodup
  added : ∀ call, some call ∈ s.appenders → call ∈ turns.map LogTurn.call

theorem foldl_append_appenders (line : String) (reached : List (Option κ)) (s : LogSinks ε κ) :
    (reached.foldl (fun sinks a => sinks.append line a) s).appenders = s.appenders ∧
      (reached.foldl (fun sinks a => sinks.append line a) s).formatter = s.formatter := by
  induction reached generalizing s with
  | nil => exact ⟨rfl, rfl⟩
  | cons a reached ih => exact ih (s.append line a)

theorem foldl_flush_frame (reached : List (Option κ)) (s : LogSinks ε κ) :
    (reached.foldl flush s).appenders = s.appenders ∧ (reached.foldl flush s).lines = s.lines := by
  induction reached generalizing s with
  | nil => exact ⟨rfl, rfl⟩
  | cons a reached ih => exact ih (s.flush a)

/-- One line for each appender that was reached. -/
theorem foldl_append_lines {reached : List (Option κ)} (hNodup : reached.Nodup) (line : String)
    (s : LogSinks ε κ) (a : Option κ) :
    (reached.foldl (fun sinks a => sinks.append line a) s).lines a =
      s.lines a ++ if a ∈ reached then [line] else [] := by
  induction reached generalizing s with
  | nil => simp
  | cons head reached ih =>
      obtain ⟨hHead, hRest⟩ := List.nodup_cons.mp hNodup
      have hLines := ih hRest (s.append line head)
      simp only [List.foldl_cons]
      rw [hLines]
      by_cases hEq : a = head
      · subst hEq
        simp [append, hHead]
      · simp [append, hEq]

theorem Distinct.turn {turns : List (LogTurn ε κ)} (hDistinct : s.Distinct turns)
    {t : LogTurn ε κ} (hNew : t.call ∉ turns.map LogTurn.call) :
    (s.turn t).Distinct (turns ++ [t]) := by
  have hMore : ∀ call, some call ∈ s.appenders → call ∈ (turns ++ [t]).map LogTurn.call := by
    intro call hMem
    rw [List.map_append]
    exact List.mem_append_left _ (hDistinct.added call hMem)
  cases hOp : t.op with
  | log event =>
      simp only [LogSinks.turn, hOp]
      constructor
      · rw [(foldl_append_appenders _ _ s).1]
        exact hDistinct.nodup
      · rw [(foldl_append_appenders _ _ s).1]
        exact hMore
  | setFormatter formatter =>
      simp only [LogSinks.turn, hOp]
      exact ⟨hDistinct.nodup, hMore⟩
  | addAppender =>
      simp only [LogSinks.turn, hOp]
      split
      · exact ⟨hDistinct.nodup, hMore⟩
      · constructor
        · rw [← List.concat_eq_append]
          exact hDistinct.nodup.concat fun hMem => hNew (hDistinct.added _ hMem)
        · intro call hMem
          rcases List.mem_append.mp hMem with hOld | hLast
          · exact hMore call hOld
          · have hEq : call = t.call := by simpa using hLast
            simp [hEq]
  | clearAppenders =>
      simp only [LogSinks.turn, hOp]
      exact ⟨List.nodup_nil, fun call hMem => by cases hMem⟩
  | flush =>
      simp only [LogSinks.turn, hOp]
      constructor
      · rw [(foldl_flush_frame _ s).1]
        exact hDistinct.nodup
      · rw [(foldl_flush_frame _ s).1]
        exact hMore

/-- What one critical section adds to the lines of an appender. -/
theorem turn_lines (hNodup : s.appenders.Nodup) (t : LogTurn ε κ) (rest : List (LogTurn ε κ))
    (a : Option κ) :
    ∃ added, (s.turn t).lines a = s.lines a ++ added ∧
      ∀ later, later.Sublist (written (s.turn t) rest) →
        (added ++ later).Sublist (written s (t :: rest)) := by
  cases hOp : t.op with
  | log event =>
      have hTaken : (s.appenders.take t.reached).Nodup :=
        hNodup.sublist (List.take_sublist _ _)
      have hLines := foldl_append_lines hTaken (s.formatter event) s a
      refine ⟨_, by simpa only [LogSinks.turn, hOp] using hLines, fun later hLater => ?_⟩
      simp only [written, hOp]
      split
      · exact hLater.cons_cons (s.formatter event)
      · exact hLater.cons (s.formatter event)
  | addAppender =>
      refine ⟨[], ?_, fun later hLater => by simpa [written, hOp] using hLater⟩
      simp only [LogSinks.turn, hOp, List.append_nil]
      split <;> rfl
  | setFormatter formatter | clearAppenders =>
      exact ⟨[], by simp [LogSinks.turn, hOp],
        fun later hLater => by simpa [written, hOp] using hLater⟩
  | flush =>
      refine ⟨[], ?_, fun later hLater => by simpa [written, hOp] using hLater⟩
      simp only [LogSinks.turn, hOp, (foldl_flush_frame _ s).2, List.append_nil]

/-- Every appender receives some of the lines, in the order of the critical sections. -/
theorem replay_lines {past : List (LogTurn ε κ)} (hDistinct : s.Distinct past)
    (turns : List (LogTurn ε κ)) (hNodup : ((past ++ turns).map LogTurn.call).Nodup)
    (a : Option κ) :
    ∃ added, (s.replay turns).lines a = s.lines a ++ added ∧ added.Sublist (written s turns) := by
  induction turns generalizing s past with
  | nil => exact ⟨[], by simp [replay], List.nil_sublist _⟩
  | cons t turns ih =>
      have hNew : t.call ∉ past.map LogTurn.call := by
        rw [List.map_append, List.map_cons, List.nodup_append] at hNodup
        exact fun hMem => hNodup.2.2 t.call hMem t.call (by simp) rfl
      obtain ⟨first, hFirst, hCombine⟩ := turn_lines hDistinct.nodup t turns a
      obtain ⟨later, hLater, hSub⟩ := ih (hDistinct.turn hNew) (by simpa using hNodup)
      refine ⟨first ++ later, ?_, hCombine later hSub⟩
      show ((s.turn t).replay turns).lines a = _
      rw [hLater, hFirst, List.append_assoc]

end LogSinks

namespace Logger

variable {ε κ : Type*} [DecidableEq κ]

omit [DecidableEq κ] in
theorem new_distinct (defaultFormatter : ε → String) :
    (LogSinks.new defaultFormatter : LogSinks ε κ).Distinct [] where
  nodup := List.nodup_singleton none
  added := by simp [LogSinks.new]

/-- What a step can do to the call it belongs to. -/
structure Moves (w w' : Logger ε κ) (call : κ) (pc : LoggerPc ε κ) : Prop where
  pc_eq : w'.pc = Function.update w.pc call pc
  active : w.pc call ≠ .returned
  testing : ∀ level event loads, w.pc call = .testing level event loads →
    pc = w.tested level event (loads - 1)
  turns_eq : w'.turns = w.turns ∨
    ∃ t, t.call = call ∧ (w.pc call).holds = true ∧ w'.turns = w.turns ++ [t]

/-- A step stores a level or moves one call. -/
theorem step_moves {w w' : Logger ε κ} {label : LoggerLabel ε κ} (hStep : step w label = some w') :
    (w'.pc = w.pc ∧ w'.turns = w.turns) ∨ ∃ call pc, Moves w w' call pc := by
  cases label with
  | setLevel level =>
      obtain rfl := Option.some.inj hStep
      exact Or.inl ⟨rfl, rfl⟩
  | enter call request =>
      simp only [step] at hStep
      split at hStep
      case h_2 => cases hStep
      case h_1 hPc =>
        obtain rfl := Option.some.inj hStep
        exact Or.inr ⟨call, _, rfl, by simp [hPc], by simp [hPc], Or.inl rfl⟩
  | load call =>
      simp only [step] at hStep
      split at hStep
      case h_2 => cases hStep
      case h_1 level event loads hPc =>
        obtain rfl := Option.some.inj hStep
        refine Or.inr ⟨call, _, rfl, by simp [hPc], ?_, Or.inl rfl⟩
        intro level' event' loads' hPc'
        obtain ⟨rfl, rfl, rfl⟩ := LoggerPc.testing.inj (hPc.symm.trans hPc')
        rfl
  | lock call =>
      simp only [step] at hStep
      split at hStep
      case h_2 => cases hStep
      case h_1 op hPc hFree =>
        obtain rfl := Option.some.inj hStep
        exact Or.inr ⟨call, _, rfl, by simp [hPc], by simp [hPc], Or.inl rfl⟩
  | act call =>
      simp only [step, act] at hStep
      split at hStep
      case h_10 => cases hStep
      -- The statements after which the lock is still held.
      case h_1 | h_5 | h_6 | h_8 =>
        rename_i hPc
        obtain rfl := Option.some.inj hStep
        exact Or.inr ⟨call, _, rfl, by simp [hPc], by simp [hPc], Or.inl rfl⟩
      all_goals
        rename_i hPc
        obtain rfl := Option.some.inj hStep
        exact Or.inr ⟨call, _, rfl, by simp [hPc], by simp [hPc],
          Or.inr ⟨_, rfl, by simp [hPc, LoggerPc.holds], rfl⟩⟩
  | throw call =>
      simp only [step, throw] at hStep
      split at hStep
      case h_5 => cases hStep
      all_goals
        rename_i hPc
        obtain rfl := Option.some.inj hStep
        exact Or.inr ⟨call, _, rfl, by simp [hPc], by simp [hPc],
          Or.inr ⟨_, rfl, by simp [hPc, LoggerPc.holds], rfl⟩⟩

/-- A step ends at most the critical section of its own call. -/
theorem step_turns {w w' : Logger ε κ} {label : LoggerLabel ε κ} (hStep : step w label = some w') :
    (∃ ended, w'.turns = w.turns ++ ended ∧ ∀ t ∈ ended, (w.pc t.call).holds = true) ∧
      ∀ call, w.pc call = .returned → w'.pc call = .returned := by
  rcases step_moves hStep with ⟨hPc, hTurns⟩ | ⟨call, pc, hMoves⟩
  · refine ⟨⟨[], ?_, by simp⟩, fun other hReturned => ?_⟩
    · rw [hTurns, List.append_nil]
    · rw [hPc, hReturned]
  · refine ⟨?_, fun other hReturned => ?_⟩
    · rcases hMoves.turns_eq with hSame | ⟨t, rfl, hHolds, hTurns⟩
      · exact ⟨[], by rw [hSame, List.append_nil], by simp⟩
      · refine ⟨[t], hTurns, fun t' hMem => ?_⟩
        obtain rfl := List.mem_singleton.mp hMem
        exact hHolds
    · have hNe : other ≠ call := by
        rintro rfl
        exact hMoves.active hReturned
      rw [hMoves.pc_eq, Function.update_of_ne hNe, hReturned]

/-- The critical sections that end later are those of calls that have not returned. -/
theorem exec_turns {w w' : Logger ε κ} {more : List (LoggerLabel ε κ)}
    (hRun : exec step w more = some w') :
    ∃ later, w'.turns = w.turns ++ later ∧ ∀ t ∈ later, w.pc t.call ≠ .returned := by
  refine (exec_invariant (fun next : Logger ε κ =>
    (∃ later, next.turns = w.turns ++ later ∧ ∀ t ∈ later, w.pc t.call ≠ .returned) ∧
      ∀ call, w.pc call = .returned → next.pc call = .returned) ?_
    ⟨⟨[], by simp, by simp⟩, fun _ hReturned => hReturned⟩ hRun).1
  rintro next label next' ⟨⟨later, hTurns, hLater⟩, hKept⟩ hStep
  obtain ⟨⟨ended, hEnded, hHolds⟩, hStill⟩ := step_turns hStep
  refine ⟨⟨later ++ ended, by rw [hEnded, hTurns, List.append_assoc], ?_⟩,
    fun call hReturned => hStill call (hKept call hReturned)⟩
  intro t hMem hReturned
  rcases List.mem_append.mp hMem with hOld | hNew
  · exact hLater t hOld hReturned
  · simpa [hKept t.call hReturned, LoggerPc.holds] using hHolds t hNew

/-- A call of `Log` whose level is disabled goes nowhere but back. -/
theorem step_disabled {w w' : Logger ε κ} {label : LoggerLabel ε κ} {call : κ} {level : LogLevel}
    {event : ε} {loads : Nat}
    (hPc : w.pc call = .testing level event loads ∨ w.pc call = .returned)
    (hOff : level.isEnabled w.level = false) (hStep : step w label = some w') :
    w'.pc call = .testing level event loads ∨ w'.pc call = .returned := by
  rcases step_moves hStep with ⟨hSame, -⟩ | ⟨other, pc, hMoves⟩
  · rw [hSame]
    exact hPc
  · rw [hMoves.pc_eq]
    by_cases hCall : call = other
    · subst hCall
      rw [Function.update_self]
      rcases hPc with hTesting | hReturned
      · right
        rw [hMoves.testing level event loads hTesting, tested, hOff, if_neg Bool.false_ne_true]
      · exact absurd hReturned hMoves.active
    · rw [Function.update_of_ne hCall]
      exact hPc

theorem exec_disabled {w w' : Logger ε κ} {more : List (LoggerLabel ε κ)} {call : κ}
    {level : LogLevel} {event : ε} {loads : Nat} (hPc : w.pc call = .testing level event loads)
    (hFresh : call ∉ w.turns.map LogTurn.call)
    (hOff : Meets step (fun s _ => level.isEnabled s.level = false) w more)
    (hRun : exec step w more = some w') : call ∉ w'.turns.map LogTurn.call := by
  refine (exec_invariant_of_meets (fun next : Logger ε κ =>
    (next.pc call = .testing level event loads ∨ next.pc call = .returned) ∧
      call ∉ next.turns.map LogTurn.call) ?_ ⟨Or.inl hPc, hFresh⟩ hOff hRun).2
  rintro next label next' ⟨hNext, hNone⟩ hDisabled hStep
  refine ⟨step_disabled hNext hDisabled hStep, ?_⟩
  obtain ⟨⟨ended, hEnded, hHolds⟩, -⟩ := step_turns hStep
  rw [hEnded, List.map_append, List.mem_append]
  rintro (hOld | hNew)
  · exact hNone hOld
  · obtain ⟨t, hMem, rfl⟩ := List.mem_map.mp hNew
    have hInside := hHolds t hMem
    rcases hNext with hTesting | hReturned
    · simp [hTesting, LoggerPc.holds] at hInside
    · simp [hReturned, LoggerPc.holds] at hInside

/-- What the owner of the mutex has done counts as a critical section that ends here. -/
theorem Serial.exists_current {init : LogSinks ε κ} {w : Logger ε κ} (hSerial : Serial init w) :
    ∃ current : List (LogTurn ε κ), current.length ≤ 1 ∧ (w.mutex = none → current = []) ∧
      w.sinks = init.replay (w.turns ++ current) ∧
      ((w.turns ++ current).map LogTurn.call).Nodup := by
  have hNone : w.sinks = init.replay w.turns → ∃ current : List (LogTurn ε κ),
      current.length ≤ 1 ∧ (w.mutex = none → current = []) ∧
        w.sinks = init.replay (w.turns ++ current) ∧
        ((w.turns ++ current).map LogTurn.call).Nodup := by
    intro hSinks
    exact ⟨[], by simp, fun _ => rfl, by simpa using hSinks, by simpa using hSerial.nodup⟩
  cases hMutex : w.mutex with
  | none => simpa [hMutex] using hNone (hSerial.free hMutex)
  | some call =>
      have hProgress := hSerial.held call hMutex
      have hNotOver : ∀ t ∈ w.turns, t.call ≠ call := by
        refine hSerial.not_over fun hReturned => ?_
        simpa [hReturned, LoggerPc.holds] using hProgress.holds
      have hOne : ∀ op reached, w.sinks = (init.replay w.turns).turn ⟨call, op, reached⟩ →
          ∃ current : List (LogTurn ε κ), current.length ≤ 1 ∧
            (some call = none → current = []) ∧ w.sinks = init.replay (w.turns ++ current) ∧
            ((w.turns ++ current).map LogTurn.call).Nodup := by
        intro op reached hSinks
        refine ⟨[⟨call, op, reached⟩], le_refl 1, fun hEq => (by cases hEq), ?_, ?_⟩
        · rw [LogSinks.replay_concat, hSinks]
        · rw [List.map_append, List.map_singleton, ← List.concat_eq_append]
          refine hSerial.nodup.concat fun hMem => ?_
          obtain ⟨t, hT, hCall⟩ := List.mem_map.mp hMem
          exact hNotOver t hT hCall
      cases hPc : w.pc call with
      | holding op =>
          rw [hPc] at hProgress
          simpa [hMutex] using hNone hProgress
      | appending event line reached rest =>
          rw [hPc] at hProgress
          exact hOne (.log event) reached hProgress.2.2
      | flushing reached rest =>
          rw [hPc] at hProgress
          exact hOne .flush reached hProgress.2
      | idle | testing | wantsLock | returned =>
          rw [hPc] at hProgress
          exact hProgress.elim

/-- Whatever calls are made at the same time, and whatever throws: the formatter, the
appenders and their lines are those of the critical sections one after another, of which
at most the last is unfinished.  So a line is whole, and all appenders show the lines in
one order.  A call has one critical section at most, and it comes after those of the calls
that had returned before it began.  A message whose level is disabled throughout its call
is not written. -/
theorem logger_serializes (defaultFormatter : ε → String) {labels : List (LoggerLabel ε κ)}
    {w : Logger ε κ} (hRun : exec step (new defaultFormatter) labels = some w) :
    (∃ current : List (LogTurn ε κ), current.length ≤ 1 ∧ (w.mutex = none → current = []) ∧
      w.sinks = (LogSinks.new defaultFormatter).replay (w.turns ++ current) ∧
      ∀ a, (w.sinks.lines a).Sublist
        ((LogSinks.new defaultFormatter).written (w.turns ++ current))) ∧
    ((w.turns.map LogTurn.call).Nodup ∧ ∀ t ∈ w.turns, w.pc t.call = .returned) ∧
    (∀ more w', exec step w more = some w' →
      ∃ later, w'.turns = w.turns ++ later ∧ ∀ t ∈ later, w.pc t.call ≠ .returned) ∧
    (∀ call level event loads more w', w.pc call = .testing level event loads →
      Meets step (fun s _ => level.isEnabled s.level = false) w more →
      exec step w more = some w' → call ∉ w'.turns.map LogTurn.call) := by
  have hSerial : Serial (LogSinks.new defaultFormatter) w :=
    exec_serial (new_serial defaultFormatter) hRun
  refine ⟨?_, ⟨hSerial.nodup, hSerial.returned⟩, fun more w' hMore => exec_turns hMore, ?_⟩
  · obtain ⟨current, hLength, hFree, hSinks, hNodup⟩ := hSerial.exists_current
    refine ⟨current, hLength, hFree, hSinks, fun a => ?_⟩
    obtain ⟨added, hLines, hSub⟩ := LogSinks.replay_lines (new_distinct defaultFormatter)
      (w.turns ++ current) hNodup a
    rw [hSinks, hLines]
    exact hSub
  · intro call level event loads more w' hPc hOff hMore
    refine exec_disabled hPc (fun hMem => ?_) hOff hMore
    obtain ⟨t, hT, rfl⟩ := List.mem_map.mp hMem
    simp [hSerial.returned t hT] at hPc

/-- Two calls log while a file appender is added; the second message finds both
appenders. -/
def twoMessages : List (LoggerLabel String Nat) :=
  [.enter 1 (.log .kInfo "up" true), .load 1, .enter 2 (.locked .addAppender), .load 1, .lock 1,
    .act 1, .enter 3 (.log .kError "down" false), .load 3, .act 1, .act 1, .lock 2, .act 2,
    .lock 3, .act 3, .act 3]

theorem logger_serializes_twoMessages :
    ∃ w : Logger String Nat, exec step (new id) twoMessages = some w ∧ w.mutex = some 3 ∧
      w.sinks.lines none = ["up", "down"] ∧ w.sinks.lines (some 2) = [] ∧
      (w.turns.map LogTurn.call).Nodup := by
  obtain ⟨w, hRun, hMutex, hConsole, hFile⟩ : ∃ w : Logger String Nat,
      exec step (new id) twoMessages = some w ∧ w.mutex = some 3 ∧
        w.sinks.lines none = ["up", "down"] ∧ w.sinks.lines (some 2) = [] :=
    ⟨_, rfl, rfl, rfl, rfl⟩
  exact ⟨w, hRun, hMutex, hConsole, hFile, (logger_serializes id hRun).2.1.1⟩

end Logger
end SolarNet
