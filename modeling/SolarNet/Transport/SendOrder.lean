import Mathlib.Data.List.TakeWhile
import SolarNet.Net.EventLoopRuns
import SolarNet.Transport.ConnectionOutput

/-!
# Sending from many threads

`Send`, `Shutdown` and `ForceClose` may be called by any thread.  On the loop thread
they act at once; on another thread they hand a functor to `RunInLoop`, and the functor
queue is shared with the rest of the program.  This file puts the functor queue of
`EventLoop` together with one connection.

A thread's calls take effect in the order in which it made them, and messages are never
mixed.  Calls of different threads are ordered by the loop alone: a call on the loop
thread takes effect before the calls that are still in the queue.  So does what the loop
thread learns from the peer: a message that waits in the queue when `HandleRead` finds the
end of the stream is dropped.
-/

namespace SolarNet

/-- A call of user code on the connection. -/
inductive SendCall where
  | send (message : List Byte)
  | shutdown
  | forceClose
  /-- A functor of another part of the program. -/
  | other
  deriving DecidableEq, Repr

namespace SendCall

/-- Whether the call reaches `RunInLoop`: nothing is done for an empty message, and
`Shutdown` and `ForceClose` test the state first. -/
def starts (c : TcpConnection) : SendCall → Bool
  | .send message => !message.isEmpty
  | .shutdown | .forceClose => c.state.live
  | .other => true

/-- What runs on the loop thread: `SendInLoop`, `ShutdownInLoop`, `ForceCloseInLoop`. -/
def run (c : TcpConnection) (write : SysWrite) : SendCall → TcpConnection
  | .send message => c.sendInLoop message write
  | .shutdown => c.shutdownInLoop
  | .forceClose => c.forceCloseInLoop
  | .other => c

/-- The call leaves the connection open for messages. -/
def keepsOpen : SendCall → Bool
  | .shutdown | .forceClose => false
  | _ => true

def message? : SendCall → Option (List Byte)
  | .send message => some message
  | _ => none

end SendCall

/-- A call and its thread. -/
structure SendTask (T : Type*) where
  caller : Caller T
  call : SendCall
  deriving DecidableEq, Repr

/-- What takes effect on the connection. -/
inductive SendEvent (T : Type*) where
  | call (task : SendTask T)
  /-- The loop thread closes the connection without a call of `ForceClose`. -/
  | close
  deriving DecidableEq, Repr

namespace SendEvent

variable {T : Type*}

def task? : SendEvent T → Option (SendTask T)
  | .call task => some task
  | .close => none

/-- The event leaves the connection open for messages. -/
def keepsOpen : SendEvent T → Bool
  | .call task => task.call.keepsOpen
  | .close => false

end SendEvent

/-- A loop and one connection on it.  The last two fields are history: the calls in the
order in which they reached `RunInLoop`, and what took effect, in order. -/
structure SendLoop (T : Type*) where
  loop : EventLoop (SendTask T) T
  conn : TcpConnection
  issued : List (SendTask T)
  events : List (SendEvent T)

/-- A step of a thread, with what a system call on the socket meets. -/
inductive SendLabel (T : Type*) where
  | call (caller : Caller T) (call : SendCall) (write : SysWrite)
  | loop (act : LoopAct) (write : SysWrite)
  | finishCall (caller : Caller T)
  | quit (caller : Caller T)
  | handleRead (read : SysRead)
  | handleWrite (write : SysWrite)
  | handleClose
  /-- The owner calls `ConnectDestroyed`. -/
  | connectDestroyed
  deriving DecidableEq, Repr

/-- The write does not fail in the way in which `SendInLoop` gives a message up. -/
def SysWrite.harmless : SysWrite → Bool
  | .error errno logged => !TcpConnection.isFault errno logged
  | .room _ => true

def SendLabel.harmless {T : Type*} : SendLabel T → Bool
  | .call _ _ write | .loop _ write | .handleWrite write => write.harmless
  | _ => true

namespace SendLoop

open Lib EventLoop

variable {T : Type*} [DecidableEq T]

/-- The connection is established and the loop has not been entered. -/
def new (callbacks : ConnCallbacks) (highWaterMark : ℕ) : SendLoop T where
  loop := EventLoop.new
  conn := (TcpConnection.new callbacks highWaterMark).connectEstablished
  issued := []
  events := []

/-- The call takes effect. -/
def perform (s : SendLoop T) (task : SendTask T) (write : SysWrite) : SendLoop T :=
  { s with conn := task.call.run s.conn write, events := s.events ++ [.call task] }

/-- The loop thread closes the connection. -/
def close (s : SendLoop T) (conn : TcpConnection) : SendLoop T :=
  { s with conn := conn, events := s.events ++ [.close] }

/-- `HandleRead`: a read that returns zero closes the connection. -/
def handleRead (s : SendLoop T) (read : SysRead) : SendLoop T :=
  if (s.conn.receive read).2 = .ok 0 then s.close (s.conn.handleRead read)
  else { s with conn := s.conn.handleRead read }

/-- `ConnectDestroyed`. -/
def connectDestroyed (s : SendLoop T) : SendLoop T :=
  if s.conn.state = .kConnected then s.close s.conn.connectDestroyed.leavePoller
  else { s with conn := s.conn.connectDestroyed.leavePoller }

/-- The functor that `DoPendingFunctors` starts. -/
def startedBy (s : SendLoop T) (act : LoopAct) : Option (SendTask T) :=
  match act, s.loop.pc with
  | .runNext, .batch (task :: _) => some task
  | _, _ => none

/-- One step of one thread. -/
def step (s : SendLoop T) : SendLabel T → Option (SendLoop T)
  | .call caller call write =>
      if call.starts s.conn then
        (s.loop.step (.runInLoop caller ⟨caller, call⟩)).map fun loop =>
          let issued := { s with loop := loop, issued := s.issued ++ [⟨caller, call⟩] }
          if caller = .loopThread then issued.perform ⟨caller, call⟩ write else issued
      else if s.loop.canCall caller then some s else none
  | .loop act write =>
      (s.loop.step (.loop act)).map fun loop =>
        match s.startedBy act with
        | some task => { s with loop := loop }.perform task write
        | none => { s with loop := loop }
  | .finishCall caller =>
      (s.loop.step (.finishCall caller)).map fun loop => { s with loop := loop }
  | .quit caller => (s.loop.step (.quit caller)).map fun loop => { s with loop := loop }
  | .handleRead read => if s.loop.pc = .handling then some (s.handleRead read) else none
  | .handleWrite write =>
      if s.loop.pc = .handling then some { s with conn := s.conn.handleWrite write } else none
  | .handleClose => if s.loop.pc = .handling then some (s.close s.conn.handleClose) else none
  | .connectDestroyed => if s.loop.canCall .loopThread then some s.connectDestroyed else none

/-- The calls that have taken effect. -/
def ran (s : SendLoop T) : List (SendTask T) := s.events.filterMap SendEvent.task?

/-- The functors that have not been started, in order. -/
def waiting (s : SendLoop T) : List (SendTask T) :=
  unstarted s.loop.pc ++ s.loop.pendingFunctors

/-- The calls of one thread. -/
def callsOf (caller : Caller T) (tasks : List (SendTask T)) : List (SendTask T) :=
  tasks.filter fun task => task.caller = caller

@[simp] theorem callsOf_append (caller : Caller T) (first second : List (SendTask T)) :
    callsOf caller (first ++ second) = callsOf caller first ++ callsOf caller second :=
  List.filter_append first second

omit [DecidableEq T] in
theorem ran_call {s s' : SendLoop T} {task : SendTask T}
    (hEvents : s'.events = s.events ++ [.call task]) : s'.ran = s.ran ++ [task] := by
  rw [ran, hEvents, List.filterMap_append]
  rfl

omit [DecidableEq T] in
theorem ran_close {s s' : SendLoop T} (hEvents : s'.events = s.events ++ [.close]) :
    s'.ran = s.ran := by
  rw [ran, hEvents, List.filterMap_append]
  exact List.append_nil _

/-! ## What the events of the channel do -/

theorem handleWrite_keeps (c : TcpConnection) (write : SysWrite) :
    (c.handleWrite write).state = c.state ∧ (c.handleWrite write).accepted = c.accepted := by
  cases hWriting : c.channel.isWriting with
  | false => simp [TcpConnection.handleWrite, hWriting]
  | true =>
      cases hResult : write.result c.outputBuffer.readableBytes with
      | ok n =>
          obtain ⟨-, hAccepted, -, hState⟩ := TcpConnection.handleWrite_ok hWriting hResult
          exact ⟨hState, hAccepted⟩
      | error errno =>
          simp [TcpConnection.handleWrite, hWriting, CheckedBuffer.writeFd_error hResult]

theorem handleRead_accepted (c : TcpConnection) (read : SysRead) :
    (c.handleRead read).accepted = c.accepted := by
  unfold TcpConnection.handleRead
  split
  · rfl
  · exact TcpConnection.handleClose_accepted _
  · split <;> rfl

theorem handleRead_state (c : TcpConnection) (read : SysRead) :
    (c.handleRead read).state = if (c.receive read).2 = .ok 0 then .kDisconnected else c.state := by
  unfold TcpConnection.handleRead
  split
  · next hResult => rw [if_neg (by simp [hResult])]; rfl
  · next hResult => rw [if_pos hResult, TcpConnection.handleClose_state]
  · next hResult =>
    have hMore : ¬(c.receive read).2 = .ok 0 := by simp [hResult]
    rw [if_neg hMore]
    split <;> rfl

theorem leavePoller_accepted (c : TcpConnection) : c.leavePoller.accepted = c.accepted := by
  unfold TcpConnection.leavePoller
  split <;> rfl

theorem connectDestroyed_accepted (c : TcpConnection) :
    c.connectDestroyed.accepted = c.accepted := by
  unfold TcpConnection.connectDestroyed TcpConnection.beginDestroy
  split
  · exact TcpConnection.report_accepted _
  · rfl

/-- What the loop thread does on its own: it leaves the connection as open as it was, or it
closes it.  Neither accepts bytes. -/
structure OwnMove (s s' : SendLoop T) : Prop where
  accepted : s'.conn.accepted = s.conn.accepted
  events : s'.events = s.events ∧ s'.conn.state = s.conn.state ∨
    s'.events = s.events ++ [.close] ∧ s'.conn.state = .kDisconnected

omit [DecidableEq T] in
theorem handleRead_move (s : SendLoop T) (read : SysRead) : OwnMove s (s.handleRead read) := by
  have hAccepted := handleRead_accepted s.conn read
  have hState := handleRead_state s.conn read
  unfold handleRead
  split
  · next hEnd =>
    rw [if_pos hEnd] at hState
    exact ⟨hAccepted, Or.inr ⟨rfl, hState⟩⟩
  · next hOpen =>
    rw [if_neg hOpen] at hState
    exact ⟨hAccepted, Or.inl ⟨rfl, hState⟩⟩

omit [DecidableEq T] in
theorem connectDestroyed_move (s : SendLoop T) : OwnMove s s.connectDestroyed := by
  have hAccepted :=
    (leavePoller_accepted s.conn.connectDestroyed).trans (connectDestroyed_accepted s.conn)
  have hState :=
    (TcpConnection.leavePoller_state _).trans (TcpConnection.connectDestroyed_state s.conn)
  unfold connectDestroyed
  split
  · next hOpen =>
    rw [if_pos hOpen] at hState
    exact ⟨hAccepted, Or.inr ⟨rfl, hState⟩⟩
  · next hClosed =>
    rw [if_neg hClosed] at hState
    exact ⟨hAccepted, Or.inl ⟨rfl, hState⟩⟩

/-! ## What a step can do -/

omit [DecidableEq T] in
/-- What `Loop()` does to the queue: it starts the first functor of the batch, or it
leaves the order of the functors alone. -/
theorem moves_waiting {s : SendLoop T} {act : LoopAct} {loop : EventLoop (SendTask T) T}
    (hMoves : Moves s.loop act loop) :
    (∃ task, s.startedBy act = some task ∧
      s.waiting = task :: (unstarted loop.pc ++ loop.pendingFunctors)) ∨
    (s.startedBy act = none ∧ s.waiting = unstarted loop.pc ++ loop.pendingFunctors) := by
  cases hMoves with
  | runNext task rest hPc =>
      exact Or.inl ⟨task, by simp [startedBy, hPc], by simp [waiting, hPc, unstarted]⟩
  | testTop hPc =>
      refine Or.inr ⟨rfl, ?_⟩
      rw [unstarted_ite _ _ _ rfl rfl, waiting, hPc]
      rfl
  | testBottom hPc =>
      refine Or.inr ⟨rfl, ?_⟩
      rw [unstarted_ite _ _ _ rfl rfl, waiting, hPc]
      rfl
  | swap hPc => exact Or.inr ⟨rfl, by simp [waiting, hPc, unstarted]⟩
  | handleRead hPc => exact Or.inr ⟨rfl, rfl⟩
  | enter hPc | pollReturn hPc | endHandling hPc | startPending hPc | functorReturn rest hPc
  | endPending hPc | destroyFunctors hPc =>
      exact Or.inr ⟨rfl, by simp [waiting, hPc, unstarted]⟩

/-- Every step runs a call in place, queues a call, starts a waiting call, or has no
part in the calls. -/
theorem step_cases {s s' : SendLoop T} {label : SendLabel T} (hStep : step s label = some s') :
    (∃ call write, label = .call .loopThread call write ∧ call.starts s.conn = true ∧
      s'.waiting = s.waiting ∧ s'.issued = s.issued ++ [⟨.loopThread, call⟩] ∧
      s'.events = s.events ++ [.call ⟨.loopThread, call⟩] ∧ s'.conn = call.run s.conn write) ∨
    (∃ thread call, call.starts s.conn = true ∧
      s'.waiting = s.waiting ++ [⟨.other thread, call⟩] ∧
      s'.issued = s.issued ++ [⟨.other thread, call⟩] ∧ s'.events = s.events ∧
      s'.conn = s.conn) ∨
    (∃ task act write, label = .loop act write ∧ s.waiting = task :: s'.waiting ∧
      s'.issued = s.issued ∧ s'.events = s.events ++ [.call task] ∧
      s'.conn = task.call.run s.conn write) ∨
    (s'.waiting = s.waiting ∧ s'.issued = s.issued ∧ OwnMove s s') := by
  have hNone : ∀ s' : SendLoop T, s'.events = s.events → s'.conn = s.conn → OwnMove s s' :=
    fun s' hEvents hConn => ⟨by rw [hConn], Or.inl ⟨hEvents, by rw [hConn]⟩⟩
  cases label with
  | call caller call write =>
      simp only [step] at hStep
      split at hStep
      case isFalse hStarts =>
        split at hStep
        case isFalse => cases hStep
        case isTrue =>
          obtain rfl := Option.some.inj hStep
          exact Or.inr (Or.inr (Or.inr ⟨rfl, rfl, hNone s rfl rfl⟩))
      case isTrue hStarts =>
        obtain ⟨loop, hLoop, rfl⟩ := Option.map_eq_some_iff.mp hStep
        simp only [EventLoop.step, Option.ite_none_right_eq_some, Option.some.injEq] at hLoop
        obtain ⟨-, rfl⟩ := hLoop
        cases caller with
        | loopThread => exact Or.inl ⟨call, write, rfl, hStarts, rfl, rfl, rfl, rfl⟩
        | other thread =>
            refine Or.inr (Or.inl ⟨thread, call, hStarts, ?_, rfl, rfl, rfl⟩)
            simp [waiting, runInLoop, queueInLoop, setCall]
  | loop act write =>
      obtain ⟨loop, hLoop, rfl⟩ := Option.map_eq_some_iff.mp hStep
      simp only [EventLoop.step, Option.ite_none_right_eq_some] at hLoop
      obtain ⟨task, hStarted, hWaiting⟩ | ⟨hNotStarted, hWaiting⟩ :=
        moves_waiting (moves_of_loopStep hLoop.2)
      · refine Or.inr (Or.inr (Or.inl ⟨task, act, write, rfl, ?_, ?_, ?_, ?_⟩))
        all_goals simp only [hStarted, perform]
        exact hWaiting
      · refine Or.inr (Or.inr (Or.inr ⟨?_, ?_, ?_⟩))
        all_goals simp only [hNotStarted]
        · exact hWaiting.symm
        · exact hNone _ rfl rfl
  | finishCall caller =>
      obtain ⟨loop, hLoop, rfl⟩ := Option.map_eq_some_iff.mp hStep
      simp only [EventLoop.step, Option.ite_none_left_eq_some, Option.some.injEq] at hLoop
      obtain ⟨-, rfl⟩ := hLoop
      refine Or.inr (Or.inr (Or.inr ⟨?_, rfl, hNone _ rfl rfl⟩))
      unfold waiting finishCall
      split <;> rfl
  | quit caller =>
      obtain ⟨loop, hLoop, rfl⟩ := Option.map_eq_some_iff.mp hStep
      simp only [EventLoop.step, Option.ite_none_right_eq_some, Option.some.injEq] at hLoop
      obtain ⟨-, rfl⟩ := hLoop
      exact Or.inr (Or.inr (Or.inr ⟨rfl, rfl, hNone _ rfl rfl⟩))
  | handleRead read =>
      simp only [step, Option.ite_none_right_eq_some, Option.some.injEq] at hStep
      obtain ⟨-, rfl⟩ := hStep
      refine Or.inr (Or.inr (Or.inr ⟨?_, ?_, handleRead_move s read⟩))
      all_goals unfold handleRead; split <;> rfl
  | handleWrite write =>
      simp only [step, Option.ite_none_right_eq_some, Option.some.injEq] at hStep
      obtain ⟨-, rfl⟩ := hStep
      obtain ⟨hState, hAccepted⟩ := handleWrite_keeps s.conn write
      exact Or.inr (Or.inr (Or.inr ⟨rfl, rfl, hAccepted, Or.inl ⟨rfl, hState⟩⟩))
  | handleClose =>
      simp only [step, Option.ite_none_right_eq_some, Option.some.injEq] at hStep
      obtain ⟨-, rfl⟩ := hStep
      exact Or.inr (Or.inr (Or.inr ⟨rfl, rfl, TcpConnection.handleClose_accepted _,
        Or.inr ⟨rfl, TcpConnection.handleClose_state _⟩⟩))
  | connectDestroyed =>
      simp only [step, Option.ite_none_right_eq_some, Option.some.injEq] at hStep
      obtain ⟨-, rfl⟩ := hStep
      refine Or.inr (Or.inr (Or.inr ⟨?_, ?_, connectDestroyed_move s⟩))
      all_goals unfold connectDestroyed; split <;> rfl

/-! ## The order of the calls -/

/-- Each thread's calls have taken effect, or wait, in the order in which they were
made; no call of the loop thread waits. -/
structure Ordered (s : SendLoop T) : Prop where
  order : ∀ caller, callsOf caller (s.ran ++ s.waiting) = callsOf caller s.issued
  foreign : ∀ task ∈ s.waiting, task.caller ≠ .loopThread

theorem new_ordered (callbacks : ConnCallbacks) (highWaterMark : ℕ) :
    Ordered (new callbacks highWaterMark : SendLoop T) :=
  ⟨fun _ => rfl, fun _ hTask => by cases hTask⟩

theorem step_ordered {s s' : SendLoop T} {label : SendLabel T} (hOrdered : Ordered s)
    (hStep : step s label = some s') : Ordered s' := by
  rcases step_cases hStep with
    ⟨call, write, -, -, hWaiting, hIssued, hEvents, -⟩ |
    ⟨thread, call, -, hWaiting, hIssued, hEvents, -⟩ |
    ⟨task, act, write, -, hWaiting, hIssued, hEvents, -⟩ | ⟨hWaiting, hIssued, hOwn⟩
  · have hRan := ran_call hEvents
    refine ⟨fun caller => ?_, hWaiting ▸ hOrdered.foreign⟩
    rw [hWaiting, hIssued, hRan, callsOf_append, callsOf_append, callsOf_append,
      ← hOrdered.order caller, callsOf_append, List.append_assoc, List.append_assoc]
    congr 1
    -- Only the loop thread's own calls could be out of order, and none of them waits.
    by_cases hCaller : caller = .loopThread
    · have hNone : callsOf caller s.waiting = [] := by
        rw [hCaller]
        exact List.filter_eq_nil_iff.mpr fun task hTask => by
          simpa using hOrdered.foreign task hTask
      rw [hNone, List.append_nil, List.nil_append]
    · have hOther : callsOf caller [(⟨.loopThread, call⟩ : SendTask T)] = [] := by
        simp [callsOf, Ne.symm hCaller]
      rw [hOther, List.append_nil, List.nil_append]
  · have hRan : s'.ran = s.ran := congrArg (List.filterMap SendEvent.task?) hEvents
    refine ⟨fun caller => ?_, ?_⟩
    · rw [hWaiting, hIssued, hRan, ← List.append_assoc, callsOf_append, hOrdered.order,
        callsOf_append]
    · rw [hWaiting]
      intro task hTask
      rcases List.mem_append.mp hTask with hOld | hNew
      · exact hOrdered.foreign task hOld
      · rw [List.mem_singleton.mp hNew]
        intro hLoopThread
        cases hLoopThread
  · have hRan := ran_call hEvents
    refine ⟨fun caller => ?_, fun other hOther => ?_⟩
    · rw [hIssued, hRan, ← hOrdered.order, hWaiting, List.append_assoc]
      rfl
    · exact hOrdered.foreign other (hWaiting ▸ List.mem_cons_of_mem task hOther)
  · have hRan : s'.ran = s.ran := by
      rcases hOwn.events with ⟨hEvents, -⟩ | ⟨hEvents, -⟩
      · exact congrArg (List.filterMap SendEvent.task?) hEvents
      · exact ran_close hEvents
    exact ⟨by rw [hWaiting, hIssued, hRan]; exact hOrdered.order, hWaiting ▸ hOrdered.foreign⟩

/-! ## What is accepted -/

/-- The calls that took effect before the connection was first closed or shut down. -/
def beforeClose (s : SendLoop T) : List (SendTask T) :=
  (s.events.takeWhile SendEvent.keepsOpen).filterMap SendEvent.task?

def messages (tasks : List (SendTask T)) : List (List Byte) :=
  tasks.filterMap fun task => task.call.message?

/-- A message is accepted whole or not at all. -/
theorem sendInLoop_accepted {c : TcpConnection} (hOpen : c.state = .kConnected)
    (message : List Byte) (write : SysWrite) :
    (c.sendInLoop message write).state = .kConnected ∧
      ((c.sendInLoop message write).accepted = c.accepted ++ message ∨
        write.harmless = false ∧ (c.sendInLoop message write).accepted = c.accepted) := by
  have hRest : ∀ (c : TcpConnection) (rest : List Byte),
      (c.bufferRest rest).state = c.state ∧ (c.bufferRest rest).accepted = c.accepted := by
    intro c rest
    unfold TcpConnection.bufferRest TcpConnection.wantWrite TcpConnection.queueHighWaterMark
    dsimp only
    split_ifs <;> exact ⟨rfl, rfl⟩
  have hQueue : ∀ c : TcpConnection, c.queueWriteComplete.state = c.state ∧
      c.queueWriteComplete.accepted = c.accepted := by
    intro c
    unfold TcpConnection.queueWriteComplete
    split <;> exact ⟨rfl, rfl⟩
  unfold TcpConnection.sendInLoop
  rw [if_neg (not_not.mpr hOpen)]
  split
  · cases hResult : write.result message.length with
    | ok nwrote =>
        dsimp only
        split
        · rw [(hRest _ _).1, (hRest _ _).2, (hQueue _).1, (hQueue _).2]
          exact ⟨hOpen, Or.inl rfl⟩
        · rw [(hRest _ _).1, (hRest _ _).2]
          exact ⟨hOpen, Or.inl rfl⟩
    | error errno =>
        dsimp only
        split
        case isTrue hFault =>
          refine ⟨hOpen, Or.inr ⟨?_, rfl⟩⟩
          cases write with
          | room count => cases hResult
          | error found logged =>
              obtain rfl : found = errno := by simpa [SysWrite.result] using hResult
              simpa [SysWrite.harmless, SysWrite.logged] using hFault
        case isFalse =>
          rw [(hRest _ _).1, (hRest _ _).2]
          exact ⟨hOpen, Or.inl rfl⟩
  · rw [(hRest _ _).1, (hRest _ _).2]
    exact ⟨hOpen, Or.inl rfl⟩

/-- `Shutdown` and `ForceClose` accept nothing and leave the connection closed for
messages. -/
theorem run_of_closing {call : SendCall} (hCloses : call.keepsOpen = false) (c : TcpConnection)
    (write : SysWrite) :
    (call.run c write).state ≠ .kConnected ∧ (call.run c write).accepted = c.accepted := by
  cases call with
  | send message => cases hCloses
  | other => cases hCloses
  | shutdown =>
      simp only [SendCall.run, TcpConnection.shutdownInLoop, TcpConnection.beginShutdown]
      by_cases hOpen : c.state = .kConnected
      · simp only [if_pos hOpen]
        split <;> simp [TcpConnection.record]
      · simp only [if_neg hOpen]
        split <;> simp [TcpConnection.record, hOpen]
  | forceClose =>
      simp only [SendCall.run, TcpConnection.forceCloseInLoop]
      split
      · simp
      · next hDead =>
        refine ⟨fun hOpen => hDead ?_, rfl⟩
        rw [hOpen]
        rfl

theorem run_of_closed {c : TcpConnection} (hClosed : c.state ≠ .kConnected) (call : SendCall)
    (write : SysWrite) :
    (call.run c write).state ≠ .kConnected ∧ (call.run c write).accepted = c.accepted := by
  cases hKeeps : call.keepsOpen with
  | false => exact run_of_closing hKeeps c write
  | true =>
      cases call with
      | send message => simp [SendCall.run, TcpConnection.sendInLoop, hClosed]
      | other => exact ⟨hClosed, rfl⟩
      | shutdown => cases hKeeps
      | forceClose => cases hKeeps

/-- The connection is open for messages until an event closes it, and what it has accepted
are messages that came before.  None is missing when the writes are `Harmless`. -/
structure Kept (Harmless : Prop) (s : SendLoop T) : Prop where
  state : s.conn.state = .kConnected ↔ ∀ event ∈ s.events, event.keepsOpen = true
  accepted : ∃ kept, kept.Sublist (messages s.beforeClose) ∧ s.conn.accepted = kept.flatten ∧
    (Harmless → kept = messages s.beforeClose)

omit [DecidableEq T] in
/-- Nothing counts from the event that closes the connection on. -/
theorem Kept.closed {Harmless : Prop} {s s' : SendLoop T} (hKept : Kept Harmless s)
    {event : SendEvent T} (hEvents : s'.events = s.events ++ [event])
    (hClosed : event.keepsOpen = false ∨ s.conn.state ≠ .kConnected)
    (hState : s'.conn.state ≠ .kConnected) (hAccepted : s'.conn.accepted = s.conn.accepted) :
    Kept Harmless s' := by
  have hBefore : s'.beforeClose = s.beforeClose := by
    rw [beforeClose, hEvents, List.takeWhile_append]
    split
    · next hLength =>
      have hAll : s.events.takeWhile SendEvent.keepsOpen = s.events :=
        (List.takeWhile_prefix _).eq_of_length hLength
      -- Nothing has closed the connection before, so it is this event that does.
      have hCloses : event.keepsOpen = false := hClosed.resolve_right fun hNotOpen =>
        hNotOpen (hKept.state.mpr (List.takeWhile_eq_self_iff.mp hAll))
      rw [List.takeWhile_cons_of_neg (by simp [hCloses]), List.append_nil, beforeClose, hAll]
    · rfl
  refine ⟨iff_of_false hState fun hAllOpen => ?_, ?_⟩
  · rw [hEvents] at hAllOpen
    rcases hClosed with hCloses | hNotOpen
    · rw [hAllOpen event (by simp)] at hCloses
      cases hCloses
    · exact hNotOpen (hKept.state.mpr fun other hOther =>
        hAllOpen other (List.mem_append_left _ hOther))
  · rw [hBefore, hAccepted]
    exact hKept.accepted

omit [DecidableEq T] in
/-- A call that leaves the connection open takes effect while it is open. -/
theorem Kept.run_open {Harmless : Prop} {s s' : SendLoop T} (hKept : Kept Harmless s)
    (hOpen : s.conn.state = .kConnected) {task : SendTask T} {write : SysWrite}
    (hKeeps : task.call.keepsOpen = true) (hWrite : Harmless → write.harmless = true)
    (hEvents : s'.events = s.events ++ [.call task])
    (hConn : s'.conn = task.call.run s.conn write) : Kept Harmless s' := by
  obtain ⟨kept, hSublist, hAccepted, hAll⟩ := hKept.accepted
  -- The connection is open, so the prefix that counts is the whole history.
  have hAllOpen : ∀ event ∈ s'.events, event.keepsOpen = true := by
    rw [hEvents]
    intro event hEvent
    rcases List.mem_append.mp hEvent with hOld | hNew
    · exact hKept.state.mp hOpen event hOld
    · rw [List.mem_singleton.mp hNew]
      exact hKeeps
  have hBefore : messages s'.beforeClose = messages s.beforeClose ++ messages [task] := by
    rw [beforeClose, beforeClose, List.takeWhile_eq_self_iff.mpr hAllOpen,
      List.takeWhile_eq_self_iff.mpr (hKept.state.mp hOpen), hEvents, List.filterMap_append,
      messages, List.filterMap_append]
    rfl
  obtain ⟨caller, call⟩ := task
  cases call with
  | shutdown => cases hKeeps
  | forceClose => cases hKeeps
  | other =>
      have hSame : s'.conn = s.conn := hConn
      rw [show messages [(⟨caller, .other⟩ : SendTask T)] = [] from rfl, List.append_nil]
        at hBefore
      refine ⟨iff_of_true (hSame ▸ hOpen) hAllOpen, kept, ?_, ?_, ?_⟩
      · rwa [hBefore]
      · rwa [hSame]
      · rwa [hBefore]
  | send message =>
      obtain ⟨hState, hTaken⟩ := sendInLoop_accepted hOpen message write
      rw [show messages [(⟨caller, .send message⟩ : SendTask T)] = [message] from rfl]
        at hBefore
      rw [show s.conn.sendInLoop message write = s'.conn from hConn.symm] at hState hTaken
      rcases hTaken with hWhole | ⟨hFault, hNone⟩
      · refine ⟨iff_of_true hState hAllOpen, kept ++ [message], ?_, ?_, fun hHarmless => ?_⟩
        · rw [hBefore]
          exact hSublist.append (List.Sublist.refl _)
        · rw [hWhole, hAccepted, List.flatten_append, List.flatten_singleton]
        · rw [hBefore, hAll hHarmless]
      · refine ⟨iff_of_true hState hAllOpen, kept, ?_, hNone.trans hAccepted,
          fun hHarmless => ?_⟩
        · rw [hBefore]
          exact hSublist.trans (List.sublist_append_left _ _)
        · rw [hWrite hHarmless] at hFault
          cases hFault

omit [DecidableEq T] in
/-- A call takes effect. -/
theorem Kept.run {Harmless : Prop} {s s' : SendLoop T} (hKept : Kept Harmless s)
    {task : SendTask T} {write : SysWrite} (hWrite : Harmless → write.harmless = true)
    (hEvents : s'.events = s.events ++ [.call task])
    (hConn : s'.conn = task.call.run s.conn write) : Kept Harmless s' := by
  by_cases hOpen : s.conn.state = .kConnected
  · cases hKeeps : task.call.keepsOpen with
    | true => exact hKept.run_open hOpen hKeeps hWrite hEvents hConn
    | false =>
        obtain ⟨hState, hAccepted⟩ := run_of_closing hKeeps s.conn write
        rw [← hConn] at hState hAccepted
        exact hKept.closed hEvents (Or.inl hKeeps) hState hAccepted
  · obtain ⟨hState, hAccepted⟩ := run_of_closed hOpen task.call write
    rw [← hConn] at hState hAccepted
    exact hKept.closed hEvents (Or.inr hOpen) hState hAccepted

omit [DecidableEq T] in
/-- The loop thread does something on its own. -/
theorem Kept.own {Harmless : Prop} {s s' : SendLoop T} (hKept : Kept Harmless s)
    (hOwn : OwnMove s s') : Kept Harmless s' := by
  rcases hOwn.events with ⟨hEvents, hState⟩ | ⟨hEvents, hState⟩
  · refine ⟨?_, ?_⟩
    · rw [hEvents, hState]
      exact hKept.state
    · rw [beforeClose, hEvents, hOwn.accepted]
      exact hKept.accepted
  · exact hKept.closed hEvents (Or.inl rfl) (by simp [hState]) hOwn.accepted

omit [DecidableEq T] in
theorem new_kept (Harmless : Prop) (callbacks : ConnCallbacks) (highWaterMark : ℕ) :
    Kept Harmless (new callbacks highWaterMark : SendLoop T) := by
  have hConn : ∀ c : TcpConnection, c.connectEstablished.state = .kConnected ∧
      c.connectEstablished.accepted = c.accepted := by
    intro c
    unfold TcpConnection.connectEstablished TcpConnection.report
    split <;> exact ⟨rfl, rfl⟩
  obtain ⟨hState, hAccepted⟩ := hConn (TcpConnection.new callbacks highWaterMark)
  refine ⟨iff_of_true hState ?_, [], List.Sublist.refl _, hAccepted, fun _ => rfl⟩
  intro task hTask
  cases hTask

theorem step_kept {Harmless : Prop} {s s' : SendLoop T} {label : SendLabel T}
    (hKept : Kept Harmless s) (hLabel : Harmless → label.harmless = true)
    (hStep : step s label = some s') : Kept Harmless s' := by
  rcases step_cases hStep with
    ⟨call, write, rfl, -, -, -, hEvents, hConn⟩ | ⟨thread, call, -, -, -, hEvents, hConn⟩ |
    ⟨task, act, write, rfl, -, -, hEvents, hConn⟩ | ⟨-, -, hOwn⟩
  · exact hKept.run hLabel hEvents hConn
  · exact hKept.own ⟨by rw [hConn], Or.inl ⟨hEvents, by rw [hConn]⟩⟩
  · exact hKept.run hLabel hEvents hConn
  · exact hKept.own hOwn

/-- **Sending from many threads.**  In every interleaving of the loop thread with its
callers: the calls of each thread take effect in the order in which the thread made
them, each once, and those that have not yet are waiting in the queue in that order.
The bytes that the connection has accepted are whole messages in the order in which the
calls took effect, none from after the connection was first shut down or closed, by a call,
by its owner or because of its peer; and none from before is missing, unless a write failed
and `errno` was `EPIPE` or `ECONNRESET` when it was tested. -/
theorem sends_whole_and_in_order {callbacks : ConnCallbacks} {highWaterMark : ℕ}
    {labels : List (SendLabel T)} {s : SendLoop T}
    (hRun : exec step (new callbacks highWaterMark) labels = some s) :
    (∀ caller, callsOf caller (s.ran ++ s.waiting) = callsOf caller s.issued) ∧
      callsOf .loopThread s.waiting = [] ∧
      (s.conn.state = .kConnected ↔ ∀ event ∈ s.events, event.keepsOpen = true) ∧
      ∃ kept, kept.Sublist (messages s.beforeClose) ∧ s.conn.accepted = kept.flatten ∧
        ((∀ label ∈ labels, label.harmless = true) → kept = messages s.beforeClose) := by
  have hOrdered : Ordered s := exec_invariant Ordered (fun _ _ _ => step_ordered)
    (new_ordered callbacks highWaterMark) hRun
  have hMeets : Meets step (fun _ label => label ∈ labels) (new callbacks highWaterMark) labels :=
    Meets.of_forall fun _ hLabel => hLabel
  have hKept : Kept (∀ label ∈ labels, label.harmless = true) s :=
    exec_invariant_of_meets (Kept (∀ label ∈ labels, label.harmless = true))
      (fun _ label _ hKept hMem hStep => step_kept hKept (fun hAll => hAll label hMem) hStep)
      (new_kept _ callbacks highWaterMark) hMeets hRun
  refine ⟨hOrdered.order, List.filter_eq_nil_iff.mpr ?_, hKept.state, hKept.accepted⟩
  intro task hTask
  simpa using hOrdered.foreign task hTask

/-- Thread 7 sends a message and shuts down; the loop thread sends before the queue is
served, and thread 8 comes too late. -/
def threeSenders : List (SendLabel ℕ) :=
  [.call (.other 7) (.send [1, 2]) (.room 0), .finishCall (.other 7),
    .call (.other 7) .shutdown (.room 0), .finishCall (.other 7),
    .call (.other 8) (.send [3]) (.room 0), .finishCall (.other 8),
    .loop .enter (.room 0), .loop .testTop (.room 0), .loop .pollReturn (.room 0),
    .call .loopThread (.send [4]) (.error EAGAIN EAGAIN),
    .loop .endHandling (.room 0), .loop .startPending (.room 0), .loop .swap (.room 0),
    .loop .runNext (.room 0), .loop .functorReturn (.room 0), .loop .runNext (.room 0),
    .loop .functorReturn (.room 0), .loop .runNext (.room 0)]

/-- Thread 7 sends a message, and `HandleRead` finds the end of the stream before the queue
is served. -/
def peerFirst : List (SendLabel ℕ) :=
  [.call .loopThread (.send [4]) (.room 9), .call (.other 7) (.send [1, 2]) (.room 0),
    .finishCall (.other 7), .loop .enter (.room 0), .loop .testTop (.room 0),
    .loop .pollReturn (.room 0), .handleRead (.data []), .loop .endHandling (.room 0),
    .loop .startPending (.room 0), .loop .swap (.room 0), .loop .runNext (.room 0)]

theorem sends_whole_and_in_order_threeSenders :
    (∃ s : SendLoop ℕ, exec step (new ⟨false, false, false, false, .unset⟩ 0) threeSenders =
        some s ∧ messages s.beforeClose = [[4], [1, 2]] ∧ s.conn.accepted = [4, 1, 2]) ∧
      ∃ s : SendLoop ℕ, exec step (new ⟨true, true, false, false, .server⟩ 0) peerFirst =
        some s ∧ messages s.ran = [[4], [1, 2]] ∧ messages s.beforeClose = [[4]] ∧
          s.conn.accepted = [4] := by
  have hSenders : exec step (new ⟨false, false, false, false, .unset⟩ 0) threeSenders = some _ :=
    rfl
  have hPeerEnd : (exec step (new ⟨true, true, false, false, .server⟩ 0) peerFirst).map
      (fun s => (messages s.ran, messages s.beforeClose)) = some ([[4], [1, 2]], [[4]]) := by
    decide +kernel
  obtain ⟨s, hPeer, hSeen⟩ := Option.map_eq_some_iff.mp hPeerEnd
  obtain ⟨hRan, hBefore⟩ : _ ∧ _ := by simpa using hSeen
  obtain ⟨-, -, -, kept, -, hAccepted, hKept⟩ := sends_whole_and_in_order hSenders
  obtain ⟨-, -, -, early, -, hAccepted', hEarly⟩ := sends_whole_and_in_order hPeer
  refine ⟨⟨_, hSenders, rfl, ?_⟩, ⟨s, hPeer, hRan, hBefore, ?_⟩⟩
  · rw [hAccepted, hKept (by decide)]
    rfl
  · rw [hAccepted', hEarly (by decide), hBefore]
    rfl

end SendLoop
end SolarNet
