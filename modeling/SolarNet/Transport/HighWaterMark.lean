import SolarNet.Transport.WriteInterest

/-!
# High-water notifications

`SendInLoop` queues the high-water callback when the bytes it leaves in the output
buffer take its length from below `m_high_water_mark` to at least that, and it
computes both lengths before it appends.  `HandleWrite` and everything else only
take bytes out.  So the callbacks that were queued are, in order, the steps of the
run at which the length goes up through the mark, each with the length right after
its step.
-/

namespace SolarNet

open Lib

namespace TcpConnection

/-- The lengths that the queued high-water callbacks carry, in order. -/
def highWaterMarks (c : TcpConnection) : List Nat :=
  c.log.filterMap fun event =>
    match event with
    | .highWaterMarkQueued size => some size
    | _ => none

/-- What a connection shows of its high-water mark. -/
structure WaterSide where
  marks : List Nat
  size : Nat
  mark : Nat
  installed : Bool

def waterSide (c : TcpConnection) : WaterSide where
  marks := c.highWaterMarks
  size := c.outputBuffer.readableBytes
  mark := c.highWaterMark
  installed := c.callbacks.highWaterMark

namespace WaterSide

/-- The length goes from below the mark to at least the mark. -/
def Rises (mark before after : Nat) : Prop := before < mark ∧ mark ≤ after

instance (mark before after : Nat) : Decidable (Rises mark before after) :=
  inferInstanceAs (Decidable (_ ∧ _))

/-- Bytes are taken out, or nothing happens. -/
structure Sinks (w w' : WaterSide) : Prop where
  marks : w'.marks = w.marks
  size : w'.size ≤ w.size
  mark : w'.mark = w.mark
  installed : w'.installed = w.installed

/-- A callback that is set is queued exactly when the length rises through the mark,
with the length that the step leaves. -/
structure Follows (w w' : WaterSide) : Prop where
  mark : w'.mark = w.mark
  installed : w'.installed = w.installed
  marks : w.installed = true →
    w'.marks = w.marks ++ if Rises w.mark w.size w'.size then [w'.size] else []

theorem Sinks.of_eq {w w' : WaterSide} (hEq : w' = w) : Sinks w w' := by
  subst hEq
  exact ⟨rfl, le_rfl, rfl, rfl⟩

theorem Sinks.trans {w w' w'' : WaterSide} (hFirst : Sinks w w') (hSecond : Sinks w' w'') :
    Sinks w w'' where
  marks := hSecond.marks.trans hFirst.marks
  size := hSecond.size.trans hFirst.size
  mark := hSecond.mark.trans hFirst.mark
  installed := hSecond.installed.trans hFirst.installed

theorem Sinks.follows {w w' : WaterSide} (hSinks : Sinks w w') : Follows w w' where
  mark := hSinks.mark
  installed := hSinks.installed
  marks _ := by
    have hBelow : ¬Rises w.mark w.size w'.size := by
      rintro ⟨hBefore, hAfter⟩
      have hSize := hSinks.size
      omega
    rw [if_neg hBelow, List.append_nil]
    exact hSinks.marks

end WaterSide

open WaterSide

theorem record_waterSide (c : TcpConnection) {event : ConnEvent}
    (hEvent : ∀ size, event ≠ .highWaterMarkQueued size) :
    (c.record event).waterSide = c.waterSide := by
  cases event with
  | highWaterMarkQueued size => exact absurd rfl (hEvent size)
  | _ => simp [waterSide, highWaterMarks, record]

theorem report_waterSide (c : TcpConnection) : c.report.waterSide = c.waterSide := by
  unfold report
  split
  · exact record_waterSide c (by simp)
  · rfl

theorem queueWriteComplete_waterSide (c : TcpConnection) :
    c.queueWriteComplete.waterSide = c.waterSide := by
  unfold queueWriteComplete
  split
  · exact record_waterSide c (by simp)
  · rfl

theorem wantWrite_waterSide (c : TcpConnection) : c.wantWrite.waterSide = c.waterSide := by
  unfold wantWrite
  split
  · rfl
  · rfl

theorem shutdownInLoop_waterSide (c : TcpConnection) :
    c.shutdownInLoop.waterSide = c.waterSide := by
  have hBegin : c.beginShutdown.waterSide = c.waterSide := by
    unfold beginShutdown
    split
    · rfl
    · rfl
  unfold shutdownInLoop
  split
  · exact hBegin
  · exact (record_waterSide _ (by simp)).trans hBegin

theorem drained_waterSide (c : TcpConnection) : c.drained.waterSide = c.waterSide := by
  have hQueued : { c with channel := c.channel.disableWriting }.queueWriteComplete.waterSide =
      c.waterSide := queueWriteComplete_waterSide _
  unfold drained shutdownIfDisconnecting
  split
  · rw [shutdownInLoop_waterSide, record_waterSide _ (by simp)]
    exact hQueued
  · exact hQueued

theorem handleClose_waterSide (c : TcpConnection) : c.handleClose.waterSide = c.waterSide := by
  unfold handleClose beginClose
  rw [report_waterSide]
  exact record_waterSide c (by simp)

/-- The only place where bytes are put into the output buffer. -/
theorem bufferRest_follows (c : TcpConnection) (rest : List Byte) :
    Follows c.waterSide (c.bufferRest rest).waterSide := by
  unfold bufferRest
  split
  · exact (Sinks.of_eq rfl).follows
  · have hSize : (c.outputBuffer.append rest).readableBytes =
        c.outputBuffer.readableBytes + rest.length := by
      rw [← CheckedBuffer.length_readable, CheckedBuffer.readable_append, List.length_append,
        CheckedBuffer.length_readable]
    rw [wantWrite_waterSide]
    unfold queueHighWaterMark
    split
    case isTrue hCrossed =>
      refine ⟨rfl, rfl, fun _ => ?_⟩
      split
      case isTrue => simp [waterSide, record, highWaterMarks, hSize]
      case isFalse hLow =>
        refine absurd ⟨hCrossed.1, ?_⟩ hLow
        change c.highWaterMark ≤ (c.outputBuffer.append rest).readableBytes
        rw [hSize]
        exact hCrossed.2.1
    case isFalse hNot =>
      refine ⟨rfl, rfl, fun hInstalled => ?_⟩
      split
      case isTrue hRises =>
        refine absurd ⟨hRises.1, ?_, hInstalled⟩ hNot
        rw [← hSize]
        exact hRises.2
      case isFalse => simp [waterSide, highWaterMarks]

theorem sendInLoop_follows (c : TcpConnection) (message : List Byte) (call : SysWrite) :
    Follows c.waterSide (c.sendInLoop message call).waterSide := by
  unfold sendInLoop
  split
  · exact (Sinks.of_eq rfl).follows
  split
  · cases call.result message.length with
    | error errno =>
        by_cases hFault : isFault errno call.logged = true
        · simp only [if_pos hFault]
          exact (Sinks.of_eq rfl).follows
        · simp only [if_neg hFault]
          exact bufferRest_follows (c.handOver message 0) message
    | ok nwrote =>
        by_cases hAll : message.length - nwrote = 0
        · simp only [if_pos hAll]
          have hFollows := bufferRest_follows (c.handOver message nwrote).queueWriteComplete
            (message.drop nwrote)
          rwa [queueWriteComplete_waterSide] at hFollows
        · simp only [if_neg hAll]
          exact bufferRest_follows (c.handOver message nwrote) (message.drop nwrote)
  · exact bufferRest_follows (c.handOver message 0) message

theorem retrieve_sinks (c : TcpConnection) (n : Nat) :
    Sinks c.waterSide { c with outputBuffer := c.outputBuffer.retrieve n }.waterSide where
  marks := rfl
  size := by
    simp only [waterSide]
    rw [← CheckedBuffer.length_readable, ← CheckedBuffer.length_readable,
      CheckedBuffer.readable_retrieve, List.length_drop]
    omega
  mark := rfl
  installed := rfl

theorem retrieveOutput_sinks (c : TcpConnection) (n : Nat) :
    Sinks c.waterSide (c.retrieveOutput n).waterSide := by
  unfold retrieveOutput
  split
  · rw [drained_waterSide]
    exact retrieve_sinks c n
  · exact retrieve_sinks c n

theorem handleWrite_sinks (c : TcpConnection) (call : SysWrite) :
    Sinks c.waterSide (c.handleWrite call).waterSide := by
  unfold handleWrite
  split
  · exact .of_eq rfl
  cases hResult : call.result c.outputBuffer.readableBytes with
  | error errno =>
      rw [CheckedBuffer.writeFd_error hResult]
      exact .of_eq rfl
  | ok n =>
      rw [CheckedBuffer.writeFd_ok hResult]
      have hWrote : Sinks c.waterSide (c.wrote (c.outputBuffer.retrieve n) n).waterSide :=
        retrieve_sinks c n
      dsimp only
      split
      · exact hWrote.trans (retrieveOutput_sinks _ n)
      · exact hWrote

theorem handleRead_waterSide (c : TcpConnection) (call : SysRead) :
    (c.handleRead call).waterSide = c.waterSide := by
  unfold handleRead
  split
  · rfl
  · exact handleClose_waterSide _
  · split
    · exact record_waterSide _ (by simp)
    · rfl

/-- One step of a connection. -/
theorem connStep_follows {c c' : TcpConnection} {label : ConnLabel}
    (hStep : c.connStep label = some c') : Follows c.waterSide c'.waterSide := by
  cases label with
  | connectEstablished =>
      simp only [connStep, Option.ite_none_right_eq_some, Option.some.injEq] at hStep
      obtain ⟨-, rfl⟩ := hStep
      unfold connectEstablished
      rw [report_waterSide]
      exact (Sinks.of_eq rfl).follows
  | sendInLoop message call =>
      obtain rfl : c.sendInLoop message call = c' := by simpa [connStep] using hStep
      exact sendInLoop_follows c message call
  | shutdownInLoop =>
      simp only [connStep, Option.ite_none_left_eq_some, Option.some.injEq] at hStep
      obtain ⟨-, rfl⟩ := hStep
      exact (Sinks.of_eq (shutdownInLoop_waterSide c)).follows
  | forceCloseInLoop =>
      obtain rfl : c.forceCloseInLoop = c' := by simpa [connStep] using hStep
      unfold forceCloseInLoop
      split
      · exact (Sinks.of_eq (handleClose_waterSide c)).follows
      · exact (Sinks.of_eq rfl).follows
  | handleRead call =>
      simp only [connStep, Option.ite_none_left_eq_some, Option.some.injEq] at hStep
      obtain ⟨-, rfl⟩ := hStep
      exact (Sinks.of_eq (handleRead_waterSide c call)).follows
  | handleWrite call =>
      simp only [connStep, Option.ite_none_left_eq_some, Option.some.injEq] at hStep
      obtain ⟨-, rfl⟩ := hStep
      exact (handleWrite_sinks c call).follows
  | handleClose =>
      simp only [connStep, Option.ite_none_left_eq_some, Option.some.injEq] at hStep
      obtain ⟨-, rfl⟩ := hStep
      exact (Sinks.of_eq (handleClose_waterSide c)).follows
  | connectDestroyed =>
      obtain rfl : c.connectDestroyed = c' := by simpa [connStep] using hStep
      unfold connectDestroyed
      split
      · unfold beginDestroy
        rw [report_waterSide]
        exact (Sinks.of_eq rfl).follows
      · exact (Sinks.of_eq rfl).follows
  | leavePoller =>
      obtain rfl : c.leavePoller = c' := by simpa [connStep] using hStep
      unfold leavePoller
      split
      · exact (Sinks.of_eq rfl).follows
      · exact (Sinks.of_eq rfl).follows

/-! ## Whole runs -/

/-- The readable bytes of the output buffer after the first `i` steps of a run. -/
def sizeAfter (c : TcpConnection) (labels : List ConnLabel) (i : Nat) : Nat :=
  ((exec connStep c (labels.take i)).map fun c' => c'.outputBuffer.readableBytes).getD 0

/-- The steps of a run at which the length rises through the mark, in order. -/
def risingSteps (c : TcpConnection) (mark : Nat) (labels : List ConnLabel) : List Nat :=
  (List.range labels.length).filter fun i =>
    decide (Rises mark (c.sizeAfter labels i) (c.sizeAfter labels (i + 1)))

theorem sizeAfter_append {c : TcpConnection} {labels more : List ConnLabel} {i : Nat}
    (hI : i ≤ labels.length) : c.sizeAfter (labels ++ more) i = c.sizeAfter labels i := by
  rw [sizeAfter, sizeAfter, List.take_append_of_le_length hI]

theorem sizeAfter_length {c final : TcpConnection} {labels : List ConnLabel}
    (hRun : exec connStep c labels = some final) :
    c.sizeAfter labels labels.length = final.outputBuffer.readableBytes := by
  rw [sizeAfter, List.take_length, hRun]
  rfl

/-- One more step of a run. -/
theorem risingSteps_concat (c : TcpConnection) (mark : Nat) (labels : List ConnLabel)
    (label : ConnLabel) :
    c.risingSteps mark (labels ++ [label]) = c.risingSteps mark labels ++
      if Rises mark (c.sizeAfter labels labels.length)
        (c.sizeAfter (labels ++ [label]) (labels.length + 1)) then [labels.length] else [] := by
  unfold risingSteps
  rw [List.length_append, List.length_singleton, List.range_succ, List.filter_append]
  congr 1
  · refine List.filter_congr fun i hI => ?_
    have hLt : i < labels.length := List.mem_range.mp hI
    rw [sizeAfter_append (by omega), sizeAfter_append (by omega)]
  · rw [List.filter_singleton, sizeAfter_append le_rfl]
    simp

/-- The marks of a run with the callback set. -/
theorem highWaterMarks_run {c final : TcpConnection} {labels : List ConnLabel}
    (hInstalled : c.callbacks.highWaterMark = true)
    (hRun : exec connStep c labels = some final) :
    final.highWaterMark = c.highWaterMark ∧ final.callbacks.highWaterMark = true ∧
      final.highWaterMarks = c.highWaterMarks ++
        (c.risingSteps c.highWaterMark labels).map fun i => c.sizeAfter labels (i + 1) := by
  induction labels using List.reverseRecOn generalizing final with
  | nil =>
      obtain rfl : c = final := by simpa using hRun
      exact ⟨rfl, hInstalled, by simp [risingSteps]⟩
  | append_singleton labels label ih =>
      obtain ⟨before, hBefore, hLast⟩ := exists_of_exec_append hRun
      obtain ⟨after, hStep, hEnd⟩ := exec_cons_eq_some.mp hLast
      obtain rfl : after = final := by simpa using hEnd
      obtain ⟨hMark, hSet, hMarks⟩ := ih hBefore
      have hFollows := connStep_follows hStep
      refine ⟨hFollows.mark.trans hMark, hFollows.installed.trans hSet, ?_⟩
      have hSizeBefore : c.sizeAfter labels labels.length = before.outputBuffer.readableBytes :=
        sizeAfter_length hBefore
      have hSizeAfter : c.sizeAfter (labels ++ [label]) (labels.length + 1) =
          after.outputBuffer.readableBytes := by
        rw [← sizeAfter_length hRun, List.length_append, List.length_singleton]
      have hOld : (c.risingSteps c.highWaterMark labels).map
            (fun i => c.sizeAfter (labels ++ [label]) (i + 1)) =
          (c.risingSteps c.highWaterMark labels).map fun i => c.sizeAfter labels (i + 1) := by
        refine List.map_congr_left fun i hI => sizeAfter_append ?_
        have hLt : i < labels.length := List.mem_range.mp (List.mem_of_mem_filter hI)
        omega
      have hNew := hFollows.marks hSet
      simp only [waterSide, hMark] at hNew
      rw [hNew, hMarks, risingSteps_concat, List.map_append, hOld, hSizeBefore, hSizeAfter,
        List.append_assoc]
      congr 2
      split
      · simp [hSizeAfter]
      · rfl

/-- In every run of a connection with a high-water callback, the callbacks that were
queued are the steps at which the length of the output buffer rises through the mark,
in order and with the length after the step, and the length is below the mark at some
point between two of them. -/
theorem highWaterMarks_eq_risingSteps (callbacks : ConnCallbacks) (mark : Nat)
    (hInstalled : callbacks.highWaterMark = true)
    (labels : List ConnLabel) (final : TcpConnection)
    (hRun : exec connStep (new callbacks mark) labels = some final) :
    final.highWaterMarks = ((new callbacks mark).risingSteps mark labels).map
        (fun i => (new callbacks mark).sizeAfter labels (i + 1)) ∧
      ((new callbacks mark).risingSteps mark labels).Pairwise fun i j =>
        ∃ k, i + 1 ≤ k ∧ k ≤ j ∧ (new callbacks mark).sizeAfter labels k < mark := by
  constructor
  · exact (highWaterMarks_run (c := new callbacks mark) hInstalled hRun).2.2
  · refine List.Pairwise.imp_of_mem ?_ (List.pairwise_lt_range.filter _)
    intro i j _ hJ hLt
    have hRises : Rises mark ((new callbacks mark).sizeAfter labels j)
        ((new callbacks mark).sizeAfter labels (j + 1)) := by
      simpa using List.of_mem_filter hJ
    exact ⟨j, hLt, le_rfl, hRises.1⟩

/-- Three bytes cross a mark of 2, a write takes the length below it, and two more
bytes cross it again. -/
def twoCrossings : List ConnLabel :=
  [.connectEstablished, .sendInLoop [1, 2, 3] (.error EAGAIN EAGAIN), .handleWrite (.room 1),
    .sendInLoop [4, 5] (.room 1)]

theorem highWaterMarks_eq_risingSteps_twice :
    ∃ final, exec connStep (new ⟨true, true, true, true, .server⟩ 2) twoCrossings = some final ∧
      final.highWaterMarks = [3, 3] ∧
      final.highWaterMarks =
        ((new ⟨true, true, true, true, .server⟩ 2).risingSteps 2 twoCrossings).map fun i =>
          (new ⟨true, true, true, true, .server⟩ 2).sizeAfter twoCrossings (i + 1) := by
  refine ⟨_, rfl, by decide +kernel, ?_⟩
  exact (highWaterMarks_eq_risingSteps ⟨true, true, true, true, .server⟩ 2 rfl _ _ rfl).1

end TcpConnection
end SolarNet
