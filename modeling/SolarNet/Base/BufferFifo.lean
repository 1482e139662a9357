import SolarNet.Lib.Run
import SolarNet.Base.BufferSpec

/-!
# `Buffer` is a byte queue

The abstract object is a queue of bytes.  `ByteQueue.Accepts q (op, reply) q'`
says that the queue may answer `op` by `reply` and become `q'`: appends add at
the back, retrieves remove from the front, a read from a file descriptor adds
exactly the bytes it reports, and every returned string or integer is the front
of the queue.

`Swap` connects two buffers, so the concrete machine is a family of buffers,
indexed by any type, on which operations act at one index and `swap` exchanges
two.  The main theorem states that every sequence of operations on such a
family is defined, keeps the index invariant of every buffer, and is a trace of
the corresponding family of queues.
-/

namespace SolarNet

open Lib

/-- The operations of `Buffer` on one object. -/
inductive BufferOp where
  | append (bytes : List Byte)
  | appendInt8 (value : BitVec (8 * 1))
  | appendInt16 (value : BitVec (8 * 2))
  | appendInt32 (value : BitVec (8 * 4))
  | appendInt64 (value : BitVec (8 * 8))
  | ensureWritableBytes (len : Nat)
  | reserve (len : Nat)
  | retrieve (len : Nat)
  | retrieveAll
  | retrieveUntil (delimiter : List Byte)
  | retrieveAsString (len : Nat)
  | retrieveAllAsString
  | readInt8
  | readInt16
  | readInt32
  | readInt64
  | readString (len : Nat)
  | readFd (call : SysRead)
  | writeFd (call : SysWrite)

/-- What an operation returns to its caller. -/
inductive BufferReply where
  | done
  | string (bytes : List Byte)
  | int8 (value : BitVec (8 * 1))
  | int16 (value : BitVec (8 * 2))
  | int32 (value : BitVec (8 * 4))
  | int64 (value : BitVec (8 * 8))
  | io (result : Except Errno Nat)

/-- Execute one operation.  `native` is the byte order of the machine. -/
def Buffer.apply (native : Endian) (b : Buffer) :
    BufferOp → Option (Buffer × BufferReply)
  | .append bytes => (b.append bytes).map (·, .done)
  | .appendInt8 value => (b.appendInt8 native value).map (·, .done)
  | .appendInt16 value => (b.appendInt16 native value).map (·, .done)
  | .appendInt32 value => (b.appendInt32 native value).map (·, .done)
  | .appendInt64 value => (b.appendInt64 native value).map (·, .done)
  | .ensureWritableBytes len => (b.ensureWritableBytes len).map (·, .done)
  | .reserve len => (b.reserve len).map (·, .done)
  | .retrieve len => some (b.retrieve len, .done)
  | .retrieveAll => some (b.retrieveAll, .done)
  | .retrieveUntil delimiter => some (b.retrieveUntil delimiter, .done)
  | .retrieveAsString len =>
      some ((b.retrieveAsString len).1, .string (b.retrieveAsString len).2)
  | .retrieveAllAsString =>
      some (b.retrieveAllAsString.1, .string b.retrieveAllAsString.2)
  | .readInt8 => some ((b.readInt8 native).1, .int8 (b.readInt8 native).2)
  | .readInt16 => some ((b.readInt16 native).1, .int16 (b.readInt16 native).2)
  | .readInt32 => some ((b.readInt32 native).1, .int32 (b.readInt32 native).2)
  | .readInt64 => some ((b.readInt64 native).1, .int64 (b.readInt64 native).2)
  | .readString len => some ((b.readString len).1, .string (b.readString len).2)
  | .readFd call => (b.readFd call).map fun after => (after.1, .io after.2)
  | .writeFd call => some ((b.writeFd call).1, .io (b.writeFd call).2)

/-! ## The abstract queue -/

/-- A queue of bytes; the head of the list is the front. -/
abbrev ByteQueue := List Byte

namespace ByteQueue

open Classical in
/-- Remove everything through the end of the first occurrence of `delimiter`;
without an occurrence nothing is removed. -/
noncomputable def removeThrough (q : ByteQueue) (delimiter : List Byte) : ByteQueue :=
  if hOccurs : ∃ position, OccursAt delimiter q position then
    q.drop (Nat.find hOccurs + delimiter.length)
  else
    q

/-- The big-endian number at the front; zero when the queue is too short. -/
def frontInt (q : ByteQueue) (size : Nat) : BitVec (8 * size) :=
  if q.length < size then 0 else ofObjectBytes .big size (q.take size)

/-- Remove at most `len` bytes from the front. -/
def remove (q : ByteQueue) (len : Nat) : ByteQueue := q.drop (min len q.length)

/-- The transitions of the abstract queue. -/
def Accepts (q : ByteQueue) : BufferOp × BufferReply → ByteQueue → Prop
  | (.append bytes, .done), q' => q' = q ++ bytes
  | (.appendInt8 value, .done), q' => q' = q ++ objectBytes .big value
  | (.appendInt16 value, .done), q' => q' = q ++ objectBytes .big value
  | (.appendInt32 value, .done), q' => q' = q ++ objectBytes .big value
  | (.appendInt64 value, .done), q' => q' = q ++ objectBytes .big value
  | (.ensureWritableBytes _, .done), q' => q' = q
  | (.reserve _, .done), q' => q' = q
  | (.retrieve len, .done), q' => q' = q.remove len
  | (.retrieveAll, .done), q' => q' = []
  | (.retrieveUntil delimiter, .done), q' => q' = q.removeThrough delimiter
  | (.retrieveAsString len, .string bytes), q' => bytes = q.take len ∧ q' = q.remove len
  | (.retrieveAllAsString, .string bytes), q' => bytes = q ∧ q' = []
  | (.readInt8, .int8 value), q' => value = q.frontInt 1 ∧ q' = q.remove 1
  | (.readInt16, .int16 value), q' => value = q.frontInt 2 ∧ q' = q.remove 2
  | (.readInt32, .int32 value), q' => value = q.frontInt 4 ∧ q' = q.remove 4
  | (.readInt64, .int64 value), q' => value = q.frontInt 8 ∧ q' = q.remove 8
  | (.readString len, .string bytes), q' => bytes = q.take len ∧ q' = q.remove len
  | (.readFd (.error errno), .io (.error reported)), q' => reported = errno ∧ q' = q
  | (.readFd (.data stream), .io (.ok n)), q' =>
      n ≤ stream.length ∧ q' = q ++ stream.take n
  | (.writeFd (.error errno _), .io (.error reported)), q' => reported = errno ∧ q' = q
  | (.writeFd (.room count), .io (.ok n)), q' =>
      n = min count q.length ∧ q' = q.drop n
  | _, _ => False

theorem remove_eq_drop (q : ByteQueue) (len : Nat) : q.remove len = q.drop len := by
  by_cases hLen : len ≤ q.length
  · rw [remove, Nat.min_eq_left hLen]
  · rw [remove, Nat.min_eq_right (by omega), List.drop_length,
      List.drop_of_length_le (by omega)]

end ByteQueue

/-! ## One operation -/

namespace Buffer

theorem retrieve_refines {b : Buffer} (hValid : b.Valid) (len : Nat) :
    Keeps b (b.retrieve len) ∧
      (b.retrieve len).readable = ByteQueue.remove b.readable len :=
  ⟨retrieve_keeps hValid len, by
    rw [retrieve_readable hValid, ByteQueue.remove_eq_drop]⟩

/-- The search that the code makes finds the first occurrence of the
delimiter. -/
theorem retrieveUntil_readable {b : Buffer} (hValid : b.Valid) (delimiter : List Byte) :
    (b.retrieveUntil delimiter).readable =
      ByteQueue.removeThrough b.readable delimiter := by
  classical
  unfold retrieveUntil ByteQueue.removeThrough
  cases hFind : findSub delimiter b.readable with
  | some position =>
      obtain ⟨hOccurs, hFirst⟩ := findSub_eq_some hFind
      have hExists : ∃ position, OccursAt delimiter b.readable position :=
        ⟨position, hOccurs⟩
      have hLeast : Nat.find hExists = position := by
        rw [Nat.find_eq_iff]
        exact ⟨hOccurs, hFirst⟩
      rw [dif_pos hExists, hLeast]
      exact retrieve_readable hValid _
  | none =>
      have hNone : ¬ ∃ position, OccursAt delimiter b.readable position := by
        rintro ⟨position, hOccurs⟩
        exact findSub_eq_none hFind position hOccurs
      rw [dif_neg hNone]

theorem readFd_refines {b : Buffer} (hValid : b.Valid) (call : SysRead) :
    ∃ b' reply, b.readFd call = some (b', reply) ∧ Keeps b b' ∧
      ByteQueue.Accepts b.readable (.readFd call, .io reply) b'.readable := by
  cases call with
  | error errno => exact ⟨b, .error errno, rfl, .refl hValid, rfl, rfl⟩
  | data stream =>
      obtain ⟨b', hRead, hAfterWF, hAfterReadable⟩ := readFd_data_spec hValid stream
      refine ⟨b', _, hRead, hAfterWF, ?_, ?_⟩
      · rw [List.length_take]
        exact Nat.min_le_right _ _
      · rw [hAfterReadable]
        congr 1
        rw [List.length_take, ← List.take_eq_take_min]

theorem writeFd_refines {b : Buffer} (hValid : b.Valid) (call : SysWrite) :
    Keeps b (b.writeFd call).1 ∧
      ByteQueue.Accepts b.readable (.writeFd call, .io (b.writeFd call).2)
        (b.writeFd call).1.readable := by
  cases call with
  | error errno => exact ⟨.refl hValid, rfl, rfl⟩
  | room count =>
      have hWrite : b.writeFd (.room count) =
          (b.retrieve (min count b.readableBytes), .ok (min count b.readableBytes)) :=
        writeFd_ok rfl
      rw [hWrite]
      refine ⟨retrieve_keeps hValid _, ?_, retrieve_readable hValid _⟩
      rw [hValid.length_readable]

/-- Every operation on a valid buffer is defined, keeps it valid, and is a transition
of the queue of its readable bytes. -/
theorem apply_refines (native : Endian) {b : Buffer} (hValid : b.Valid) (op : BufferOp) :
    ∃ b' reply, b.apply native op = some (b', reply) ∧ Keeps b b' ∧
      ByteQueue.Accepts b.readable (op, reply) b'.readable := by
  cases op with
  | append bytes =>
      obtain ⟨b', hAppend, hSpec⟩ := append_spec hValid bytes
      exact ⟨b', .done, by simp [apply, hAppend], hSpec⟩
  | appendInt8 value =>
      obtain ⟨b', hAppend, hAfter, hReadable⟩ :=
        append_spec hValid (objectBytes native value)
      rw [objectBytes_one] at hReadable
      exact ⟨b', .done, by simp [apply, appendInt8, hAppend], hAfter, hReadable⟩
  | appendInt16 value =>
      obtain ⟨b', hAppend, hSpec⟩ := appendInt_spec native hValid value
      exact ⟨b', .done, by simp [apply, appendInt16, hAppend], hSpec⟩
  | appendInt32 value =>
      obtain ⟨b', hAppend, hSpec⟩ := appendInt_spec native hValid value
      exact ⟨b', .done, by simp [apply, appendInt32, hAppend], hSpec⟩
  | appendInt64 value =>
      obtain ⟨b', hAppend, hSpec⟩ := appendInt_spec native hValid value
      exact ⟨b', .done, by simp [apply, appendInt64, hAppend], hSpec⟩
  | ensureWritableBytes len =>
      obtain ⟨b', hEnsure, hAfter, hReadable, -⟩ := ensureWritableBytes_spec hValid len
      exact ⟨b', .done, by simp [apply, hEnsure], hAfter, hReadable⟩
  | reserve len =>
      obtain ⟨b', hEnsure, hAfter, hReadable, -⟩ := ensureWritableBytes_spec hValid len
      exact ⟨b', .done, by simp [apply, reserve, hEnsure], hAfter, hReadable⟩
  | retrieve len => exact ⟨_, .done, rfl, retrieve_refines hValid len⟩
  | retrieveAll =>
      exact ⟨_, .done, rfl, retrieveAll_keeps hValid, retrieveAll_readable b⟩
  | retrieveUntil delimiter =>
      exact ⟨_, .done, rfl, retrieveUntil_keeps hValid delimiter,
        retrieveUntil_readable hValid delimiter⟩
  | retrieveAsString len =>
      obtain ⟨hAfter, hReadable⟩ := retrieve_refines hValid len
      exact ⟨_, _, rfl, hAfter, rfl, hReadable⟩
  | retrieveAllAsString =>
      exact ⟨_, _, rfl, retrieveAll_keeps hValid, rfl, retrieveAll_readable b⟩
  | readInt8 =>
      obtain ⟨hAfter, hReadable⟩ := retrieve_refines hValid 1
      exact ⟨_, _, rfl, hAfter, peekInt8_eq native hValid, hReadable⟩
  | readInt16 =>
      obtain ⟨hAfter, hReadable⟩ := retrieve_refines hValid 2
      exact ⟨_, _, rfl, hAfter, peekInt_eq native 2 hValid, hReadable⟩
  | readInt32 =>
      obtain ⟨hAfter, hReadable⟩ := retrieve_refines hValid 4
      exact ⟨_, _, rfl, hAfter, peekInt_eq native 4 hValid, hReadable⟩
  | readInt64 =>
      obtain ⟨hAfter, hReadable⟩ := retrieve_refines hValid 8
      exact ⟨_, _, rfl, hAfter, peekInt_eq native 8 hValid, hReadable⟩
  | readString len =>
      obtain ⟨hAfter, hReadable⟩ := retrieve_refines hValid len
      exact ⟨_, _, rfl, hAfter, rfl, hReadable⟩
  | readFd call =>
      obtain ⟨b', reply, hRead, hSpec⟩ := readFd_refines hValid call
      exact ⟨b', .io reply, by simp [apply, hRead], hSpec⟩
  | writeFd call => exact ⟨_, _, rfl, writeFd_refines hValid call⟩

end Buffer

/-! ## A family of buffers -/

/-- An operation at one index of a family, or a `Swap` of two members. -/
inductive BufferPoolOp (ι : Type*) where
  | on (index : ι) (op : BufferOp)
  | swap (first second : ι)

variable {ι : Type*} [DecidableEq ι]

/-- Exchange the entries at two indices. -/
def swapEntries {α : Type*} (family : ι → α) (first second : ι) : ι → α :=
  Function.update (Function.update family first (family second)) second (family first)

theorem swapEntries_apply {α β : Type*} (f : α → β) (family : ι → α)
    (first second index : ι) :
    f (swapEntries family first second index) =
      swapEntries (f ∘ family) first second index := by
  unfold swapEntries
  by_cases hSecond : index = second
  · subst hSecond
    simp
  · by_cases hFirst : index = first
    · subst hFirst
      simp [hSecond]
    · simp [hSecond, hFirst]

/-- One step of a family of buffers. -/
def stepPool (native : Endian) (pool : ι → Buffer) :
    BufferPoolOp ι → Option ((ι → Buffer) × BufferReply)
  | .on index op =>
      ((pool index).apply native op).map fun after =>
        (Function.update pool index after.1, after.2)
  | .swap first second => some (swapEntries pool first second, .done)

/-- One transition of a family of byte queues. -/
def AcceptsPool (queues : ι → ByteQueue) :
    BufferPoolOp ι × BufferReply → (ι → ByteQueue) → Prop
  | (.on index op, reply), queues' =>
      ∃ q', ByteQueue.Accepts (queues index) (op, reply) q' ∧
        queues' = Function.update queues index q'
  | (.swap first second, _), queues' => queues' = swapEntries queues first second

/-- The representation relation: every member is well formed and its readable
bytes are the corresponding queue. -/
def RepresentsPool (pool : ι → Buffer) (queues : ι → ByteQueue) : Prop :=
  ∀ index, (pool index).WF ∧ (pool index).readable = queues index

theorem stepPool_refines (native : Endian) (pool : ι → Buffer)
    (queues : ι → ByteQueue) (op : BufferPoolOp ι)
    (hRep : RepresentsPool pool queues) :
    ∃ pool' reply queues', stepPool native pool op = some (pool', reply) ∧
      AcceptsPool queues (op, reply) queues' ∧ RepresentsPool pool' queues' := by
  cases op with
  | on index op =>
      obtain ⟨b', reply, hApply, hKeeps, hAccepts⟩ :=
        Buffer.apply_refines native (hRep index).1.valid op
      rw [(hRep index).2] at hAccepts
      refine ⟨Function.update pool index b', reply,
        Function.update queues index b'.readable, by simp [stepPool, hApply],
        ⟨b'.readable, hAccepts, rfl⟩, ?_⟩
      intro other
      by_cases hOther : other = index
      · subst hOther
        simpa using hKeeps.wf (hRep other).1
      · simpa [hOther] using hRep other
  | swap first second =>
      refine ⟨swapEntries pool first second, .done, swapEntries queues first second,
        rfl, rfl, ?_⟩
      intro index
      have hReadable : Buffer.readable ∘ pool = queues :=
        funext fun other => (hRep other).2
      constructor
      · unfold swapEntries
        by_cases hSecond : index = second
        · subst hSecond
          simpa using (hRep first).1
        · by_cases hFirst : index = first
          · subst hFirst
            simpa [hSecond] using (hRep second).1
          · simpa [hSecond, hFirst] using (hRep index).1
      · rw [swapEntries_apply Buffer.readable, hReadable]

/-- **`Buffer` refines a byte queue.**  For every family of freshly constructed
buffers and every sequence of operations: no operation leaves `m_data`, every
buffer satisfies the index invariant, and the operations with their answers are
a trace of byte queues whose content is the readable bytes. -/
theorem buffer_refines_byte_queue (native : Endian) (initialSize : ι → Nat)
    (ops : List (BufferPoolOp ι)) :
    ∃ pool replies queues,
      execReply (stepPool native) (fun index => Buffer.new (initialSize index)) ops =
          some (pool, replies) ∧
        replies.length = ops.length ∧
        Path AcceptsPool (fun _ => []) (ops.zip replies) queues ∧
        ∀ index, (pool index).WF ∧ (pool index).readable = queues index := by
  refine execReply_simulation RepresentsPool (stepPool_refines native) ?_ ops
  intro index
  exact ⟨Buffer.new_wf _, Buffer.new_readable _⟩

/-- A read that overruns the writable bytes of a small buffer comes back in
order, and the delimiter is removed with everything in front of it. -/
example :
    (execReply (stepPool .little) (fun _ : Unit => Buffer.new 2)
      [.on () (.readFd (.data [1, 2, 3, 4, 5])), .on () (.retrieveUntil [2, 3]),
        .on () .retrieveAllAsString]).map (fun final => (final.1 ()).readerIndex) =
      some Buffer.kInitialPrepend := by
  decide

end SolarNet
