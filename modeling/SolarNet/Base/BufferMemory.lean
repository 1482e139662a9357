import SolarNet.Base.BufferPrepend

/-!
# The memory of a buffer

`MakeSpace` grows the vector only when the readable bytes and the new ones do not fit into
it, and then to less than twice their number.  `Retrieve` gives no memory back, but the
space in front of the readable bytes is used again.  So the memory of a buffer depends on
the largest backlog that it ever had, and not on the number of bytes that went through it.
-/

namespace SolarNet

open Lib

namespace Buffer

def capacity (b : Buffer) : Nat := b.data.length

/-- How many bytes the buffer holds or is asked to hold during an operation. -/
def demand (b : Buffer) : BufferOp → Nat
  | .append bytes => b.readableBytes + bytes.length
  | .appendInt8 _ => b.readableBytes + 1
  | .appendInt16 _ => b.readableBytes + 2
  | .appendInt32 _ => b.readableBytes + 4
  | .appendInt64 _ => b.readableBytes + 8
  | .ensureWritableBytes len | .reserve len => b.readableBytes + len
  | .readFd (.data stream) => b.readableBytes + (stream.take b.readvCapacity).length
  | _ => b.readableBytes

/-- The vector stays as long as it is when `demand` bytes fit behind the prepend region,
and otherwise grows to less than twice their number. -/
structure Grows (demand : Nat) (b b' : Buffer) : Prop where
  le : b.capacity ≤ b'.capacity
  fits : demand + kInitialPrepend ≤ b.capacity → b'.capacity = b.capacity
  bounded : b'.capacity ≤ max b.capacity (2 * demand + 7)

theorem Grows.of_eq {demand : Nat} {b b' : Buffer} (hEq : b'.capacity = b.capacity) :
    Grows demand b b' :=
  ⟨hEq.ge, fun _ => hEq, hEq.le.trans (le_max_left _ _)⟩

theorem makeSpace_grows {b b' : Buffer} (hValid : b.Valid) {len : Nat}
    (hNeed : b.writableBytes < len) (hSpace : b.makeSpace len = some b') :
    Grows (b.readableBytes + len) b b' := by
  have hOrder := hValid.reader_le_writer
  have hSize := hValid.writer_le_size
  unfold makeSpace at hSpace
  split at hSpace
  · next hGrow =>
    obtain rfl := Option.some.inj hSpace
    have hLength : capacity { b with data := resize b.data (b.writerIndex + len) 0 } =
        b.writerIndex + len := length_resize _ _ _
    unfold writableBytes prependableBytes kInitialPrepend at hGrow
    unfold writableBytes at hNeed
    have hReadable : b.readableBytes + b.readerIndex = b.writerIndex := Nat.sub_add_cancel hOrder
    refine ⟨?_, fun hFits => ?_, ?_⟩
    · rw [hLength, capacity]
      omega
    · unfold capacity kInitialPrepend at hFits
      omega
    · rw [hLength]
      refine le_max_of_le_right ?_
      omega
  · obtain ⟨data, hMove, rfl⟩ := Option.map_eq_some_iff.mp hSpace
    exact .of_eq (length_of_move hMove)

theorem ensureWritableBytes_grows {b b' : Buffer} (hValid : b.Valid) {len : Nat}
    (hEnsure : b.ensureWritableBytes len = some b') : Grows (b.readableBytes + len) b b' := by
  unfold ensureWritableBytes at hEnsure
  split at hEnsure
  · next hNeed => exact makeSpace_grows hValid hNeed hEnsure
  · obtain rfl := Option.some.inj hEnsure
    exact .of_eq rfl

theorem append_grows {b b' : Buffer} (hValid : b.Valid) {bytes : List Byte}
    (hAppend : b.append bytes = some b') : Grows (b.readableBytes + bytes.length) b b' := by
  unfold append at hAppend
  obtain ⟨space, hEnsure, hRest⟩ := Option.bind_eq_some_iff.mp hAppend
  obtain ⟨data, hWrite, hLast⟩ := Option.bind_eq_some_iff.mp hRest
  obtain rfl := Option.some.inj hLast
  have hGrows := ensureWritableBytes_grows hValid hEnsure
  have hLength : capacity { space with
      data := data, writerIndex := space.writerIndex + bytes.length } = space.capacity :=
    length_of_write hWrite
  exact ⟨hLength ▸ hGrows.le, fun hFits => hLength.trans (hGrows.fits hFits),
    hLength ▸ hGrows.bounded⟩

/-- `ReadFd` fills the vector first, and appends what `extrabuf` received. -/
theorem readFd_grows {b b' : Buffer} (hValid : b.Valid) {stream : List Byte}
    {result : Except Errno Nat} (hRead : b.readFd (.data stream) = some (b', result)) :
    Grows (b.readableBytes + (stream.take b.readvCapacity).length) b b' := by
  simp only [readFd] at hRead
  generalize stream.take b.readvCapacity = bytes at hRead ⊢
  obtain ⟨data, hWrite, hRest⟩ := Option.bind_eq_some_iff.mp hRead
  have hLength : data.length = b.data.length := length_of_write hWrite
  split at hRest
  · obtain ⟨rfl, -⟩ := Prod.mk.inj (Option.some.inj hRest)
    exact .of_eq hLength
  · next hMore =>
    obtain ⟨last, hAppend, hReturn⟩ := Option.bind_eq_some_iff.mp hRest
    obtain ⟨rfl, -⟩ := Prod.mk.inj (Option.some.inj hReturn)
    have hOrder := hValid.reader_le_writer
    have hSize := hValid.writer_le_size
    have hFull : Valid { b with data := data, writerIndex := data.length } := by
      have hPrepend := hValid.prepend_le_writer
      refine ⟨?_, ?_, le_rfl⟩
      · show kInitialPrepend ≤ data.length
        omega
      · show b.readerIndex ≤ data.length
        omega
    have hGrows := append_grows hFull hAppend
    have hDemand : readableBytes { b with data := data, writerIndex := data.length } +
        (bytes.drop b.writableBytes).length = b.readableBytes + bytes.length := by
      rw [List.length_drop]
      simp only [readableBytes, writableBytes] at hMore ⊢
      omega
    rw [hDemand] at hGrows
    have hSame : capacity { b with data := data, writerIndex := data.length } = b.capacity :=
      hLength
    exact ⟨hSame ▸ hGrows.le, hSame ▸ hGrows.fits, hSame ▸ hGrows.bounded⟩

theorem retrieve_capacity (b : Buffer) (len : Nat) : (b.retrieve len).capacity = b.capacity := by
  unfold retrieve
  split <;> rfl

theorem retrieveUntil_capacity (b : Buffer) (delimiter : List Byte) :
    (b.retrieveUntil delimiter).capacity = b.capacity := by
  unfold retrieveUntil
  split
  · exact retrieve_capacity b _
  · rfl

theorem writeFd_capacity (b : Buffer) (call : SysWrite) :
    (b.writeFd call).1.capacity = b.capacity := by
  unfold writeFd
  split
  · rfl
  · exact retrieve_capacity b _

theorem apply_grows (native : Endian) {b b' : Buffer} (hValid : b.Valid) {op : BufferOp}
    {reply : BufferReply} (hApply : b.apply native op = some (b', reply)) :
    Grows (b.demand op) b b' := by
  have hMap : ∀ call : Option Buffer, call.map (·, BufferReply.done) = some (b', reply) →
      call = some b' := by
    intro call hCall
    obtain ⟨b'', hSome, hPair⟩ := Option.map_eq_some_iff.mp hCall
    rw [hSome, (Prod.mk.inj hPair).1]
  have hKept : ∀ after : Buffer × BufferReply, some after = some (b', reply) →
      after.1.capacity = b.capacity → Grows (b.demand op) b b' := by
    intro after hAfter hSame
    obtain rfl := Option.some.inj hAfter
    exact .of_eq hSame
  cases op with
  | append bytes => exact append_grows hValid (hMap _ hApply)
  | appendInt8 value =>
      simpa [demand] using append_grows hValid (hMap _ hApply)
  | appendInt16 value =>
      simpa [demand] using append_grows hValid (hMap _ hApply)
  | appendInt32 value =>
      simpa [demand] using append_grows hValid (hMap _ hApply)
  | appendInt64 value =>
      simpa [demand] using append_grows hValid (hMap _ hApply)
  | ensureWritableBytes len | reserve len =>
      exact ensureWritableBytes_grows hValid (hMap _ hApply)
  | retrieve len | retrieveAsString len | readString len =>
      exact hKept _ hApply (retrieve_capacity b len)
  | retrieveAll | retrieveAllAsString => exact hKept _ hApply rfl
  | retrieveUntil delimiter => exact hKept _ hApply (retrieveUntil_capacity b delimiter)
  | readInt8 | readInt16 | readInt32 | readInt64 =>
      exact hKept _ hApply (retrieve_capacity b _)
  | readFd call =>
      obtain ⟨⟨last, result⟩, hRead, hPair⟩ := Option.map_eq_some_iff.mp hApply
      obtain ⟨rfl, -⟩ := Prod.mk.inj hPair
      cases call with
      | error errno =>
          obtain ⟨rfl, -⟩ := Prod.mk.inj (Option.some.inj hRead)
          exact .of_eq rfl
      | data stream => exact readFd_grows hValid hRead
  | writeFd call => exact hKept _ hApply (writeFd_capacity b call)

/-- `Prepend` writes into the vector it finds. -/
theorem prepend_capacity {b b' : Buffer} {bytes : List Byte}
    (hPrepend : b.prepend bytes = some b') : b'.capacity = b.capacity := by
  have hFront : ∃ front : Buffer, front.capacity = b.capacity ∧
      (if bytes.length > front.prependableBytes then some front
        else (write front.data (front.readerIndex - bytes.length) bytes).bind fun data =>
          some { front with data := data, readerIndex := front.readerIndex - bytes.length }) =
        some b' := by
    simp only [prepend] at hPrepend
    split at hPrepend
    · obtain ⟨front, hShift, hRest⟩ := Option.bind_eq_some_iff.mp hPrepend
      obtain ⟨moved, hMove, rfl⟩ := Option.map_eq_some_iff.mp hShift
      exact ⟨_, length_of_move hMove, hRest⟩
    · exact ⟨b, rfl, hPrepend⟩
  obtain ⟨front, hSame, hRest⟩ := hFront
  rw [← hSame]
  split at hRest
  · rw [← Option.some.inj hRest]
  · obtain ⟨data, hWrite, hLast⟩ := Option.bind_eq_some_iff.mp hRest
    rw [← Option.some.inj hLast]
    exact length_of_write hWrite

end Buffer

/-! ## Runs -/

variable {ι : Type*} [DecidableEq ι]

/-- How many bytes one buffer holds or is asked to hold during a step.  `Swap`, `Prepend`
and `Shrink` make no space. -/
def actionDemand (pool : ι → Buffer) : BufferAction ι → Nat
  | .pool (.on index op) => (pool index).demand op
  | _ => 0

/-- Every buffer is valid and has at most so much memory. -/
def Within (limit : Nat) (pool : ι → Buffer) : Prop :=
  ∀ index, (pool index).Valid ∧ (pool index).capacity ≤ limit

theorem stepBuffers_within (native : Endian) {limit : Nat} {pool pool' : ι → Buffer}
    {action : BufferAction ι} (hWithin : Within limit pool)
    (hDemand : 2 * actionDemand pool action + 7 ≤ limit)
    (hStep : stepBuffers native pool action = some pool') : Within limit pool' := by
  have hPrepend : ∀ b bytes b', Buffer.Valid b ∧ b.capacity ≤ limit →
      Buffer.prepend b bytes = some b' → b'.Valid ∧ b'.capacity ≤ limit := by
    rintro b bytes b' ⟨hValid, hLimit⟩ hSome
    exact ⟨Buffer.prepend_valid hValid hSome, (Buffer.prepend_capacity hSome).trans_le hLimit⟩
  refine stepBuffers_all hPrepend hWithin hStep ?_
  rintro index op rfl
  obtain ⟨hValid, hLimit⟩ := hWithin index
  obtain ⟨b', reply, hApply, hKeeps, -⟩ := Buffer.apply_refines native hValid op
  have hGrows := Buffer.apply_grows native hValid hApply
  obtain rfl : Function.update pool index b' = pool' := by
    simpa [stepBuffers, stepPool, hApply] using hStep
  exact update_all (P := fun b => b.Valid ∧ b.capacity ≤ limit) hWithin
    ⟨hKeeps.valid, hGrows.bounded.trans (max_le hLimit hDemand)⟩

/-- Three messages of four bytes go through a buffer that was made for two; the last is put
in front of what the reader left. -/
def smallBuffer : List (BufferAction Unit) :=
  [.pool (.on () (.append [1, 2, 3, 4])), .pool (.on () (.retrieve 3)),
    .pool (.on () (.append [5, 6, 7, 8])), .pool (.on () (.retrieve 4)),
    .prepend () [9, 10, 11, 12]]

end SolarNet
