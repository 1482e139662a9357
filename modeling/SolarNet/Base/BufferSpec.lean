import SolarNet.Base.Buffer

/-!
# What each buffer operation does to the readable bytes

`Buffer.Valid` says that the indices are in order; it holds of every buffer,
also of one that was prepended to.  As long as nothing is prepended the standard
prepend region stays free as well, which is `Buffer.WF`.  For every operation
there is one specification lemma: on a valid buffer the operation is defined, it
keeps both invariants (`Keeps`), and its effect on `readable` is an operation on
lists.  Nothing outside this file unfolds an operation of the buffer.
-/

namespace SolarNet
namespace Buffer

open Lib

/-- The index invariant: prepend region, readable bytes and writable bytes lie
behind each other inside the vector. -/
structure WF (b : Buffer) : Prop where
  prepend_le_reader : kInitialPrepend ≤ b.readerIndex
  reader_le_writer : b.readerIndex ≤ b.writerIndex
  writer_le_size : b.writerIndex ≤ b.data.length

/-- The indices are in order.  The readable bytes may begin in the prepend region. -/
structure Valid (b : Buffer) : Prop where
  prepend_le_writer : kInitialPrepend ≤ b.writerIndex
  reader_le_writer : b.readerIndex ≤ b.writerIndex
  writer_le_size : b.writerIndex ≤ b.data.length

theorem WF.valid {b : Buffer} (hWF : b.WF) : b.Valid where
  prepend_le_writer := hWF.prepend_le_reader.trans hWF.reader_le_writer
  reader_le_writer := hWF.reader_le_writer
  writer_le_size := hWF.writer_le_size

/-- `b'` is valid, and its prepend region is free if the one of `b` is. -/
structure Keeps (b b' : Buffer) : Prop where
  valid : b'.Valid
  prepend : kInitialPrepend ≤ b.readerIndex → kInitialPrepend ≤ b'.readerIndex

theorem Keeps.wf {b b' : Buffer} (hKeeps : Keeps b b') (hWF : b.WF) : b'.WF where
  prepend_le_reader := hKeeps.prepend hWF.prepend_le_reader
  reader_le_writer := hKeeps.valid.reader_le_writer
  writer_le_size := hKeeps.valid.writer_le_size

theorem Keeps.refl {b : Buffer} (hValid : b.Valid) : Keeps b b := ⟨hValid, id⟩

theorem Keeps.trans {b b' b'' : Buffer} (hFirst : Keeps b b') (hSecond : Keeps b' b'') :
    Keeps b b'' :=
  ⟨hSecond.valid, fun hPrepend => hSecond.prepend (hFirst.prepend hPrepend)⟩

theorem new_wf (initialSize : Nat) : (new initialSize).WF where
  prepend_le_reader := le_rfl
  reader_le_writer := le_rfl
  writer_le_size := by simp [new]

@[simp] theorem new_readable (initialSize : Nat) : (new initialSize).readable = [] := by
  simp [readable, readableBytes, new, slice]

/-- In a valid buffer the readable range lies inside the vector. -/
theorem Valid.readable_range {b : Buffer} (hValid : b.Valid) :
    b.readerIndex + b.readableBytes ≤ b.data.length := by
  have hOrder := hValid.reader_le_writer
  have hSize := hValid.writer_le_size
  unfold readableBytes
  omega

theorem Valid.length_readable {b : Buffer} (hValid : b.Valid) :
    b.readable.length = b.readableBytes :=
  length_slice hValid.readable_range

/-! ## Space -/

/-- Moving the readable bytes to the standard prepend region, where they fit. -/
theorem shift_spec {b : Buffer} (hValid : b.Valid)
    (hFront : kInitialPrepend + b.readableBytes ≤ b.data.length) :
    ∃ data, move b.data kInitialPrepend b.readerIndex b.readableBytes = some data ∧
      data.length = b.data.length ∧
      Keeps b ⟨data, kInitialPrepend, kInitialPrepend + b.readableBytes⟩ ∧
      readable ⟨data, kInitialPrepend, kInitialPrepend + b.readableBytes⟩ = b.readable := by
  obtain ⟨data, hMove, hLength, hSlice⟩ := move_isSome hValid.readable_range hFront
  refine ⟨data, hMove, hLength, ⟨⟨?_, ?_, ?_⟩, fun _ => le_rfl⟩, ?_⟩
  · exact Nat.le_add_right _ _
  · exact Nat.le_add_right _ _
  · show kInitialPrepend + b.readableBytes ≤ data.length
    rw [hLength]
    exact hFront
  · have hCount : kInitialPrepend + b.readableBytes - kInitialPrepend =
        b.readableBytes := Nat.add_sub_cancel_left _ _
    show slice data kInitialPrepend
      (kInitialPrepend + b.readableBytes - kInitialPrepend) = b.readable
    rw [hCount]
    exact hSlice

theorem makeSpace_spec {b : Buffer} (hValid : b.Valid) {len : Nat}
    (hNeed : b.writableBytes < len) :
    ∃ b', b.makeSpace len = some b' ∧ Keeps b b' ∧ b'.readable = b.readable ∧
      len ≤ b'.writableBytes := by
  have hOrder := hValid.reader_le_writer
  have hSize := hValid.writer_le_size
  by_cases hGrow : b.writableBytes + b.prependableBytes < len + kInitialPrepend
  · -- The free space in front and behind together is too small: the vector grows.
    refine ⟨{ b with data := resize b.data (b.writerIndex + len) 0 },
      by simp [makeSpace, hGrow],
      ⟨⟨hValid.prepend_le_writer, hOrder, ?_⟩, fun hPrepend => hPrepend⟩, ?_, ?_⟩
    · show b.writerIndex ≤ (resize b.data (b.writerIndex + len) 0).length
      rw [length_resize]
      omega
    · have hLarger : b.data.length ≤ b.writerIndex + len := by
        unfold writableBytes at hNeed
        omega
      exact slice_resize 0 hValid.readable_range hLarger
    · show len ≤ (resize b.data (b.writerIndex + len) 0).length - b.writerIndex
      rw [length_resize]
      omega
  · -- Otherwise the readable bytes slide down to the standard prepend region.
    have hFront : kInitialPrepend + b.readableBytes ≤ b.data.length := by
      have hRange := hValid.readable_range
      unfold prependableBytes at hGrow
      omega
    obtain ⟨data, hMove, hLength, hKeeps, hReadable⟩ := shift_spec hValid hFront
    refine ⟨_, by simp only [makeSpace, if_neg hGrow, hMove, Option.map_some], hKeeps,
      hReadable, ?_⟩
    show len ≤ data.length - (kInitialPrepend + b.readableBytes)
    rw [hLength]
    unfold writableBytes prependableBytes at hGrow
    unfold readableBytes
    omega

theorem ensureWritableBytes_spec {b : Buffer} (hValid : b.Valid) (len : Nat) :
    ∃ b', b.ensureWritableBytes len = some b' ∧ Keeps b b' ∧
      b'.readable = b.readable ∧ len ≤ b'.writableBytes := by
  by_cases hNeed : b.writableBytes < len
  · obtain ⟨b', hSpace, hSpec⟩ := makeSpace_spec hValid hNeed
    exact ⟨b', by rw [ensureWritableBytes, if_pos hNeed]; exact hSpace, hSpec⟩
  · exact ⟨b, by rw [ensureWritableBytes, if_neg hNeed], .refl hValid, rfl, by omega⟩

/-! ## Appending -/

/-- Bytes written at the writer index of a buffer that has room for them become
the end of the readable bytes. -/
theorem write_spec {b : Buffer} (hValid : b.Valid) {bytes : List Byte}
    (hRoom : bytes.length ≤ b.writableBytes) :
    ∃ data, write b.data b.writerIndex bytes = some data ∧
      data.length = b.data.length ∧
      Keeps b { b with data := data, writerIndex := b.writerIndex + bytes.length } ∧
      readable { b with data := data, writerIndex := b.writerIndex + bytes.length } =
        b.readable ++ bytes := by
  have hSize := hValid.writer_le_size
  have hRange : b.writerIndex + bytes.length ≤ b.data.length := by
    unfold writableBytes at hRoom
    omega
  obtain ⟨data, hWrite⟩ : ∃ data, write b.data b.writerIndex bytes = some data :=
    ⟨_, write_eq_some hRange⟩
  have hLength := length_of_write hWrite
  refine ⟨data, hWrite, hLength, ⟨⟨?_, ?_, ?_⟩, fun hPrepend => hPrepend⟩, ?_⟩
  · exact hValid.prepend_le_writer.trans (Nat.le_add_right _ _)
  · exact hValid.reader_le_writer.trans (Nat.le_add_right _ _)
  · show b.writerIndex + bytes.length ≤ data.length
    rw [hLength]
    exact hRange
  · exact slice_append_of_write hValid.reader_le_writer hWrite

theorem append_spec {b : Buffer} (hValid : b.Valid) (bytes : List Byte) :
    ∃ b', b.append bytes = some b' ∧ Keeps b b' ∧ b'.readable = b.readable ++ bytes := by
  obtain ⟨roomy, hEnsure, hRoomy, hRoomyReadable, hRoom⟩ :=
    ensureWritableBytes_spec hValid bytes.length
  obtain ⟨data, hWrite, -, hAfter, hAfterReadable⟩ := write_spec hRoomy.valid hRoom
  refine ⟨_, ?_, hRoomy.trans hAfter, ?_⟩
  · simp only [append, hEnsure, hWrite, Option.bind_eq_bind, Option.bind_some]
    rfl
  · rw [hAfterReadable, hRoomyReadable]

/-! ## Retrieving -/

@[simp] theorem retrieveAll_readable (b : Buffer) : b.retrieveAll.readable = [] := by
  simp [readable, readableBytes, retrieveAll, slice]

theorem retrieveAll_keeps {b : Buffer} (hValid : b.Valid) : Keeps b b.retrieveAll where
  valid := ⟨le_rfl, le_rfl, hValid.prepend_le_writer.trans hValid.writer_le_size⟩
  prepend := fun _ => le_rfl

theorem retrieve_keeps {b : Buffer} (hValid : b.Valid) (len : Nat) :
    Keeps b (b.retrieve len) := by
  by_cases hPart : len < b.readableBytes
  · have hRange : b.readerIndex + len ≤ b.writerIndex := by
      unfold readableBytes at hPart
      omega
    rw [retrieve, if_pos hPart]
    exact ⟨⟨hValid.prepend_le_writer, hRange, hValid.writer_le_size⟩,
      fun hPrepend => hPrepend.trans (Nat.le_add_right _ _)⟩
  · rw [retrieve, if_neg hPart]
    exact retrieveAll_keeps hValid

theorem retrieve_readable {b : Buffer} (hValid : b.Valid) (len : Nat) :
    (b.retrieve len).readable = b.readable.drop len := by
  by_cases hPart : len < b.readableBytes
  · rw [retrieve, if_pos hPart, readable, readable, drop_slice]
    congr 1
    unfold readableBytes
    exact Nat.sub_add_eq _ _ _
  · rw [retrieve, if_neg hPart, retrieveAll_readable]
    have hLength : b.readable.length ≤ len := by
      rw [hValid.length_readable]
      omega
    rw [List.drop_of_length_le hLength]

theorem retrieveUntil_keeps {b : Buffer} (hValid : b.Valid) (delimiter : List Byte) :
    Keeps b (b.retrieveUntil delimiter) := by
  unfold retrieveUntil
  split
  · exact retrieve_keeps hValid _
  · exact .refl hValid

/-- The bytes from the reader index on begin with the readable bytes. -/
theorem peek_slice {b : Buffer} {size : Nat} (hSize : size ≤ b.readableBytes) :
    slice b.data b.readerIndex size = b.readable.take size := by
  rw [readable, slice, slice, List.take_take, Nat.min_eq_left hSize]

/-! ## Integers -/

/-- `ByteSwap` reverses the bytes of the object. -/
theorem objectBytes_byteSwap (native : Endian) {size : Nat}
    (value : BitVec (8 * size)) :
    objectBytes native (byteSwap native value) =
      (objectBytes native value).reverse := by
  have hLoop : (objectBytes native value).foldl
      (fun result byte => byte :: result) [] = (objectBytes native value).reverse := by
    simp
  rw [byteSwap, hLoop]
  apply objectBytes_ofObjectBytes
  simp

/-- On either kind of machine the bytes in memory of a value in network order
are its bytes from the most significant one down. -/
theorem objectBytes_toNetwork (native : Endian) {size : Nat}
    (value : BitVec (8 * size)) :
    objectBytes native (toNetwork native value) = objectBytes .big value := by
  cases native with
  | little =>
      rw [toNetwork, if_neg (by decide), objectBytes_byteSwap]
      rfl
  | big => rw [toNetwork, if_pos rfl]

/-- Reading bytes as an object and converting from network order reads them as
a big-endian number. -/
theorem fromNetwork_ofObjectBytes (native : Endian) {size : Nat}
    {bytes : List Byte} (hLength : bytes.length = size) :
    fromNetwork native (ofObjectBytes native size bytes) =
      ofObjectBytes .big size bytes := by
  cases native with
  | little =>
      rw [fromNetwork, if_neg (by decide), byteSwap,
        objectBytes_ofObjectBytes .little hLength]
      simp [ofObjectBytes, Endian.arrange]
  | big => rw [fromNetwork, if_pos rfl]

theorem appendInt_spec (native : Endian) {size : Nat} {b : Buffer} (hValid : b.Valid)
    (value : BitVec (8 * size)) :
    ∃ b', b.appendInt native value = some b' ∧ Keeps b b' ∧
      b'.readable = b.readable ++ objectBytes .big value := by
  rw [appendInt, objectBytes_toNetwork]
  exact append_spec hValid _

/-- The byte of a one-byte object does not depend on the byte order. -/
theorem objectBytes_one (native : Endian) (value : BitVec (8 * 1)) :
    objectBytes native value = objectBytes .big value := by
  cases native <;> simp [objectBytes, Endian.arrange, littleBytes]

theorem ofObjectBytes_one (native : Endian) {bytes : List Byte}
    (hLength : bytes.length = 1) :
    ofObjectBytes native 1 bytes = ofObjectBytes .big 1 bytes := by
  obtain ⟨byte, rfl⟩ := List.length_eq_one_iff.mp hLength
  cases native <;> simp [ofObjectBytes, Endian.arrange]

theorem peekInt_eq (native : Endian) (size : Nat) {b : Buffer} (hValid : b.Valid) :
    b.peekInt native size =
      if b.readable.length < size then 0
      else ofObjectBytes .big size (b.readable.take size) := by
  rw [hValid.length_readable, peekInt]
  split
  · rfl
  · have hSize : size ≤ b.readableBytes := by omega
    have hLength : (b.readable.take size).length = size := by
      rw [List.length_take, hValid.length_readable]
      omega
    rw [peekObject, peek_slice hSize, fromNetwork_ofObjectBytes native hLength]

theorem peekInt8_eq (native : Endian) {b : Buffer} (hValid : b.Valid) :
    b.peekInt8 native =
      if b.readable.length < 1 then 0
      else ofObjectBytes .big 1 (b.readable.take 1) := by
  rw [hValid.length_readable, peekInt8]
  split
  · rfl
  · have hSize : 1 ≤ b.readableBytes := by omega
    have hLength : (b.readable.take 1).length = 1 := by
      rw [List.length_take, hValid.length_readable]
      omega
    rw [peekObject, peek_slice hSize, ofObjectBytes_one native hLength]

/-! ## File descriptors -/

theorem SysWrite_result_le {call : SysWrite} {length n : Nat}
    (hResult : call.result length = .ok n) : n ≤ length := by
  cases call with
  | error errno => cases hResult
  | room count =>
      obtain rfl : min count length = n := by simpa [SysWrite.result] using hResult
      exact Nat.min_le_right _ _

/-- `ReadFd` adds to the readable bytes exactly the bytes that `readv` returned,
wherever they landed. -/
theorem readFd_data_spec {b : Buffer} (hValid : b.Valid) (stream : List Byte) :
    ∃ b', b.readFd (.data stream) =
        some (b', .ok (stream.take b.readvCapacity).length) ∧ Keeps b b' ∧
      b'.readable = b.readable ++ stream.take b.readvCapacity := by
  set bytes := stream.take b.readvCapacity with hBytes
  have hFirst : (bytes.take b.writableBytes).length ≤ b.writableBytes := by
    rw [List.length_take]
    exact Nat.min_le_left _ _
  obtain ⟨data, hWrite, hLength, hFilled, hFilledReadable⟩ := write_spec hValid hFirst
  by_cases hFits : bytes.length ≤ b.writableBytes
  · -- Everything went into the first vector.
    have hWhole : bytes.take b.writableBytes = bytes := List.take_of_length_le hFits
    rw [hWhole] at hWrite hFilled hFilledReadable
    refine ⟨_, ?_, hFilled, hFilledReadable⟩
    simp only [readFd, ← hBytes, hWhole, hWrite, Option.bind_eq_bind, Option.bind_some,
      if_pos hFits]
    rfl
  · -- The first vector is full, so the writer index moves to the end of the
    -- vector and the rest is appended from `extrabuf`.
    have hFull : (bytes.take b.writableBytes).length = b.writableBytes := by
      rw [List.length_take]
      omega
    have hEnd : b.writerIndex + (bytes.take b.writableBytes).length = data.length := by
      have hSize := hValid.writer_le_size
      rw [hFull, hLength]
      unfold writableBytes
      omega
    rw [hEnd] at hFilled hFilledReadable
    obtain ⟨b', hAppend, hAfter, hAfterReadable⟩ :=
      append_spec hFilled.valid (bytes.drop b.writableBytes)
    refine ⟨b', ?_, hFilled.trans hAfter, ?_⟩
    · simp only [readFd, ← hBytes, hWrite, Option.bind_eq_bind, Option.bind_some,
        if_neg hFits, hAppend]
      rfl
    · rw [hAfterReadable, hFilledReadable, List.append_assoc,
        List.take_append_drop]

theorem writeFd_error {b : Buffer} {call : SysWrite} {errno : Errno}
    (hResult : call.result b.readableBytes = .error errno) :
    b.writeFd call = (b, .error errno) := by
  rw [writeFd, hResult]

theorem writeFd_ok {b : Buffer} {call : SysWrite} {n : Nat}
    (hResult : call.result b.readableBytes = .ok n) :
    b.writeFd call = (b.retrieve n, .ok n) := by
  rw [writeFd, hResult]

end Buffer

/-! ## Buffers that carry their invariant

The operations of a `Buffer` cannot go wrong on a well-formed buffer, so an
object that owns one and changes it only through them holds a `CheckedBuffer`,
on which the operations are total. -/

/-- A buffer with its index invariant. -/
abbrev CheckedBuffer := { b : Buffer // b.WF }

namespace CheckedBuffer

/-- `Buffer(initial_size)`. -/
def new (initialSize : Nat) : CheckedBuffer :=
  ⟨Buffer.new initialSize, Buffer.new_wf initialSize⟩

def readable (b : CheckedBuffer) : List Byte := b.1.readable

def readableBytes (b : CheckedBuffer) : Nat := b.1.readableBytes

theorem append_isSome (b : CheckedBuffer) (bytes : List Byte) :
    (b.1.append bytes).isSome := by
  obtain ⟨b', hAppend, -⟩ := Buffer.append_spec b.2.valid bytes
  rw [hAppend]
  rfl

theorem append_get_wf (b : CheckedBuffer) (bytes : List Byte) :
    ((b.1.append bytes).get (append_isSome b bytes)).WF := by
  obtain ⟨b', hAppend, hKeeps, -⟩ := Buffer.append_spec b.2.valid bytes
  simpa [hAppend] using hKeeps.wf b.2

def append (b : CheckedBuffer) (bytes : List Byte) : CheckedBuffer :=
  ⟨(b.1.append bytes).get (append_isSome b bytes), append_get_wf b bytes⟩

def retrieve (b : CheckedBuffer) (len : Nat) : CheckedBuffer :=
  ⟨b.1.retrieve len, (Buffer.retrieve_keeps b.2.valid len).wf b.2⟩

theorem readFd_isSome (b : CheckedBuffer) (call : SysRead) : (b.1.readFd call).isSome := by
  cases call with
  | error errno => rfl
  | data stream =>
      obtain ⟨b', hRead, -⟩ := Buffer.readFd_data_spec b.2.valid stream
      rw [hRead]
      rfl

theorem readFd_get_wf (b : CheckedBuffer) (call : SysRead) :
    ((b.1.readFd call).get (readFd_isSome b call)).1.WF := by
  cases call with
  | error errno => exact b.2
  | data stream =>
      obtain ⟨b', hRead, hKeeps, -⟩ := Buffer.readFd_data_spec b.2.valid stream
      simpa [hRead] using hKeeps.wf b.2

def readFd (b : CheckedBuffer) (call : SysRead) : CheckedBuffer × Except Errno Nat :=
  (⟨((b.1.readFd call).get (readFd_isSome b call)).1, readFd_get_wf b call⟩,
    ((b.1.readFd call).get (readFd_isSome b call)).2)

theorem writeFd_wf (b : CheckedBuffer) (call : SysWrite) : (b.1.writeFd call).1.WF := by
  cases hResult : call.result b.1.readableBytes with
  | error errno =>
      rw [Buffer.writeFd_error hResult]
      exact b.2
  | ok n =>
      rw [Buffer.writeFd_ok hResult]
      exact (Buffer.retrieve_keeps b.2.valid n).wf b.2

def writeFd (b : CheckedBuffer) (call : SysWrite) : CheckedBuffer × Except Errno Nat :=
  (⟨(b.1.writeFd call).1, writeFd_wf b call⟩, (b.1.writeFd call).2)

@[simp] theorem readable_new (initialSize : Nat) : (new initialSize).readable = [] :=
  Buffer.new_readable initialSize

@[simp] theorem length_readable (b : CheckedBuffer) : b.readable.length = b.readableBytes :=
  b.2.valid.length_readable

@[simp] theorem readable_append (b : CheckedBuffer) (bytes : List Byte) :
    (b.append bytes).readable = b.readable ++ bytes := by
  obtain ⟨b', hAppend, -, hReadable⟩ := Buffer.append_spec b.2.valid bytes
  simpa [append, readable, hAppend] using hReadable

@[simp] theorem readable_retrieve (b : CheckedBuffer) (len : Nat) :
    (b.retrieve len).readable = b.readable.drop len :=
  Buffer.retrieve_readable b.2.valid len

theorem writeFd_error {b : CheckedBuffer} {call : SysWrite} {errno : Errno}
    (hResult : call.result b.readableBytes = .error errno) :
    b.writeFd call = (b, .error errno) := by
  simp only [writeFd, Buffer.writeFd_error hResult]

theorem writeFd_ok {b : CheckedBuffer} {call : SysWrite} {n : Nat}
    (hResult : call.result b.readableBytes = .ok n) :
    b.writeFd call = (b.retrieve n, .ok n) := by
  simp only [writeFd, Buffer.writeFd_ok hResult]
  rfl

/-- `ReadFd` returns the number of bytes that `readv` found room for. -/
theorem readFd_data_result (b : CheckedBuffer) (stream : List Byte) :
    (b.readFd (.data stream)).2 = .ok (stream.take b.1.readvCapacity).length := by
  obtain ⟨b', hRead, -⟩ := Buffer.readFd_data_spec b.2.valid stream
  simp [readFd, hRead]

end CheckedBuffer
end SolarNet
