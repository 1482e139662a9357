import SolarNet.Base.BufferPrepend

/-!
# Growing a buffer in the arithmetic of `size_t`

The other files describe the buffer for sizes at which `size_t` does not wrap.
Here the functions that make room are modelled with every sum and difference
modulo `2 ^ 64`, and with a vector that throws when it is asked for more than
`max_size()` bytes and grows otherwise.

`MakeSpace` adds to the length that it is given twice, and both sums can wrap.
The file shows for which lengths `EnsureWritableBytes` and `Reserve` keep their
promise.  Runs are made of all operations of the buffer in this arithmetic; an
operation that throws leaves a buffer behind that can be used further.
-/

namespace SolarNet

open Lib

/-- The number of values of `size_t`. -/
def sizeRange : Nat := 18446744073709551616

/-- `std::vector<std::byte>::max_size()`, which is `PTRDIFF_MAX`. -/
def maxSize : Nat := 9223372036854775807

/-- Addition of `size_t`. -/
def add64 (a b : Nat) : Nat := (a + b) % sizeRange

/-- Subtraction of `size_t`. -/
def sub64 (a b : Nat) : Nat := (a + sizeRange - b) % sizeRange

/-- How a call ends: it returns, it throws, or it accesses memory outside the vector. -/
inductive Growth where
  | returned (b : Buffer)
  | threw (b : Buffer)
  | outside
  deriving DecidableEq, Repr

namespace Growth

/-- A call whose result is used by the rest of the function. -/
def bind (outcome : Growth) (rest : Buffer → Growth) : Growth :=
  match outcome with
  | .returned b => rest b
  | .threw b => .threw b
  | .outside => .outside

/-- A call that cannot throw. -/
def ofOption : Option Buffer → Growth
  | some b => .returned b
  | none => .outside

/-- The buffer that is left behind. -/
def buffer? : Growth → Option Buffer
  | .returned b => some b
  | .threw b => some b
  | .outside => none

end Growth

namespace Buffer

/-- `Buffer(initial_size)`; the constructor of the vector may throw. -/
def new64 (initialSize : Nat) : Option Buffer :=
  let size := add64 kInitialPrepend initialSize
  if maxSize < size then none
  else some ⟨List.replicate size 0, kInitialPrepend, kInitialPrepend⟩

def writableBytes64 (b : Buffer) : Nat := sub64 b.data.length b.writerIndex

/-- `m_data.resize(size)`. -/
def resize64 (b : Buffer) (size : Nat) : Growth :=
  if maxSize < size then .threw b
  else .returned { b with data := resize b.data size 0 }

def makeSpace64 (b : Buffer) (len : Nat) : Growth :=
  if add64 b.writableBytes64 b.prependableBytes < add64 len kInitialPrepend then
    b.resize64 (add64 b.writerIndex len)
  else .ofOption b.shiftReadable

def ensureWritableBytes64 (b : Buffer) (len : Nat) : Growth :=
  if b.writableBytes64 < len then b.makeSpace64 len else .returned b

def reserve64 (b : Buffer) (len : Nat) : Growth :=
  b.ensureWritableBytes64 len

def append64 (b : Buffer) (bytes : List Byte) : Growth :=
  (b.ensureWritableBytes64 bytes.length).bind fun b =>
    .ofOption ((write b.data b.writerIndex bytes).map fun data =>
      { b with data := data, writerIndex := add64 b.writerIndex bytes.length })

def readFd64 (b : Buffer) : SysRead → Growth
  | .error _ => .returned b
  | .data stream =>
      let writable := b.writableBytes64
      let bytes := stream.take b.readvCapacity
      (Growth.ofOption ((write b.data b.writerIndex (bytes.take writable)).map fun data =>
        { b with data := data })).bind fun b =>
          if bytes.length ≤ writable then
            .returned { b with writerIndex := add64 b.writerIndex bytes.length }
          else
            append64 { b with writerIndex := b.data.length } (bytes.drop writable)

/-- One operation.  Those that retrieve do not add anything that could wrap. -/
def apply64 (native : Endian) (b : Buffer) : BufferOp → Growth
  | .append bytes => b.append64 bytes
  | .appendInt8 value => b.append64 (objectBytes native value)
  | .appendInt16 value => b.append64 (objectBytes native (toNetwork native value))
  | .appendInt32 value => b.append64 (objectBytes native (toNetwork native value))
  | .appendInt64 value => b.append64 (objectBytes native (toNetwork native value))
  | .ensureWritableBytes len => b.ensureWritableBytes64 len
  | .reserve len => b.reserve64 len
  | .readFd call => b.readFd64 call
  | op => .ofOption ((b.apply native op).map Prod.fst)

end Buffer

section Machine

variable {ι : Type*} [DecidableEq ι]

/-- A family of buffers under all public operations. -/
def stepBuffers64 (native : Endian) (pool : ι → Buffer) : BufferAction ι → Option (ι → Buffer)
  | .pool (.on index op) =>
      ((pool index).apply64 native op).buffer?.map (Function.update pool index)
  | action => stepBuffers native pool action

end Machine

/-! ## The promise -/

/-- What `EnsureWritableBytes(len)` and `Reserve(len)` promise: they throw and leave the
buffer alone, or they return a buffer with `len` writable bytes and the same content. -/
def KeepsPromise (b : Buffer) (len : Nat) : Growth → Prop
  | .threw b' => b' = b
  | .returned b' => len ≤ b'.writableBytes64 ∧ b'.readerIndex ≤ b'.writerIndex ∧
      b'.writerIndex ≤ b'.data.length ∧ b'.readable = b.readable
  | .outside => False

/-- Valid, and not larger than a vector can be. -/
structure Sized (b : Buffer) : Prop where
  valid : b.Valid
  size_le : b.data.length ≤ maxSize

/-- The sums of `MakeSpace` do not wrap. -/
def NoWrap (b : Buffer) (len : Nat) : Prop :=
  len ≤ b.writableBytes ∨ b.writerIndex + len < sizeRange

theorem Sized.writableBytes64_eq {b : Buffer} (hSized : Sized b) :
    b.writableBytes64 = b.writableBytes := by
  have hWriter := hSized.valid.writer_le_size
  have hSize := hSized.size_le
  simp only [Buffer.writableBytes64, Buffer.writableBytes, sub64, sizeRange, maxSize] at *
  omega

/-- Without wrapping, `MakeSpace` is the one of the exact arithmetic, unless the vector would
become too large. -/
theorem makeSpace64_eq {b : Buffer} (hSized : Sized b) {len : Nat}
    (hSum : b.writerIndex + len < sizeRange) :
    b.makeSpace64 len =
      if b.writableBytes + b.prependableBytes < len + Buffer.kInitialPrepend ∧
          maxSize < b.writerIndex + len then .threw b
      else .ofOption (b.makeSpace len) := by
  have hPrepend := hSized.valid.prepend_le_writer
  have hOrder := hSized.valid.reader_le_writer
  have hWriter := hSized.valid.writer_le_size
  have hSize := hSized.size_le
  have hFree : add64 b.writableBytes64 b.prependableBytes =
      b.writableBytes + b.prependableBytes := by
    rw [hSized.writableBytes64_eq]
    simp only [add64, Buffer.writableBytes, Buffer.prependableBytes, sizeRange, maxSize] at *
    omega
  have hNeed : add64 len Buffer.kInitialPrepend = len + Buffer.kInitialPrepend := by
    simp only [add64, Buffer.kInitialPrepend, sizeRange] at *
    omega
  have hTotal : add64 b.writerIndex len = b.writerIndex + len := Nat.mod_eq_of_lt hSum
  rw [Buffer.makeSpace64, hFree, hNeed, hTotal]
  by_cases hGrow : b.writableBytes + b.prependableBytes < len + Buffer.kInitialPrepend
  · rw [if_pos hGrow, Buffer.resize64]
    by_cases hLarge : maxSize < b.writerIndex + len
    · rw [if_pos hLarge, if_pos ⟨hGrow, hLarge⟩]
    · rw [if_neg hLarge, if_neg (fun hBoth => hLarge hBoth.2), Buffer.makeSpace, if_pos hGrow]
      rfl
  · rw [if_neg hGrow, if_neg (fun hBoth => hGrow hBoth.1), Buffer.makeSpace, if_neg hGrow]
    rfl

theorem length_of_shiftReadable {b b' : Buffer} (hShift : b.shiftReadable = some b') :
    b'.data.length = b.data.length := by
  obtain ⟨data, hMove, rfl⟩ := Option.map_eq_some_iff.mp hShift
  exact length_of_move hMove

/-- `MakeSpace` keeps the size of the vector or extends it by the length asked for. -/
theorem length_of_makeSpace {b b' : Buffer} {len : Nat} (hSpace : b.makeSpace len = some b') :
    b'.data.length = b.data.length ∨
      (b.writableBytes + b.prependableBytes < len + Buffer.kInitialPrepend ∧
        b'.data.length = b.writerIndex + len) := by
  unfold Buffer.makeSpace at hSpace
  split at hSpace
  · next hGrow =>
    obtain rfl := Option.some.inj hSpace
    exact Or.inr ⟨hGrow, length_resize _ _ _⟩
  · exact Or.inl (length_of_shiftReadable hSpace)

/-- Without wrapping the call throws, or it makes room. -/
theorem ensureWritableBytes64_spec {b : Buffer} (hSized : Sized b) {len : Nat}
    (hNoWrap : NoWrap b len) :
    b.ensureWritableBytes64 len = .threw b ∨
      ∃ b', b.ensureWritableBytes64 len = .returned b' ∧ Sized b' ∧
        b'.readable = b.readable ∧ len ≤ b'.writableBytes := by
  unfold Buffer.ensureWritableBytes64
  rw [hSized.writableBytes64_eq]
  by_cases hNeed : b.writableBytes < len
  · have hSum : b.writerIndex + len < sizeRange := hNoWrap.resolve_left (not_le.mpr hNeed)
    rw [if_pos hNeed, makeSpace64_eq hSized hSum]
    split
    · exact Or.inl rfl
    · next hFits =>
      obtain ⟨b', hSpace, hKeeps, hReadable, hRoom⟩ :=
        Buffer.makeSpace_spec hSized.valid hNeed
      refine Or.inr ⟨b', by rw [hSpace]; rfl, ⟨hKeeps.valid, ?_⟩, hReadable, hRoom⟩
      rcases length_of_makeSpace hSpace with hSame | ⟨hGrow, hLonger⟩
      · rw [hSame]
        exact hSized.size_le
      · rw [hLonger]
        exact not_lt.mp fun hLarge => hFits ⟨hGrow, hLarge⟩
  · rw [if_neg hNeed]
    exact Or.inr ⟨b, rfl, hSized, rfl, not_lt.mp hNeed⟩

/-- A sum that wraps leads to a vector that ends in front of the writer index, or to a
buffer without the room asked for. -/
theorem not_keepsPromise_of_wrap {b : Buffer} (hSized : Sized b) {len : Nat}
    (hLen : len < sizeRange) (hNeed : b.writableBytes < len)
    (hWrap : sizeRange ≤ b.writerIndex + len) :
    ¬ KeepsPromise b len (b.ensureWritableBytes64 len) := by
  have hWriter := hSized.valid.writer_le_size
  have hSize := hSized.size_le
  have hTotal : add64 b.writerIndex len = b.writerIndex + len - sizeRange := by
    simp only [add64, sizeRange, maxSize] at *
    omega
  rw [Buffer.ensureWritableBytes64, hSized.writableBytes64_eq, if_pos hNeed, Buffer.makeSpace64,
    hTotal]
  split
  · have hSmall : ¬ maxSize < b.writerIndex + len - sizeRange := by
      simp only [sizeRange, maxSize] at *
      omega
    rw [Buffer.resize64, if_neg hSmall]
    rintro ⟨-, -, hInside, -⟩
    rw [length_resize] at hInside
    simp only [sizeRange] at *
    omega
  · cases hShift : b.shiftReadable with
    | none => exact id
    | some b' =>
        have hLength := length_of_shiftReadable hShift
        rintro ⟨hRoom, -, hInside, -⟩
        simp only [Buffer.writableBytes64, sub64, hLength, sizeRange, maxSize] at *
        omega

theorem keepsPromise_iff {b : Buffer} (hSized : Sized b) {len : Nat} (hLen : len < sizeRange) :
    KeepsPromise b len (b.ensureWritableBytes64 len) ↔ NoWrap b len := by
  constructor
  · intro hKeeps
    by_contra hNot
    rw [NoWrap, not_or, not_le, not_lt] at hNot
    exact not_keepsPromise_of_wrap hSized hLen hNot.1 hNot.2 hKeeps
  · intro hNoWrap
    rcases ensureWritableBytes64_spec hSized hNoWrap with
      hThrew | ⟨b', hReturned, hAfter, hReadable, hRoom⟩
    · rw [hThrew]
      rfl
    · rw [hReturned]
      refine ⟨?_, hAfter.valid.reader_le_writer, hAfter.valid.writer_le_size, hReadable⟩
      rw [hAfter.writableBytes64_eq]
      exact hRoom

/-! ## Runs -/

theorem new64_sized {initialSize : Nat} {b : Buffer}
    (hInitial : Buffer.kInitialPrepend + initialSize < sizeRange)
    (hNew : Buffer.new64 initialSize = some b) : Sized b := by
  have hSum : add64 Buffer.kInitialPrepend initialSize = Buffer.kInitialPrepend + initialSize :=
    Nat.mod_eq_of_lt hInitial
  simp only [Buffer.new64, hSum] at hNew
  split at hNew
  · cases hNew
  · next hFits =>
    obtain rfl := Option.some.inj hNew
    refine ⟨⟨le_rfl, le_rfl, ?_⟩, ?_⟩
    · simp
    · simpa using hFits

/-- The buffer that a call leaves behind, if it does not leave the vector. -/
def LeavesSized (outcome : Growth) : Prop :=
  ∀ b, outcome.buffer? = some b → Sized b

theorem leavesSized_returned {b : Buffer} (hSized : Sized b) : LeavesSized (.returned b) := by
  rintro _ ⟨⟩
  exact hSized

theorem leavesSized_threw {b : Buffer} (hSized : Sized b) : LeavesSized (.threw b) := by
  rintro _ ⟨⟩
  exact hSized

theorem ensureWritableBytes64_sized {b : Buffer} (hSized : Sized b) {len : Nat}
    (hNoWrap : NoWrap b len) : LeavesSized (b.ensureWritableBytes64 len) := by
  rcases ensureWritableBytes64_spec hSized hNoWrap with hThrew | ⟨b', hReturned, hAfter, -⟩
  · rw [hThrew]
    exact leavesSized_threw hSized
  · rw [hReturned]
    exact leavesSized_returned hAfter

/-- Bytes written at the writer index of a buffer that has room for them. -/
theorem write_sized {b : Buffer} (hSized : Sized b) {bytes : List Byte}
    (hRoom : bytes.length ≤ b.writableBytes) :
    ∃ data, write b.data b.writerIndex bytes = some data ∧ data.length = b.data.length ∧
      Sized { b with data := data, writerIndex := add64 b.writerIndex bytes.length } := by
  obtain ⟨data, hWrite, hLength, hKeeps, -⟩ := Buffer.write_spec hSized.valid hRoom
  have hSize := hSized.size_le
  have hInside : b.writerIndex + bytes.length ≤ data.length := hKeeps.valid.writer_le_size
  have hSum : add64 b.writerIndex bytes.length = b.writerIndex + bytes.length := by
    simp only [add64, sizeRange, maxSize] at *
    omega
  refine ⟨data, hWrite, hLength, ?_⟩
  rw [hSum]
  refine ⟨hKeeps.valid, ?_⟩
  show data.length ≤ maxSize
  rw [hLength]
  exact hSize

/-- The bytes of an object never make the sums wrap. -/
theorem append64_sized {b : Buffer} (hSized : Sized b) {bytes : List Byte}
    (hBytes : bytes.length ≤ maxSize) : LeavesSized (b.append64 bytes) := by
  have hNoWrap : NoWrap b bytes.length := by
    have hWriter := hSized.valid.writer_le_size
    have hSize := hSized.size_le
    right
    simp only [sizeRange, maxSize] at *
    omega
  unfold Buffer.append64
  rcases ensureWritableBytes64_spec hSized hNoWrap with
    hThrew | ⟨roomy, hReturned, hRoomy, -, hRoom⟩
  · rw [hThrew]
    exact leavesSized_threw hSized
  · obtain ⟨data, hWrite, -, hAfter⟩ := write_sized hRoomy hRoom
    rw [hReturned]
    simp only [Growth.bind, hWrite, Option.map_some]
    exact leavesSized_returned hAfter

/-- `readv` delivers what fits into the buffer and the extra buffer on the stack. -/
theorem length_take_readvCapacity (b : Buffer) (stream : List Byte) :
    (stream.take b.readvCapacity).length ≤ b.writableBytes + 65536 := by
  have hTaken := List.length_take_le b.readvCapacity stream
  have hCapacity : b.readvCapacity ≤ b.writableBytes + Buffer.extrabufSize := by
    unfold Buffer.readvCapacity
    split <;> omega
  exact hTaken.trans hCapacity

theorem readFd64_sized {b : Buffer} (hSized : Sized b) (call : SysRead) :
    LeavesSized (b.readFd64 call) := by
  cases call with
  | error errno => exact leavesSized_returned hSized
  | data stream =>
      have hWriter := hSized.valid.writer_le_size
      have hBytes := length_take_readvCapacity b stream
      rw [Buffer.readFd64, hSized.writableBytes64_eq]
      generalize stream.take b.readvCapacity = bytes at hBytes ⊢
      have hFirst : (bytes.take b.writableBytes).length ≤ b.writableBytes :=
        List.length_take_le _ _
      obtain ⟨data, hWrite, hLength, hFilled⟩ := write_sized hSized hFirst
      simp only [hWrite, Option.map_some, Growth.ofOption, Growth.bind]
      split
      · next hFits =>
        rw [List.take_of_length_le hFits] at hFilled
        exact leavesSized_returned hFilled
      · have hFull : Sized { b with data := data, writerIndex := data.length } := by
          refine ⟨⟨?_, ?_, le_rfl⟩, ?_⟩
          · show Buffer.kInitialPrepend ≤ data.length
            rw [hLength]
            exact hSized.valid.prepend_le_writer.trans hWriter
          · show b.readerIndex ≤ data.length
            rw [hLength]
            exact hSized.valid.reader_le_writer.trans hWriter
          · show data.length ≤ maxSize
            rw [hLength]
            exact hSized.size_le
        have hRest : (bytes.drop b.writableBytes).length ≤ maxSize := by
          rw [List.length_drop]
          unfold maxSize
          omega
        exact append64_sized hFull hRest

theorem retrieve_sized {b : Buffer} (hSized : Sized b) (len : Nat) : Sized (b.retrieve len) := by
  refine ⟨(Buffer.retrieve_keeps hSized.valid len).valid, ?_⟩
  have hData : (b.retrieve len).data = b.data := by
    unfold Buffer.retrieve
    split <;> rfl
  rw [hData]
  exact hSized.size_le

theorem retrieveAll_sized {b : Buffer} (hSized : Sized b) : Sized b.retrieveAll :=
  ⟨(Buffer.retrieveAll_keeps hSized.valid).valid, hSized.size_le⟩

theorem retrieveUntil_sized {b : Buffer} (hSized : Sized b) (delimiter : List Byte) :
    Sized (b.retrieveUntil delimiter) := by
  unfold Buffer.retrieveUntil
  split
  · exact retrieve_sized hSized _
  · exact hSized

theorem writeFd_sized {b : Buffer} (hSized : Sized b) (call : SysWrite) :
    Sized (b.writeFd call).1 := by
  unfold Buffer.writeFd
  split
  · exact hSized
  · exact retrieve_sized hSized _

theorem length_of_prepend_fits {b b' : Buffer} {bytes : List Byte}
    (hFits : ¬ bytes.length > b.prependableBytes) (hPrepend : b.prepend bytes = some b') :
    b'.data.length = b.data.length := by
  simp only [Buffer.prepend, if_neg hFits, Option.bind_eq_bind, Option.bind_some,
    Option.bind_eq_some_iff, Option.some.injEq] at hPrepend
  obtain ⟨data, hWrite, rfl⟩ := hPrepend
  exact length_of_write hWrite

theorem length_of_prepend {b b' : Buffer} {bytes : List Byte}
    (hPrepend : b.prepend bytes = some b') : b'.data.length = b.data.length := by
  by_cases hLong : bytes.length > b.prependableBytes
  · cases hShift : b.shiftReadable with
    | none => simp [Buffer.prepend, hLong, hShift] at hPrepend
    | some shifted =>
        rw [Buffer.prepend_shift hLong hShift] at hPrepend
        rw [← length_of_shiftReadable hShift]
        split at hPrepend
        · obtain rfl := Option.some.inj hPrepend
          rfl
        · next hFits => exact length_of_prepend_fits hFits hPrepend
  · exact length_of_prepend_fits hLong hPrepend

theorem prepend_sized {b b' : Buffer} (hSized : Sized b) {bytes : List Byte}
    (hPrepend : b.prepend bytes = some b') : Sized b' := by
  refine ⟨Buffer.prepend_valid hSized.valid hPrepend, ?_⟩
  rw [length_of_prepend hPrepend]
  exact hSized.size_le

/-- The arguments of one operation: a length is a `size_t` for which no sum wraps, and an
object in memory is not larger than a vector can be. -/
def OpInRange (b : Buffer) : BufferOp → Prop
  | .ensureWritableBytes len | .reserve len => len < sizeRange ∧ NoWrap b len
  | .append bytes => bytes.length ≤ maxSize
  | _ => True

theorem apply64_sized (native : Endian) {b : Buffer} (hSized : Sized b) {op : BufferOp}
    (hRange : OpInRange b op) : LeavesSized (b.apply64 native op) := by
  have hObject : ∀ {size : Nat} (value : BitVec (8 * size)), size ≤ 8 →
      (objectBytes native value).length ≤ maxSize := by
    intro size value hSize
    rw [length_objectBytes]
    exact hSize.trans (by decide)
  cases op with
  | append bytes => exact append64_sized hSized hRange
  | appendInt8 value => exact append64_sized hSized (hObject value (by decide))
  | appendInt16 value => exact append64_sized hSized (hObject _ (by decide))
  | appendInt32 value => exact append64_sized hSized (hObject _ (by decide))
  | appendInt64 value => exact append64_sized hSized (hObject _ (by decide))
  | ensureWritableBytes len => exact ensureWritableBytes64_sized hSized hRange.2
  | reserve len => exact ensureWritableBytes64_sized hSized hRange.2
  | readFd call => exact readFd64_sized hSized call
  | retrieve len | retrieveAsString len | readString len =>
      exact leavesSized_returned (retrieve_sized hSized _)
  | readInt8 | readInt16 | readInt32 | readInt64 =>
      exact leavesSized_returned (retrieve_sized hSized _)
  | retrieveAll | retrieveAllAsString => exact leavesSized_returned (retrieveAll_sized hSized)
  | retrieveUntil delimiter => exact leavesSized_returned (retrieveUntil_sized hSized delimiter)
  | writeFd call => exact leavesSized_returned (writeFd_sized hSized call)

section Machine

variable {ι : Type*} [DecidableEq ι]

/-- The operation that an action performs has its arguments in range. -/
def InRange (pool : ι → Buffer) : BufferAction ι → Prop
  | .pool (.on index op) => OpInRange (pool index) op
  | _ => True

theorem stepBuffers64_sized {native : Endian} (pool : ι → Buffer) (action : BufferAction ι)
    (pool' : ι → Buffer) (hSized : ∀ index, Sized (pool index)) (hRange : InRange pool action)
    (hStep : stepBuffers64 native pool action = some pool') : ∀ index, Sized (pool' index) := by
  have hOther : stepBuffers native pool action = some pool' →
      (∀ index op, action = .pool (.on index op) → ∀ other, Sized (pool' other)) →
      ∀ index, Sized (pool' index) :=
    stepBuffers_all (fun _ _ _ hBefore hSome => prepend_sized hBefore hSome) hSized
  cases action with
  | pool op =>
      cases op with
      | on index op =>
          obtain ⟨b', hBuffer, rfl⟩ := Option.map_eq_some_iff.mp hStep
          exact update_all hSized (apply64_sized native (hSized index) hRange b' hBuffer)
      | swap first second => exact hOther hStep nofun
  | prepend _ _ | prependInt32 _ _ | shrink _ _ => exact hOther hStep nofun

/-- **When `EnsureWritableBytes` keeps its promise.**  In every run in which no constructor
and no earlier call makes a sum wrap, and for every length: `EnsureWritableBytes(len)` and
`Reserve(len)` keep their promise if and only if there is room for `len` bytes already or
the writer index and `len` together are a `size_t`. -/
theorem ensureWritableBytes_keepsPromise_iff {native : Endian} {fresh pool : ι → Buffer}
    {actions : List (BufferAction ι)}
    (hFresh : ∀ index, ∃ initialSize, Buffer.kInitialPrepend + initialSize < sizeRange ∧
      Buffer.new64 initialSize = some (fresh index))
    (hMeets : Meets (stepBuffers64 native) InRange fresh actions)
    (hRun : exec (stepBuffers64 native) fresh actions = some pool) (index : ι) {len : Nat}
    (hLen : len < sizeRange) :
    (KeepsPromise (pool index) len ((pool index).ensureWritableBytes64 len) ∧
        KeepsPromise (pool index) len ((pool index).reserve64 len)) ↔
      len ≤ (pool index).writableBytes ∨ (pool index).writerIndex + len < sizeRange := by
  have hSized : ∀ index, Sized (pool index) := by
    refine exec_invariant_of_meets (fun pool : ι → Buffer => ∀ index, Sized (pool index))
      stepBuffers64_sized ?_ hMeets hRun
    intro index
    obtain ⟨initialSize, hInitial, hNew⟩ := hFresh index
    exact new64_sized hInitial hNew
  have hPromise := keepsPromise_iff (hSized index) hLen
  exact ⟨fun hBoth => hPromise.mp hBoth.1, fun hRoom => ⟨hPromise.mpr hRoom, hPromise.mpr hRoom⟩⟩

end Machine

/-- After three bytes were appended the buffer is asked for all that `max_size()` allows. -/
theorem ensureWritableBytes_keepsPromise_large :
    ∃ pool, exec (stepBuffers64 .little) (fun _ : Unit => Buffer.new 4)
        [.pool (.on () (.append [1, 2, 3]))] = some pool ∧
      KeepsPromise (pool ()) maxSize ((pool ()).ensureWritableBytes64 maxSize) := by
  have hAppend : (Buffer.new 4).append64 [1, 2, 3] =
      .returned ⟨[0, 0, 0, 0, 0, 0, 0, 0, 1, 2, 3, 0], 8, 11⟩ := by decide +kernel
  have hRun : exec (stepBuffers64 .little) (fun _ : Unit => Buffer.new 4)
      [.pool (.on () (.append [1, 2, 3]))] =
        some (Function.update (fun _ => Buffer.new 4) ()
          ⟨[0, 0, 0, 0, 0, 0, 0, 0, 1, 2, 3, 0], 8, 11⟩) := by
    simp only [exec_cons, exec_nil, stepBuffers64, Buffer.apply64, hAppend, Growth.buffer?,
      Option.map_some, Option.bind_some]
  have hFresh : ∀ _ : Unit, ∃ initialSize, Buffer.kInitialPrepend + initialSize < sizeRange ∧
      Buffer.new64 initialSize = some (Buffer.new 4) :=
    fun _ => ⟨4, by decide, rfl⟩
  have hMeets : Meets (stepBuffers64 .little) InRange (fun _ : Unit => Buffer.new 4)
      [.pool (.on () (.append [1, 2, 3]))] := by
    have hThree : [1, 2, 3].length ≤ maxSize := by decide
    exact ⟨hThree, fun _ _ => trivial⟩
  have hSum : 11 + maxSize < sizeRange := by decide
  have hLen : maxSize < sizeRange := by decide
  exact ⟨_, hRun,
    ((ensureWritableBytes_keepsPromise_iff hFresh hMeets hRun () hLen).mpr (Or.inr hSum)).1⟩

/-- A negative length converted to `size_t`: the vector is not resized, because both sums
wrap. -/
theorem not_keepsPromise_minusOne :
    ∃ b, Buffer.new64 4 = some b ∧
      ¬ KeepsPromise b (sizeRange - 1) (b.ensureWritableBytes64 (sizeRange - 1)) := by
  have hNew : ∃ b, Buffer.new64 4 = some b ∧ b.writerIndex = 8 ∧ b.writableBytes = 4 :=
    ⟨_, rfl, rfl, rfl⟩
  obtain ⟨b, hNew, hWriter, hWritable⟩ := hNew
  refine ⟨b, hNew, not_keepsPromise_of_wrap (new64_sized (by decide) hNew) (by decide) ?_ ?_⟩
  · rw [hWritable]
    decide
  · rw [hWriter]
    decide

end SolarNet
