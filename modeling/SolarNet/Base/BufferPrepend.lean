import SolarNet.Base.BufferFifo

/-!
# `Prepend`

`Prepend` writes in front of the readable bytes.  When the region in front of
them is too small, the code moves the readable bytes to the standard prepend
region, to the left or to the right, without a look at the size of the vector.

The machine of this file is a family of buffers under all public operations,
also `Prepend` and `PrependInt32`.  Every buffer that it reaches is valid.  The
file shows for which of them `Prepend` stays inside the vector.
-/

namespace SolarNet

open Lib

namespace Buffer

/-- The readable bytes move to the standard prepend region. -/
def shiftReadable (b : Buffer) : Option Buffer :=
  let readable := b.readableBytes
  (move b.data kInitialPrepend b.readerIndex readable).map fun data =>
    { data := data
      readerIndex := kInitialPrepend
      writerIndex := kInitialPrepend + readable }

def prepend (b : Buffer) (bytes : List Byte) : Option Buffer := do
  let b ← if bytes.length > b.prependableBytes then b.shiftReadable else some b
  -- More than the prepend region holds is not supported.
  if bytes.length > b.prependableBytes then some b
  else
    let readerIndex := b.readerIndex - bytes.length
    let data ← write b.data readerIndex bytes
    some { b with data := data, readerIndex := readerIndex }

def prependInt32 (native : Endian) (b : Buffer) (value : BitVec (8 * 4)) : Option Buffer :=
  b.prepend (objectBytes native (toNetwork native value))

/-! ## What `Prepend` does -/

/-- What fits in front of the readable bytes is written there. -/
theorem prepend_fits {b : Buffer} (hValid : b.Valid) {bytes : List Byte}
    (hFits : bytes.length ≤ b.prependableBytes) :
    ∃ b', b.prepend bytes = some b' ∧ b'.Valid ∧ b'.readable = bytes ++ b.readable := by
  have hOrder := hValid.reader_le_writer
  have hSize := hValid.writer_le_size
  unfold prependableBytes at hFits
  have hStart : b.readerIndex - bytes.length + bytes.length = b.readerIndex := by omega
  have hRange : b.readerIndex - bytes.length + bytes.length ≤ b.data.length := by omega
  obtain ⟨data, hWrite⟩ :
      ∃ data, write b.data (b.readerIndex - bytes.length) bytes = some data :=
    ⟨_, write_eq_some hRange⟩
  have hLength := length_of_write hWrite
  refine ⟨⟨data, b.readerIndex - bytes.length, b.writerIndex⟩, ?_, ⟨?_, ?_, ?_⟩, ?_⟩
  · have hNot : ¬ bytes.length > b.prependableBytes := not_lt.mpr hFits
    simp only [prepend, if_neg hNot, hWrite, Option.bind_eq_bind, Option.bind_some]
  · exact hValid.prepend_le_writer
  · show b.readerIndex - bytes.length ≤ b.writerIndex
    omega
  · show b.writerIndex ≤ data.length
    rw [hLength]
    exact hSize
  · have hCount : b.writerIndex - (b.readerIndex - bytes.length) =
        bytes.length + b.readableBytes := by
      unfold readableBytes
      omega
    have hSlice := slice_of_write_front hWrite b.readableBytes
    rw [hStart] at hSlice
    show slice data (b.readerIndex - bytes.length)
      (b.writerIndex - (b.readerIndex - bytes.length)) = bytes ++ b.readable
    rw [hCount]
    exact hSlice

theorem shiftReadable_spec {b : Buffer} (hValid : b.Valid)
    (hFront : kInitialPrepend + b.readableBytes ≤ b.data.length) :
    ∃ b', b.shiftReadable = some b' ∧ b'.Valid ∧ b'.readable = b.readable ∧
      b'.prependableBytes = kInitialPrepend := by
  obtain ⟨data, hMove, -, hKeeps, hReadable⟩ := shift_spec hValid hFront
  refine ⟨_, ?_, hKeeps.valid, hReadable, rfl⟩
  simp only [shiftReadable, hMove, Option.map_some]

/-- After a shift `Prepend` goes on as on the shifted buffer. -/
theorem prepend_shift {b b' : Buffer} {bytes : List Byte}
    (hLong : bytes.length > b.prependableBytes) (hShift : b.shiftReadable = some b') :
    b.prepend bytes = if bytes.length > b'.prependableBytes then some b' else b'.prepend bytes := by
  by_cases hStill : bytes.length > b'.prependableBytes
  · simp [prepend, hLong, hShift, hStill]
  · simp [prepend, hLong, hShift, hStill]

theorem prepend_shift_spec {b : Buffer} (hValid : b.Valid) {bytes : List Byte}
    (hLong : bytes.length > b.prependableBytes)
    (hFront : kInitialPrepend + b.readableBytes ≤ b.data.length) :
    ∃ b', b.prepend bytes = some b' ∧ b'.Valid ∧
      b'.readable =
        if bytes.length ≤ kInitialPrepend then bytes ++ b.readable else b.readable := by
  obtain ⟨shifted, hShift, hShifted, hReadable, hPrependable⟩ := shiftReadable_spec hValid hFront
  rw [prepend_shift hLong hShift, hPrependable]
  by_cases hShort : bytes.length ≤ kInitialPrepend
  · rw [if_neg (not_lt.mpr hShort), if_pos hShort, ← hReadable]
    exact prepend_fits hShifted (by rw [hPrependable]; exact hShort)
  · rw [if_pos (not_le.mp hShort), if_neg hShort]
    exact ⟨shifted, rfl, hShifted, hReadable⟩

/-- The move would leave the vector. -/
theorem prepend_eq_none {b : Buffer} {bytes : List Byte}
    (hLong : bytes.length > b.prependableBytes)
    (hFront : ¬ kInitialPrepend + b.readableBytes ≤ b.data.length) :
    b.prepend bytes = none := by
  have hShift : b.shiftReadable = none := by
    simp [shiftReadable, move_eq_none hFront]
  simp [prepend, hLong, hShift]

theorem prepend_valid {b b' : Buffer} (hValid : b.Valid) {bytes : List Byte}
    (hPrepend : b.prepend bytes = some b') : b'.Valid := by
  by_cases hFits : bytes.length ≤ b.prependableBytes
  · obtain ⟨found, hFound, hFoundValid, -⟩ := prepend_fits hValid hFits
    rw [hPrepend] at hFound
    exact Option.some.inj hFound ▸ hFoundValid
  · by_cases hFront : kInitialPrepend + b.readableBytes ≤ b.data.length
    · obtain ⟨found, hFound, hFoundValid, -⟩ :=
        prepend_shift_spec hValid (not_le.mp hFits) hFront
      rw [hPrepend] at hFound
      exact Option.some.inj hFound ▸ hFoundValid
    · rw [prepend_eq_none (not_le.mp hFits) hFront] at hPrepend
      cases hPrepend

/-- `Prepend(data)` stays inside the vector, leaves the indices in order, and puts the
data in front of the readable bytes if the prepend region can hold it. -/
def PrependSound (b : Buffer) (bytes : List Byte) : Prop :=
  ∃ b', b.prepend bytes = some b' ∧
    b'.readerIndex ≤ b'.writerIndex ∧ b'.writerIndex ≤ b'.data.length ∧
    b'.readable = if bytes.length ≤ max kInitialPrepend b.prependableBytes
      then bytes ++ b.readable else b.readable

theorem prependSound_iff {b : Buffer} (hValid : b.Valid) (bytes : List Byte) :
    PrependSound b bytes ↔
      bytes.length ≤ b.prependableBytes ∨
        kInitialPrepend + b.readableBytes ≤ b.data.length := by
  by_cases hFits : bytes.length ≤ b.prependableBytes
  · obtain ⟨b', hPrepend, hAfter, hReadable⟩ := prepend_fits hValid hFits
    refine iff_of_true ⟨b', hPrepend, hAfter.reader_le_writer, hAfter.writer_le_size, ?_⟩
      (Or.inl hFits)
    rw [if_pos (hFits.trans (le_max_right _ _)), hReadable]
  · by_cases hFront : kInitialPrepend + b.readableBytes ≤ b.data.length
    · obtain ⟨b', hPrepend, hAfter, hReadable⟩ :=
        prepend_shift_spec hValid (not_le.mp hFits) hFront
      refine iff_of_true ⟨b', hPrepend, hAfter.reader_le_writer, hAfter.writer_le_size, ?_⟩
        (Or.inr hFront)
      rw [hReadable]
      have hMax : bytes.length ≤ max kInitialPrepend b.prependableBytes ↔
          bytes.length ≤ kInitialPrepend := by omega
      simp only [hMax]
    · refine iff_of_false ?_ (not_or.mpr ⟨hFits, hFront⟩)
      rintro ⟨b', hPrepend, -⟩
      rw [prepend_eq_none (not_le.mp hFits) hFront] at hPrepend
      cases hPrepend

end Buffer

/-! ## All operations -/

/-- A public operation on a family of buffers. -/
inductive BufferAction (ι : Type*) where
  | pool (op : BufferPoolOp ι)
  | prepend (index : ι) (bytes : List Byte)
  | prependInt32 (index : ι) (value : BitVec (8 * 4))
  | shrink (index : ι) (reserve : Nat)

variable {ι : Type*} [DecidableEq ι]

def stepBuffers (native : Endian) (pool : ι → Buffer) :
    BufferAction ι → Option (ι → Buffer)
  | .pool op => (stepPool native pool op).map Prod.fst
  | .prepend index bytes => ((pool index).prepend bytes).map (Function.update pool index)
  | .prependInt32 index value =>
      ((pool index).prependInt32 native value).map (Function.update pool index)
  -- `Shrink` does nothing yet.
  | .shrink _ _ => some pool

theorem update_all {P : Buffer → Prop} {pool : ι → Buffer} (hAll : ∀ index, P (pool index))
    {index : ι} {b : Buffer} (hB : P b) (other : ι) : P (Function.update pool index b other) := by
  by_cases hOther : other = index
  · subst hOther
    simpa using hB
  · simpa [hOther] using hAll other

/-- What `Prepend` keeps, all actions keep that are not one of the other operations. -/
theorem stepBuffers_all {native : Endian} {P : Buffer → Prop}
    (hPrepend : ∀ b bytes b', P b → Buffer.prepend b bytes = some b' → P b')
    {pool pool' : ι → Buffer} {action : BufferAction ι} (hAll : ∀ index, P (pool index))
    (hStep : stepBuffers native pool action = some pool')
    (hOn : ∀ index op, action = .pool (.on index op) → ∀ other, P (pool' other)) :
    ∀ index, P (pool' index) := by
  cases action with
  | pool op =>
      cases op with
      | on index op => exact hOn index op rfl
      | swap first second =>
          obtain rfl : swapEntries pool first second = pool' := by
            simpa [stepBuffers, stepPool] using hStep
          exact update_all (update_all hAll (hAll second)) (hAll first)
  | prepend index bytes =>
      obtain ⟨b', hSome, rfl⟩ := Option.map_eq_some_iff.mp hStep
      exact update_all hAll (hPrepend _ _ _ (hAll index) hSome)
  | prependInt32 index value =>
      obtain ⟨b', hSome, rfl⟩ := Option.map_eq_some_iff.mp hStep
      exact update_all hAll (hPrepend _ _ _ (hAll index) hSome)
  | shrink index reserve =>
      obtain rfl : pool = pool' := by simpa [stepBuffers] using hStep
      exact hAll

theorem stepBuffers_valid {native : Endian} (pool : ι → Buffer) (action : BufferAction ι)
    (pool' : ι → Buffer) (hValid : ∀ index, (pool index).Valid)
    (hStep : stepBuffers native pool action = some pool') : ∀ index, (pool' index).Valid := by
  have hPrepend : ∀ b bytes b', Buffer.Valid b → Buffer.prepend b bytes = some b' → b'.Valid :=
    fun _ _ _ hBefore hSome => Buffer.prepend_valid hBefore hSome
  refine stepBuffers_all hPrepend hValid hStep ?_
  rintro index op rfl
  obtain ⟨b', reply, hApply, hKeeps, -⟩ := Buffer.apply_refines native (hValid index) op
  obtain rfl : Function.update pool index b' = pool' := by
    simpa [stepBuffers, stepPool, hApply] using hStep
  exact update_all hValid hKeeps.valid

/-- Every buffer that the public operations reach is valid. -/
theorem exec_buffers_valid {native : Endian} {initialSize : ι → Nat}
    {actions : List (BufferAction ι)} {pool : ι → Buffer}
    (hRun : exec (stepBuffers native) (fun index => Buffer.new (initialSize index)) actions =
      some pool) (index : ι) : (pool index).Valid :=
  exec_invariant (fun pool : ι → Buffer => ∀ index, (pool index).Valid) stepBuffers_valid
    (fun index => (Buffer.new_wf (initialSize index)).valid) hRun index

/-- **When `Prepend` is sound.**  In every buffer that the public operations reach, and for
all data: `Prepend` does what it is for exactly when the data fits in front of the readable
bytes or the readable bytes fit into the vector behind the standard prepend region. -/
theorem prepend_sound_iff_fits {native : Endian} {initialSize : ι → Nat}
    {actions : List (BufferAction ι)} {pool : ι → Buffer}
    (hRun : exec (stepBuffers native) (fun index => Buffer.new (initialSize index)) actions =
      some pool) (index : ι) (bytes : List Byte) :
    Buffer.PrependSound (pool index) bytes ↔
      bytes.length ≤ (pool index).prependableBytes ∨
        Buffer.kInitialPrepend + (pool index).readableBytes ≤ (pool index).data.length :=
  Buffer.prependSound_iff (exec_buffers_valid hRun index) bytes

/-- A length in front of a message. -/
theorem prepend_sound_after_append :
    ∃ pool, exec (stepBuffers .little) (fun _ : Unit => Buffer.new 16)
        [.pool (.on () (.append [1, 2, 3]))] = some pool ∧
      Buffer.PrependSound (pool ()) [0, 0, 0, 3] := by
  have hRun : exec (stepBuffers .little) (fun _ : Unit => Buffer.new 16)
      [.pool (.on () (.append [1, 2, 3]))] = some _ := rfl
  exact ⟨_, hRun, (prepend_sound_iff_fits hRun () _).mpr (Or.inl (by decide))⟩

/-- A buffer without writable bytes, four bytes prepended to it, and eight more: the move
of the four bytes ends four bytes behind the vector. -/
theorem not_prependSound_twice :
    ∃ pool, exec (stepBuffers .little) (fun _ : Unit => Buffer.new 0)
        [.prepend () [1, 2, 3, 4]] = some pool ∧
      ¬ Buffer.PrependSound (pool ()) [1, 2, 3, 4, 5, 6, 7, 8] := by
  refine ⟨_, rfl, ?_⟩
  rintro ⟨b', hPrepend, -⟩
  cases hPrepend

end SolarNet
