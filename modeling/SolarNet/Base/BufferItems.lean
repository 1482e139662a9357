import SolarNet.Base.BufferPrepend

/-!
# Typed items through a buffer

A writer appends a list of items, integers of four widths and byte strings, and
a reader reads them back with the functions of the same types.  Writes and reads
interleave as they like; a read is made only when all bytes of its item are
there, and what was in the buffer before is retrieved first.

The invariant behind the round trip: the bytes in the buffer followed by the
encoding of what is still to be written are the encoding of what is still to be
read.
-/

namespace SolarNet

open Lib

/-- A value that is written to a buffer.  The integers are given by their two's
complement representation. -/
inductive Item where
  | int8 (value : BitVec (8 * 1))
  | int16 (value : BitVec (8 * 2))
  | int32 (value : BitVec (8 * 4))
  | int64 (value : BitVec (8 * 8))
  | bytes (string : List Byte)
  deriving DecidableEq, Repr

/-- What a reader has to know about an item. -/
inductive ItemShape where
  | int8
  | int16
  | int32
  | int64
  | bytes (len : Nat)
  deriving DecidableEq, Repr

/-- The number of bytes. -/
def ItemShape.size : ItemShape → Nat
  | .int8 => 1
  | .int16 => 2
  | .int32 => 4
  | .int64 => 8
  | .bytes len => len

namespace Item

def shape : Item → ItemShape
  | .int8 _ => .int8
  | .int16 _ => .int16
  | .int32 _ => .int32
  | .int64 _ => .int64
  | .bytes string => .bytes string.length

/-- The bytes on the wire; an integer goes from its most significant byte down. -/
def encode : Item → List Byte
  | .int8 value => objectBytes .big value
  | .int16 value => objectBytes .big value
  | .int32 value => objectBytes .big value
  | .int64 value => objectBytes .big value
  | .bytes string => string

@[simp] theorem length_encode (item : Item) : item.encode.length = item.shape.size := by
  cases item <;> simp [encode, shape, ItemShape.size]

end Item

namespace Buffer

/-- `AppendInt8`, `AppendInt16`, `AppendInt32`, `AppendInt64` or `Append`. -/
def writeItem (native : Endian) (b : Buffer) : Item → Option Buffer
  | .int8 value => b.appendInt8 native value
  | .int16 value => b.appendInt16 native value
  | .int32 value => b.appendInt32 native value
  | .int64 value => b.appendInt64 native value
  | .bytes string => b.append string

/-- `ReadInt8`, `ReadInt16`, `ReadInt32`, `ReadInt64` or `ReadString(len)`. -/
def readItem (native : Endian) (b : Buffer) : ItemShape → Buffer × Item
  | .int8 => ((b.readInt8 native).1, .int8 (b.readInt8 native).2)
  | .int16 => ((b.readInt16 native).1, .int16 (b.readInt16 native).2)
  | .int32 => ((b.readInt32 native).1, .int32 (b.readInt32 native).2)
  | .int64 => ((b.readInt64 native).1, .int64 (b.readInt64 native).2)
  | .bytes len => ((b.readString len).1, .bytes (b.readString len).2)

/-- `PeekInt8`, `PeekInt16`, `PeekInt32` or `PeekInt64`. -/
def peekItem (native : Endian) (b : Buffer) : ItemShape → Option Item
  | .int8 => some (.int8 (b.peekInt8 native))
  | .int16 => some (.int16 (b.peekInt16 native))
  | .int32 => some (.int32 (b.peekInt32 native))
  | .int64 => some (.int64 (b.peekInt64 native))
  | .bytes _ => none

/-- A write adds the encoding of the item. -/
theorem writeItem_spec (native : Endian) {b : Buffer} (hValid : b.Valid) (item : Item) :
    ∃ b', b.writeItem native item = some b' ∧ b'.Valid ∧
      b'.readable = b.readable ++ item.encode := by
  cases item with
  | int8 value =>
      obtain ⟨b', hAppend, hKeeps, hReadable⟩ := append_spec hValid (objectBytes native value)
      rw [objectBytes_one] at hReadable
      exact ⟨b', hAppend, hKeeps.valid, hReadable⟩
  | int16 value | int32 value | int64 value =>
      obtain ⟨b', hAppend, hKeeps, hReadable⟩ := appendInt_spec native hValid value
      exact ⟨b', hAppend, hKeeps.valid, hReadable⟩
  | bytes string =>
      obtain ⟨b', hAppend, hKeeps, hReadable⟩ := append_spec hValid string
      exact ⟨b', hAppend, hKeeps.valid, hReadable⟩

/-- The integer in front of the readable bytes. -/
theorem peekInt_encoded (native : Endian) {size : Nat} {b : Buffer} (hValid : b.Valid)
    (value : BitVec (8 * size)) {rest : List Byte}
    (hReadable : b.readable = objectBytes .big value ++ rest) :
    b.peekInt native size = value := by
  have hTake : b.readable.take size = objectBytes .big value := by
    rw [hReadable]
    exact List.take_left' (length_objectBytes .big value)
  have hLength : ¬ b.readable.length < size := by
    rw [hReadable, List.length_append, length_objectBytes]
    omega
  rw [peekInt_eq native size hValid, if_neg hLength, hTake, ofObjectBytes_objectBytes]

theorem peekInt8_encoded (native : Endian) {b : Buffer} (hValid : b.Valid)
    (value : BitVec (8 * 1)) {rest : List Byte}
    (hReadable : b.readable = objectBytes .big value ++ rest) :
    b.peekInt8 native = value := by
  rw [peekInt8_eq native hValid, ← peekInt_eq native 1 hValid]
  exact peekInt_encoded native hValid value hReadable

/-- A read takes the item in front of the readable bytes. -/
theorem readItem_spec (native : Endian) {b : Buffer} (hValid : b.Valid) (item : Item)
    {rest : List Byte} (hReadable : b.readable = item.encode ++ rest) :
    (b.readItem native item.shape).2 = item ∧ (b.readItem native item.shape).1.Valid ∧
      (b.readItem native item.shape).1.readable = rest := by
  have hAfter : (b.readItem native item.shape).1 = b.retrieve item.shape.size := by
    cases item <;> rfl
  have hRest : (b.retrieve item.shape.size).readable = rest := by
    rw [retrieve_readable hValid, hReadable]
    exact List.drop_left' item.length_encode
  refine ⟨?_, ?_, ?_⟩
  · cases item with
    | int8 value => exact congrArg Item.int8 (peekInt8_encoded native hValid value hReadable)
    | int16 value => exact congrArg Item.int16 (peekInt_encoded native hValid value hReadable)
    | int32 value => exact congrArg Item.int32 (peekInt_encoded native hValid value hReadable)
    | int64 value => exact congrArg Item.int64 (peekInt_encoded native hValid value hReadable)
    | bytes string =>
        have hTake : b.readable.take string.length = string := by
          rw [hReadable]
          exact List.take_left' rfl
        exact congrArg Item.bytes hTake
  · rw [hAfter]
    exact (retrieve_keeps hValid _).valid
  · rw [hAfter]
    exact hRest

end Buffer

/-! ## Interleaved writes and reads -/

/-- The state of an exchange over one buffer: what is left of the prior content, the items
that are still to be written and to be read, and what the reads have returned. -/
structure Exchange where
  buffer : Buffer
  prior : List Byte
  toWrite : List Item
  toRead : List Item
  returned : List Item

inductive ExchangeLabel where
  /-- `Retrieve(len)` on the prior content. -/
  | retrieve (len : Nat)
  | write
  | read
  deriving DecidableEq, Repr

namespace Exchange

def start (b : Buffer) (items : List Item) : Exchange :=
  ⟨b, b.readable, items, items, []⟩

def step (native : Endian) (s : Exchange) : ExchangeLabel → Option Exchange
  | .retrieve len =>
      if len ≤ s.prior.length then
        some { s with buffer := s.buffer.retrieve len, prior := s.prior.drop len }
      else none
  | .write =>
      match s.toWrite with
      | [] => none
      | item :: rest =>
          (s.buffer.writeItem native item).map fun b =>
            { s with buffer := b, toWrite := rest }
  | .read =>
      match s.prior, s.toRead with
      | [], item :: rest =>
          if item.shape.size ≤ s.buffer.readableBytes then
            some { s with
              buffer := (s.buffer.readItem native item.shape).1
              toRead := rest
              returned := s.returned ++ [(s.buffer.readItem native item.shape).2] }
          else none
      | _, _ => none

/-- The bytes in the buffer and the items that are still to be written make up the items
that are still to be read. -/
structure InTransit (items : List Item) (s : Exchange) : Prop where
  valid : s.buffer.Valid
  bytes : ∃ rest, s.buffer.readable = s.prior ++ rest ∧
    rest ++ s.toWrite.flatMap Item.encode = s.toRead.flatMap Item.encode
  returned_eq : s.returned ++ s.toRead = items

theorem start_inTransit {b : Buffer} (hValid : b.Valid) (items : List Item) :
    InTransit items (start b items) where
  valid := hValid
  bytes := ⟨[], by simp [start], by simp [start]⟩
  returned_eq := rfl

/-- When its bytes are there, the next item stands in front. -/
theorem InTransit.next {items : List Item} {s : Exchange} (hInv : InTransit items s)
    (hPrior : s.prior = []) {item : Item} {later : List Item}
    (hNext : s.toRead = item :: later)
    (hThere : item.shape.size ≤ s.buffer.readableBytes) :
    ∃ rest, s.buffer.readable = item.encode ++ rest ∧
      rest ++ s.toWrite.flatMap Item.encode = later.flatMap Item.encode := by
  obtain ⟨bytes, hReadable, hBytes⟩ := hInv.bytes
  rw [hPrior, List.nil_append] at hReadable
  rw [hNext, List.flatMap_cons] at hBytes
  have hLength : item.encode.length ≤ bytes.length := by
    rw [item.length_encode, ← hReadable, hInv.valid.length_readable]
    exact hThere
  obtain ⟨rest, rfl⟩ : item.encode <+: bytes :=
    List.prefix_of_prefix_length_le (List.prefix_append _ _)
      (hBytes ▸ List.prefix_append bytes _) hLength
  rw [List.append_assoc] at hBytes
  exact ⟨rest, hReadable, List.append_cancel_left hBytes⟩

theorem step_inTransit {native : Endian} {items : List Item} (s : Exchange)
    (label : ExchangeLabel) (s' : Exchange) (hInv : InTransit items s)
    (hStep : step native s label = some s') : InTransit items s' := by
  cases label with
  | retrieve len =>
      simp only [step, Option.ite_none_right_eq_some, Option.some.injEq] at hStep
      obtain ⟨hLen, rfl⟩ := hStep
      obtain ⟨rest, hReadable, hBytes⟩ := hInv.bytes
      refine ⟨(Buffer.retrieve_keeps hInv.valid len).valid, ⟨rest, ?_, hBytes⟩,
        hInv.returned_eq⟩
      rw [Buffer.retrieve_readable hInv.valid, hReadable,
        List.drop_append_of_le_length hLen]
  | write =>
      simp only [step] at hStep
      split at hStep
      · cases hStep
      · next item later hWrite =>
        obtain ⟨b, hItem, hAfter, hAfterReadable⟩ :=
          Buffer.writeItem_spec native hInv.valid item
        rw [hItem, Option.map_some, Option.some.injEq] at hStep
        subst hStep
        obtain ⟨rest, hReadable, hBytes⟩ := hInv.bytes
        refine ⟨hAfter, ⟨rest ++ item.encode, ?_, ?_⟩, hInv.returned_eq⟩
        · rw [hAfterReadable, hReadable, List.append_assoc]
        · rw [← hBytes, hWrite, List.flatMap_cons, List.append_assoc]
  | read =>
      simp only [step] at hStep
      split at hStep
      · next item later hPrior hRead =>
        simp only [Option.ite_none_right_eq_some, Option.some.injEq] at hStep
        obtain ⟨hThere, rfl⟩ := hStep
        obtain ⟨rest, hReadable, hBytes⟩ := hInv.next hPrior hRead hThere
        obtain ⟨hItem, hAfter, hAfterReadable⟩ :=
          Buffer.readItem_spec native hInv.valid item hReadable
        refine ⟨hAfter, ⟨rest, ?_, hBytes⟩, ?_⟩
        · simpa [hPrior] using hAfterReadable
        · simp only [hItem, List.append_assoc, List.singleton_append]
          rw [← hRead]
          exact hInv.returned_eq
      · cases hStep

/-- **Typed items round-trip.**  For every buffer that the public operations reach, with
any content, every list of items, and every interleaving of writes and reads, on machines
of either byte order: the reads have returned the items in order; a write is defined and
adds the encoding of its item; the next read returns the next item, and peeking returns
the same; and when all items are read the buffer is empty. -/
theorem items_round_trip {ι : Type*} [DecidableEq ι] {native : Endian} {initialSize : ι → Nat}
    {actions : List (BufferAction ι)} {pool : ι → Buffer}
    (hReached : exec (stepBuffers native) (fun index => Buffer.new (initialSize index)) actions =
      some pool) (index : ι) (items : List Item) {labels : List ExchangeLabel} {s : Exchange}
    (hRun : exec (step native) (start (pool index) items) labels = some s) :
    s.returned ++ s.toRead = items ∧
      (∀ item later, s.toWrite = item :: later → ∃ b',
        s.buffer.writeItem native item = some b' ∧
          b'.readable = s.buffer.readable ++ item.encode) ∧
      (∀ item later, s.prior = [] → s.toRead = item :: later →
        item.shape.size ≤ s.buffer.readableBytes →
          (s.buffer.readItem native item.shape).2 = item) ∧
      (∀ shape value, s.buffer.peekItem native shape = some value →
        (s.buffer.readItem native shape).2 = value) ∧
      (s.prior = [] → s.toRead = [] → s.buffer.readable = []) := by
  have hInv : InTransit items s :=
    exec_invariant (InTransit items) step_inTransit
      (start_inTransit (exec_buffers_valid hReached index) items) hRun
  refine ⟨hInv.returned_eq, ?_, ?_, ?_, ?_⟩
  · intro item later _
    obtain ⟨b', hWrite, -, hReadable⟩ := Buffer.writeItem_spec native hInv.valid item
    exact ⟨b', hWrite, hReadable⟩
  · intro item later hPrior hRead hThere
    obtain ⟨rest, hReadable, -⟩ := hInv.next hPrior hRead hThere
    exact (Buffer.readItem_spec native hInv.valid item hReadable).1
  · intro shape value hPeek
    cases shape with
    | bytes len => cases hPeek
    | int8 | int16 | int32 | int64 => exact Option.some.inj hPeek
  · intro hPrior hRead
    obtain ⟨rest, hReadable, hBytes⟩ := hInv.bytes
    rw [hRead, List.flatMap_nil, List.append_eq_nil_iff] at hBytes
    rw [hReadable, hPrior, hBytes.1]
    rfl

/-- A negative integer and a string behind a byte of prior content, in a buffer that has to
grow for them. -/
def mixedItems : List Item := [.int16 0x8001#16, .bytes [1, 2]]

theorem items_round_trip_mixedItems :
    ∃ pool s, exec (stepBuffers .little) (fun _ : Unit => Buffer.new 0)
        [.pool (.on () (.append [9]))] = some pool ∧
      exec (step .little) (start (pool ()) mixedItems) [.write, .retrieve 1, .read, .write, .read] =
        some s ∧ s.returned = mixedItems ∧ s.buffer.readable = [] := by
  have hReached : exec (stepBuffers .little) (fun _ : Unit => Buffer.new 0)
      [.pool (.on () (.append [9]))] = some _ := rfl
  refine ⟨_, _, hReached, rfl, ?_⟩
  obtain ⟨hReturned, -, -, -, hEmpty⟩ := items_round_trip hReached () mixedItems
    (show exec (step .little) _ [.write, .retrieve 1, .read, .write, .read] = some _ from rfl)
  exact ⟨by simpa using hReturned, hEmpty rfl rfl⟩

end Exchange
end SolarNet
