import SolarNet.Lib.Storage
import SolarNet.Lib.Word

/-!
# `Buffer`: the growable byte buffer

The functions of `solar_net/base/buffer.cpp` over the fields of `Buffer`.  The
vector `m_data` is a list of bytes and the two indices are natural numbers, so
this file describes the buffer for sizes at which `size_t` does not wrap.

Every access by which the code overwrites memory (`memcpy`, `memmove`, the
first `iovec` of `readv`) goes through a checked operation of
`SolarNet.Lib.Storage`.  A function that performs one therefore returns an
`Option`, and `none` stands for an access outside `m_data`.
-/

namespace SolarNet

open Lib

/-- `std::byte`. -/
abbrev Byte := UInt8

/-- A Linux error number. -/
abbrev Errno := Nat

/-- What a `readv` finds: an error, or a stream of available bytes of which the
call takes as many as its vectors hold. -/
inductive SysRead where
  | error (errno : Errno)
  | data (stream : List Byte)
  deriving DecidableEq, Repr

/-- What a `write` meets: an error, or room for `count` bytes.  A caller that logs the error
may find another `errno` afterwards, which is `logged`. -/
inductive SysWrite where
  | error (errno logged : Errno)
  | room (count : Nat)
  deriving DecidableEq, Repr

/-- `::write(fd, data, length)`: the error, or the number of bytes taken. -/
def SysWrite.result (call : SysWrite) (length : Nat) : Except Errno Nat :=
  match call with
  | .error errno _ => .error errno
  | .room count => .ok (min count length)

/-- `errno` after the error has been logged. -/
def SysWrite.logged : SysWrite → Errno
  | .error _ logged => logged
  | .room _ => 0

/-- The state of a `Buffer`. -/
structure Buffer where
  data : List Byte
  readerIndex : Nat
  writerIndex : Nat
  deriving DecidableEq, Repr

namespace Buffer

/-- Default size of the prepend region. -/
def kInitialPrepend : Nat := 8

/-- Default size of the writable region. -/
def kInitialSize : Nat := 1024

/-- `Buffer(initial_size)`. -/
def new (initialSize : Nat) : Buffer where
  data := List.replicate (kInitialPrepend + initialSize) 0
  readerIndex := kInitialPrepend
  writerIndex := kInitialPrepend

def readableBytes (b : Buffer) : Nat := b.writerIndex - b.readerIndex

def writableBytes (b : Buffer) : Nat := b.data.length - b.writerIndex

def prependableBytes (b : Buffer) : Nat := b.readerIndex

/-- `ReadableSpan` and `ToStringView`: the bytes between the two indices. -/
def readable (b : Buffer) : List Byte :=
  slice b.data b.readerIndex b.readableBytes

/-! ## Space -/

/-- Grow the vector, or slide the readable bytes to the front. -/
def makeSpace (b : Buffer) (len : Nat) : Option Buffer :=
  if b.writableBytes + b.prependableBytes < len + kInitialPrepend then
    some { b with data := resize b.data (b.writerIndex + len) 0 }
  else
    let readable := b.readableBytes
    (move b.data kInitialPrepend b.readerIndex readable).map fun data =>
      { data := data
        readerIndex := kInitialPrepend
        writerIndex := kInitialPrepend + readable }

def ensureWritableBytes (b : Buffer) (len : Nat) : Option Buffer :=
  if b.writableBytes < len then b.makeSpace len else some b

def reserve (b : Buffer) (len : Nat) : Option Buffer :=
  b.ensureWritableBytes len

/-! ## Appending -/

/-- `Append`; the three overloads of the source hand over the same bytes. -/
def append (b : Buffer) (bytes : List Byte) : Option Buffer := do
  let b ← b.ensureWritableBytes bytes.length
  let data ← write b.data b.writerIndex bytes
  return { b with data := data, writerIndex := b.writerIndex + bytes.length }

/-- `ByteSwap`: the loop writes each source byte in front of the previous one. -/
def byteSwap (native : Endian) {size : Nat} (value : BitVec (8 * size)) :
    BitVec (8 * size) :=
  ofObjectBytes native size
    ((objectBytes native value).foldl (fun result byte => byte :: result) [])

def toNetwork (native : Endian) {size : Nat} (value : BitVec (8 * size)) :
    BitVec (8 * size) :=
  if native = .big then value else byteSwap native value

def fromNetwork (native : Endian) {size : Nat} (value : BitVec (8 * size)) :
    BitVec (8 * size) :=
  if native = .big then value else byteSwap native value

/-- The common body of `AppendInt16`, `AppendInt32` and `AppendInt64`. -/
def appendInt (native : Endian) {size : Nat} (b : Buffer)
    (value : BitVec (8 * size)) : Option Buffer :=
  b.append (objectBytes native (toNetwork native value))

/-- `AppendInt8` appends the byte of the value without a conversion. -/
def appendInt8 (native : Endian) (b : Buffer) (value : BitVec (8 * 1)) :
    Option Buffer :=
  b.append (objectBytes native value)

def appendInt16 (native : Endian) (b : Buffer) (value : BitVec (8 * 2)) :
    Option Buffer :=
  appendInt native b value

def appendInt32 (native : Endian) (b : Buffer) (value : BitVec (8 * 4)) :
    Option Buffer :=
  appendInt native b value

def appendInt64 (native : Endian) (b : Buffer) (value : BitVec (8 * 8)) :
    Option Buffer :=
  appendInt native b value

/-! ## Retrieving -/

def retrieveAll (b : Buffer) : Buffer :=
  { b with readerIndex := kInitialPrepend, writerIndex := kInitialPrepend }

def retrieve (b : Buffer) (len : Nat) : Buffer :=
  if len < b.readableBytes then
    { b with readerIndex := b.readerIndex + len }
  else
    b.retrieveAll

/-- `RetrieveUntil(std::string_view)`. -/
def retrieveUntil (b : Buffer) (delimiter : List Byte) : Buffer :=
  match findSub delimiter b.readable with
  | some pos => b.retrieve (pos + delimiter.length)
  | none => b

def retrieveAsString (b : Buffer) (len : Nat) : Buffer × List Byte :=
  (b.retrieve len, b.readable.take len)

def retrieveAllAsString (b : Buffer) : Buffer × List Byte :=
  (b.retrieveAll, b.readable)

/-- The `memcpy` out of the readable region that the `PeekInt` family shares. -/
def peekObject (native : Endian) (size : Nat) (b : Buffer) : BitVec (8 * size) :=
  ofObjectBytes native size (slice b.data b.readerIndex size)

/-- The common body of `PeekInt16`, `PeekInt32` and `PeekInt64`. -/
def peekInt (native : Endian) (size : Nat) (b : Buffer) : BitVec (8 * size) :=
  if b.readableBytes < size then 0 else fromNetwork native (peekObject native size b)

/-- `PeekInt8` returns the byte without a conversion. -/
def peekInt8 (native : Endian) (b : Buffer) : BitVec (8 * 1) :=
  if b.readableBytes < 1 then 0 else peekObject native 1 b

def peekInt16 (native : Endian) (b : Buffer) : BitVec (8 * 2) := peekInt native 2 b

def peekInt32 (native : Endian) (b : Buffer) : BitVec (8 * 4) := peekInt native 4 b

def peekInt64 (native : Endian) (b : Buffer) : BitVec (8 * 8) := peekInt native 8 b

def readInt8 (native : Endian) (b : Buffer) : Buffer × BitVec (8 * 1) :=
  (b.retrieve 1, b.peekInt8 native)

def readInt16 (native : Endian) (b : Buffer) : Buffer × BitVec (8 * 2) :=
  (b.retrieve 2, b.peekInt16 native)

def readInt32 (native : Endian) (b : Buffer) : Buffer × BitVec (8 * 4) :=
  (b.retrieve 4, b.peekInt32 native)

def readInt64 (native : Endian) (b : Buffer) : Buffer × BitVec (8 * 8) :=
  (b.retrieve 8, b.peekInt64 native)

def readString (b : Buffer) (len : Nat) : Buffer × List Byte :=
  b.retrieveAsString len

/-! ## File descriptors -/

/-- Size of the stack buffer behind the second `iovec` of `ReadFd`. -/
def extrabufSize : Nat := 65536

/-- The number of bytes that the vectors handed to `readv` can hold. -/
def readvCapacity (b : Buffer) : Nat :=
  if b.writableBytes < extrabufSize then b.writableBytes + extrabufSize
  else b.writableBytes

/-- `ReadFd`.  The bytes that do not fit behind the writer index land in
`extrabuf` and are appended afterwards. -/
def readFd (b : Buffer) (call : SysRead) : Option (Buffer × Except Errno Nat) :=
  match call with
  | .error errno => some (b, .error errno)
  | .data stream => do
      let writable := b.writableBytes
      let bytes := stream.take b.readvCapacity
      let n := bytes.length
      let data ← write b.data b.writerIndex (bytes.take writable)
      if n ≤ writable then
        return ({ b with data := data, writerIndex := b.writerIndex + n }, .ok n)
      else
        let b ← append { b with data := data, writerIndex := data.length }
          (bytes.drop writable)
        return (b, .ok n)

/-- `WriteFd`: write the readable bytes and retrieve what the kernel took. -/
def writeFd (b : Buffer) (call : SysWrite) : Buffer × Except Errno Nat :=
  match call.result b.readableBytes with
  | .error errno => (b, .error errno)
  | .ok n => (b.retrieve n, .ok n)

end Buffer
end SolarNet
