import Mathlib.Data.List.Basic
import Mathlib.Tactic

/-!
# Machine words and their bytes in memory

A word of `size` bytes is a `BitVec (8 * size)`.  Its object representation is
the list of its bytes in address order, which depends on the byte order of the
machine.
-/

namespace SolarNet
namespace Lib

/-- The two byte orders. -/
inductive Endian where
  | little
  | big
  deriving DecidableEq, Repr

/-- The `size` low bytes of a number, least significant byte first. -/
def littleBytes : Nat → Nat → List UInt8
  | 0, _ => []
  | size + 1, value => UInt8.ofNat value :: littleBytes size (value / 256)

/-- The number whose bytes, least significant first, are given. -/
def littleValue : List UInt8 → Nat
  | [] => 0
  | byte :: bytes => byte.toNat + 256 * littleValue bytes

@[simp] theorem length_littleBytes (size value : Nat) :
    (littleBytes size value).length = size := by
  induction size generalizing value with
  | zero => rfl
  | succ size ih => simp [littleBytes, ih]

/-- Encoding keeps a number modulo the range of the word. -/
theorem littleValue_littleBytes (size value : Nat) :
    littleValue (littleBytes size value) = value % 256 ^ size := by
  induction size generalizing value with
  | zero => simp [littleBytes, littleValue, Nat.mod_one]
  | succ size ih =>
      have hByte : (UInt8.ofNat value).toNat = value % 256 := by
        simp [UInt8.toNat_ofNat']
      rw [littleBytes, littleValue, ih, hByte, pow_succ', Nat.mod_mul]

/-- Decoding and encoding again gives the bytes back. -/
theorem littleBytes_littleValue (bytes : List UInt8) :
    littleBytes bytes.length (littleValue bytes) = bytes := by
  induction bytes with
  | nil => rfl
  | cons byte bytes ih =>
      have hByte : byte.toNat < 256 := byte.toNat_lt
      have hLow : UInt8.ofNat (byte.toNat + 256 * littleValue bytes) = byte := by
        apply UInt8.toNat_inj.mp
        rw [UInt8.toNat_ofNat']
        omega
      have hHigh : (byte.toNat + 256 * littleValue bytes) / 256 = littleValue bytes := by
        omega
      simp only [littleValue, List.length_cons, littleBytes, hLow, hHigh, ih]

theorem littleValue_lt (bytes : List UInt8) :
    littleValue bytes < 256 ^ bytes.length := by
  induction bytes with
  | nil => simp [littleValue]
  | cons byte bytes ih =>
      have hByte : byte.toNat < 256 := byte.toNat_lt
      rw [littleValue, List.length_cons, pow_succ']
      omega

theorem two_pow_eight_mul (size : Nat) : 2 ^ (8 * size) = 256 ^ size := by
  rw [pow_mul]
  norm_num

/-- Put bytes that are in address order into the order of increasing
significance, or back. -/
def Endian.arrange (native : Endian) (bytes : List UInt8) : List UInt8 :=
  match native with
  | .little => bytes
  | .big => bytes.reverse

@[simp] theorem Endian.arrange_arrange (native : Endian) (bytes : List UInt8) :
    native.arrange (native.arrange bytes) = bytes := by
  cases native <;> simp [Endian.arrange]

@[simp] theorem Endian.length_arrange (native : Endian) (bytes : List UInt8) :
    (native.arrange bytes).length = bytes.length := by
  cases native <;> simp [Endian.arrange]

/-- The bytes of a word in address order. -/
def objectBytes (native : Endian) {size : Nat} (word : BitVec (8 * size)) :
    List UInt8 :=
  native.arrange (littleBytes size word.toNat)

/-- The word whose bytes in address order are given. -/
def ofObjectBytes (native : Endian) (size : Nat) (bytes : List UInt8) :
    BitVec (8 * size) :=
  BitVec.ofNat (8 * size) (littleValue (native.arrange bytes))

@[simp] theorem length_objectBytes (native : Endian) {size : Nat}
    (word : BitVec (8 * size)) : (objectBytes native word).length = size := by
  simp [objectBytes]

@[simp] theorem ofObjectBytes_objectBytes (native : Endian) {size : Nat}
    (word : BitVec (8 * size)) :
    ofObjectBytes native size (objectBytes native word) = word := by
  rw [ofObjectBytes, objectBytes, Endian.arrange_arrange, littleValue_littleBytes]
  apply BitVec.eq_of_toNat_eq
  have hLt := word.isLt
  rw [two_pow_eight_mul] at hLt
  rw [BitVec.toNat_ofNat, two_pow_eight_mul, Nat.mod_mod, Nat.mod_eq_of_lt hLt]

theorem objectBytes_ofObjectBytes (native : Endian) {size : Nat}
    {bytes : List UInt8} (hLength : bytes.length = size) :
    objectBytes native (ofObjectBytes native size bytes) = bytes := by
  have hLt := littleValue_lt (native.arrange bytes)
  rw [Endian.length_arrange, hLength] at hLt
  rw [objectBytes, ofObjectBytes, BitVec.toNat_ofNat, two_pow_eight_mul,
    Nat.mod_eq_of_lt hLt]
  have hRound := littleBytes_littleValue (native.arrange bytes)
  rw [Endian.length_arrange, hLength] at hRound
  rw [hRound, Endian.arrange_arrange]

end Lib
end SolarNet
