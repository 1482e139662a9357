import SolarNet.Base.Buffer
import SolarNet.Lib.FirstDifference

/-!
# `InetAddress`

The constructors, the accessors and the comparisons of
`solar_net/net/transport/inet_address.cpp`.  A `sockaddr_storage` is 128 bytes; the
family stands in the first two of them in the byte order of the machine (little
endian), the port in the next two in network order.  `inet_pton` and `inet_ntop` are
parameters.

`operator==` compares the lengths and that many bytes.  `operator<` compares the
families and then the bytes that both addresses have, and so it cannot tell an
address from one that continues it.
-/

namespace SolarNet

open Lib

/-- `sizeof(sockaddr_storage)`. -/
def kStorageSize : Nat := 128

/-- `sizeof(sockaddr_in)`. -/
def kSockaddrInSize : Nat := 16

/-- `sizeof(sockaddr_in6)`. -/
def kSockaddrIn6Size : Nat := 28

def AF_INET : UInt16 := 2

def AF_INET6 : UInt16 := 10

abbrev SockaddrStorage := Fin kStorageSize → Byte

namespace SockaddrStorage

/-- `memcpy` of `n` bytes to an offset. -/
def store {n : Nat} (addr : SockaddrStorage) (offset : Nat) (data : Fin n → Byte) :
    SockaddrStorage :=
  fun i => if h : offset ≤ i.val ∧ i.val - offset < n then data ⟨i.val - offset, h.2⟩ else addr i

/-- The `n` bytes from an offset on that a member of the structure has. -/
def load (addr : SockaddrStorage) (offset n : Nat) : Fin n → Byte :=
  fun i => if h : offset + i.val < kStorageSize then addr ⟨offset + i.val, h⟩ else 0

/-- After `memset` to 0. -/
def zero : SockaddrStorage := fun _ => 0

/-- `ss_family`. -/
def family (addr : SockaddrStorage) : UInt16 :=
  let bytes := addr.load 0 2
  UInt16.ofNat ((bytes ⟨0, Nat.two_pos⟩).toNat + 256 * (bytes ⟨1, Nat.one_lt_two⟩).toNat)

def setFamily (addr : SockaddrStorage) (family : UInt16) : SockaddrStorage :=
  addr.store 0 ![UInt8.ofNat (family.toNat % 256), UInt8.ofNat (family.toNat / 256)]

/-- `sin_port` and `sin6_port`, set to `htons(port)`. -/
def setPort (addr : SockaddrStorage) (port : UInt16) : SockaddrStorage :=
  addr.store 2 ![UInt8.ofNat (port.toNat / 256), UInt8.ofNat (port.toNat % 256)]

/-- `ntohs(sin_port)`. -/
def port (addr : SockaddrStorage) : UInt16 :=
  let bytes := addr.load 2 2
  UInt16.ofNat (256 * (bytes ⟨0, Nat.two_pos⟩).toNat + (bytes ⟨1, Nat.one_lt_two⟩).toNat)

/-- `sin_addr`. -/
def setIn (addr : SockaddrStorage) (ip : Fin 4 → Byte) : SockaddrStorage := addr.store 4 ip

/-- `sin6_addr`, behind the flow information. -/
def setIn6 (addr : SockaddrStorage) (ip : Fin 16 → Byte) : SockaddrStorage := addr.store 8 ip

/-- `memcmp` of the first `n` bytes: the sign at the first difference. -/
def memcmp (a b : SockaddrStorage) (n : Nat) : Int :=
  match Fin.find? fun i => decide (i.val < n) && a i != b i with
  | none => 0
  | some i => if a i < b i then -1 else 1

end SockaddrStorage

/-- `inet_pton`: the bytes it writes when it returns 1. -/
structure InetPton where
  v4 : String → Option (Fin 4 → Byte)
  v6 : String → Option (Fin 16 → Byte)

/-- `inet_ntop`. -/
structure InetNtop where
  v4 : (Fin 4 → Byte) → String
  v6 : (Fin 16 → Byte) → String

/-- `InetAddress`: `m_addr` and `m_len`. -/
structure InetAddress where
  addr : SockaddrStorage
  len : Nat
  len_le : len ≤ kStorageSize
  deriving DecidableEq

namespace InetAddress

open SockaddrStorage

/-- The length that goes with a family. -/
def lengthFor (family : UInt16) : Nat :=
  if family = AF_INET then kSockaddrInSize
  else if family = AF_INET6 then kSockaddrIn6Size
  else kStorageSize

theorem lengthFor_le (family : UInt16) : lengthFor family ≤ kStorageSize := by
  unfold lengthFor
  split
  · decide
  split
  · decide
  · exact le_rfl

/-- The address bytes that `ResetToAny` leaves. -/
def anyAddr (family : UInt16) : SockaddrStorage :=
  if family = AF_INET then (zero.setFamily family).setIn (fun _ => 0)
  else if family = AF_INET6 then (zero.setFamily family).setIn6 (fun _ => 0)
  else zero.setFamily family

/-- `ResetToAny`. -/
def resetToAny (family : UInt16) : InetAddress where
  addr := anyAddr family
  len := lengthFor family
  len_le := lengthFor_le family

/-- An address of the family whose bytes after the family are changed. -/
def withAddr (a : InetAddress) (addr : SockaddrStorage) : InetAddress :=
  { a with addr := addr }

/-- `InetAddress()`. -/
def new : InetAddress := resetToAny AF_INET

def inaddrLoopback : Fin 4 → Byte := ![127, 0, 0, 1]

def in6addrLoopback : Fin 16 → Byte := ![0, 0, 0, 0, 0, 0, 0, 0, 0, 0, 0, 0, 0, 0, 0, 1]

/-- `InetAddress(port, loopback_only, family)`. -/
def ofPort (port : UInt16) (loopbackOnly : Bool) (family : UInt16) : InetAddress :=
  let a := resetToAny family
  if family = AF_INET then
    let addr := a.addr.setPort port
    a.withAddr (if loopbackOnly then addr.setIn inaddrLoopback else addr)
  else if family = AF_INET6 then
    let addr := a.addr.setPort port
    a.withAddr (if loopbackOnly then addr.setIn6 in6addrLoopback else addr)
  else a

/-- `InetAddress(ip, port, family)`. -/
def ofIp (pton : InetPton) (ip : String) (port family : UInt16) : InetAddress :=
  let a := resetToAny family
  if family = AF_INET then
    match pton.v4 ip with
    | none => resetToAny AF_INET
    | some bytes => a.withAddr ((a.addr.setIn bytes).setPort port)
  else if family = AF_INET6 then
    match pton.v6 ip with
    | none => resetToAny AF_INET6
    | some bytes => a.withAddr ((a.addr.setIn6 bytes).setPort port)
  else a

/-- `InetAddress(const sockaddr_in&)`. -/
def ofSockaddrIn (addr : Fin kSockaddrInSize → Byte) : InetAddress where
  addr := zero.store 0 addr
  len := kSockaddrInSize
  len_le := by decide

/-- `InetAddress(const sockaddr_in6&)`. -/
def ofSockaddrIn6 (addr : Fin kSockaddrIn6Size → Byte) : InetAddress where
  addr := zero.store 0 addr
  len := kSockaddrIn6Size
  len_le := by decide

/-- `InetAddress(const sockaddr_storage&)`. -/
def ofStorage (addr : SockaddrStorage) : InetAddress where
  addr := addr
  len := lengthFor addr.family
  len_le := lengthFor_le addr.family

/-- `InetAddress(const sockaddr*, len)`.  `memory` is what stands behind the pointer. -/
def ofSockaddr (memory : Option (Nat → Byte)) (len : Nat) : InetAddress :=
  match memory with
  | none => resetToAny AF_INET
  | some bytes =>
      let copied : InetAddress :=
        { addr := zero.store 0 fun i : Fin (min len kStorageSize) => bytes i.val
          len := min len kStorageSize
          len_le := Nat.min_le_right len kStorageSize }
      if copied.addr.family ≠ AF_INET ∧ copied.addr.family ≠ AF_INET6 then resetToAny AF_INET
      else copied

/-- `Family`. -/
def family (a : InetAddress) : UInt16 := a.addr.family

/-- `ToIp`. -/
def toIp (ntop : InetNtop) (a : InetAddress) : String :=
  if a.family = AF_INET then ntop.v4 (a.addr.load 4 4)
  else if a.family = AF_INET6 then ntop.v6 (a.addr.load 8 16)
  else ""

/-- `Port`. -/
def port (a : InetAddress) : UInt16 :=
  if a.family = AF_INET then a.addr.port
  else if a.family = AF_INET6 then a.addr.port
  else 0

/-- `ToIpPort`. -/
def toIpPort (ntop : InetNtop) (a : InetAddress) : String :=
  if a.family = AF_INET6 then "[" ++ a.toIp ntop ++ "]:" ++ toString a.port.toNat
  else a.toIp ntop ++ ":" ++ toString a.port.toNat

/-- `operator==`. -/
def eq (a b : InetAddress) : Bool :=
  a.len == b.len && memcmp a.addr b.addr a.len == 0

/-- `operator<`. -/
def less (a b : InetAddress) : Bool :=
  if a.family ≠ b.family then decide (a.family < b.family)
  else decide (memcmp a.addr b.addr (if a.len < b.len then a.len else b.len) < 0)

/-! ### What the comparisons look at -/

theorem isLowerSet_below (n : Nat) : IsLowerSet {i : Fin kStorageSize | i.val < n} := by
  intro i j hLe hLt
  simp only [Set.mem_ofPred_eq] at hLt ⊢
  omega

/-- The places of the first `n` bytes. -/
def below (n : Nat) : LowerSet (Fin kStorageSize) := ⟨_, isLowerSet_below n⟩

theorem mem_below {n : Nat} {i : Fin kStorageSize} : i ∈ below n ↔ i.val < n := by
  simp [below]

theorem below_inf (m n : Nat) : below m ⊓ below n = below (min m n) := by
  ext i
  simp only [LowerSet.mem_inf_iff, SetLike.mem_coe, mem_below, lt_min_iff]

/-- The bytes as `memcmp` compares them. -/
def octets (addr : SockaddrStorage) : Fin kStorageSize → Nat := fun i => (addr i).toNat

theorem memcmp_eq_zero_iff (a b : SockaddrStorage) (n : Nat) :
    memcmp a b n = 0 ↔ ∀ i ∈ below n, octets a i = octets b i := by
  unfold memcmp
  split
  case h_1 hNone =>
    rw [Fin.find?_eq_none_iff] at hNone
    refine iff_of_true rfl fun i hI => ?_
    have hEq := hNone i
    simp only [mem_below.mp hI, decide_true, Bool.true_and, bne_eq_false_iff_eq] at hEq
    rw [octets, octets, hEq]
  case h_2 i hSome =>
    obtain ⟨hHit, -⟩ := Fin.find?_eq_some_iff.mp hSome
    simp only [Bool.and_eq_true, decide_eq_true_eq, bne_iff_ne] at hHit
    refine iff_of_false ?_ fun hEq => hHit.2 (UInt8.toNat_inj.mp (hEq i (mem_below.mpr hHit.1)))
    split <;> decide

theorem memcmp_neg_iff (a b : SockaddrStorage) (n : Nat) :
    memcmp a b n < 0 ↔ LessOn (below n) (octets a) (octets b) := by
  unfold memcmp
  split
  case h_1 hNone =>
    rw [Fin.find?_eq_none_iff] at hNone
    refine iff_of_false (lt_irrefl 0) (not_lessOn_of_eqOn fun i hI => ?_)
    have hEq := hNone i
    simp only [mem_below.mp hI, decide_true, Bool.true_and, bne_eq_false_iff_eq] at hEq
    rw [octets, octets, hEq]
  case h_2 i hSome =>
    obtain ⟨hHit, hBefore⟩ := Fin.find?_eq_some_iff.mp hSome
    simp only [Bool.and_eq_true, decide_eq_true_eq, bne_iff_ne] at hHit
    have hSame : ∀ j < i, octets a j = octets b j := by
      intro j hLt
      have hEq := hBefore j hLt
      have hBelow : j.val < n := lt_trans hLt hHit.1
      simp only [hBelow, decide_true, Bool.true_and, bne_eq_false_iff_eq] at hEq
      rw [octets, octets, hEq]
    split
    case isTrue hLess =>
      exact iff_of_true (by decide) ⟨i, mem_below.mpr hHit.1, hSame, UInt8.lt_iff_toNat_lt.mp hLess⟩
    case isFalse hNot =>
      refine iff_of_false (by decide) ?_
      rintro ⟨j, -, hSameJ, hLess⟩
      rcases lt_trichotomy i j with hLt | rfl | hGt
      · exact hHit.2 (UInt8.toNat_inj.mp (hSameJ i hLt))
      · exact hNot (UInt8.lt_iff_toNat_lt.mpr hLess)
      · exact hLess.ne (hSame j hGt)

/-- The bytes that belong to the address. -/
def part (a : InetAddress) : LowerSet (Fin kStorageSize) := below a.len

theorem less_iff (a b : InetAddress) :
    less a b = true ↔ a.family < b.family ∨
      (a.family = b.family ∧ LessOn (a.part ⊓ b.part) (octets a.addr) (octets b.addr)) := by
  have hMin : (if a.len < b.len then a.len else b.len) = min a.len b.len := by
    rw [min_def]
    split <;> split <;> omega
  unfold less
  rw [hMin, part, part, below_inf, ← memcmp_neg_iff]
  by_cases hFamily : a.family = b.family
  · simp [hFamily]
  · simp [hFamily]

theorem eq_iff (a b : InetAddress) :
    eq a b = true ↔ a.len = b.len ∧ ∀ i ∈ a.part, octets a.addr i = octets b.addr i := by
  unfold eq part
  rw [Bool.and_eq_true, beq_iff_eq, beq_iff_eq, memcmp_eq_zero_iff]

/-! ### Addresses as the keys of a map -/

def Incomparable (a b : InetAddress) : Prop := less a b = false ∧ less b a = false

/-- `operator<` orders the keys of a map, and takes for one key what `operator==` takes
for one address. -/
structure MapOrder (keys : Set InetAddress) : Prop where
  irrefl : ∀ a ∈ keys, less a a = false
  trans : ∀ a ∈ keys, ∀ b ∈ keys, ∀ c ∈ keys, less a b = true → less b c = true →
    less a c = true
  incomparable_trans : ∀ a ∈ keys, ∀ b ∈ keys, ∀ c ∈ keys, Incomparable a b →
    Incomparable b c → Incomparable a c
  incomparable_iff_eq : ∀ a ∈ keys, ∀ b ∈ keys, Incomparable a b ↔ eq a b = true

/-- The longer address begins with all bytes of the shorter one. -/
def Continues (longer shorter : InetAddress) : Prop :=
  longer.family = shorter.family ∧ shorter.len < longer.len ∧
    ∀ i : Fin kStorageSize, i.val < shorter.len → longer.addr i = shorter.addr i

theorem less_irrefl (a : InetAddress) : less a a = false := by
  rw [Bool.eq_false_iff]
  intro hLess
  rcases (less_iff a a).mp hLess with hFamily | ⟨-, hBytes⟩
  · exact UInt16.lt_irrefl _ hFamily
  · exact LessOn.irrefl _ _ hBytes

theorem less_trans {a b c : InetAddress} (hAB : less a b = true) (hBC : less b c = true) :
    less a c = true := by
  rw [less_iff] at hAB hBC ⊢
  rcases hAB with hAB | ⟨hEqAB, hAB⟩
  · rcases hBC with hBC | ⟨hEqBC, -⟩
    · exact .inl (UInt16.lt_trans hAB hBC)
    · exact .inl (hEqBC ▸ hAB)
  · rcases hBC with hBC | ⟨hEqBC, hBC⟩
    · exact .inl (hEqAB ▸ hBC)
    · exact .inr ⟨hEqAB.trans hEqBC, hAB.trans hBC⟩

/-- Incomparable addresses have one family and agree on the bytes that both have. -/
theorem incomparable_iff (a b : InetAddress) :
    Incomparable a b ↔ a.family = b.family ∧
      ∀ i : Fin kStorageSize, i.val < a.len → i.val < b.len → a.addr i = b.addr i := by
  have hPart : ∀ i, i ∈ a.part ⊓ b.part ↔ i.val < a.len ∧ i.val < b.len := by
    intro i
    rw [LowerSet.mem_inf_iff, part, part, mem_below, mem_below]
  unfold Incomparable
  rw [Bool.eq_false_iff, Bool.eq_false_iff, ne_eq, ne_eq, less_iff, less_iff]
  constructor
  · rintro ⟨hAB, hBA⟩
    have hFamily : a.family = b.family := by
      rcases lt_trichotomy a.family.toNat b.family.toNat with hLt | hEq | hGt
      · exact absurd (.inl (UInt16.lt_iff_toNat_lt.mpr hLt)) hAB
      · exact UInt16.toNat_inj.mp hEq
      · exact absurd (.inl (UInt16.lt_iff_toNat_lt.mpr hGt)) hBA
    refine ⟨hFamily, fun i hA hB => ?_⟩
    have hNotAB : ¬LessOn (a.part ⊓ b.part) (octets a.addr) (octets b.addr) :=
      fun hLess => hAB (.inr ⟨hFamily, hLess⟩)
    have hNotBA : ¬LessOn (a.part ⊓ b.part) (octets b.addr) (octets a.addr) := by
      rw [inf_comm]
      exact fun hLess => hBA (.inr ⟨hFamily.symm, hLess⟩)
    exact UInt8.toNat_inj.mp (eqOn_of_not_lessOn hNotAB hNotBA i ((hPart i).mpr ⟨hA, hB⟩))
  · rintro ⟨hFamily, hSame⟩
    have hEq : ∀ i ∈ a.part ⊓ b.part, octets a.addr i = octets b.addr i := by
      intro i hI
      obtain ⟨hA, hB⟩ := (hPart i).mp hI
      rw [octets, octets, hSame i hA hB]
    rw [hFamily, inf_comm b.part]
    constructor
    · rintro (hLt | ⟨-, hLess⟩)
      · exact UInt16.lt_irrefl _ hLt
      · exact not_lessOn_of_eqOn hEq hLess
    · rintro (hLt | ⟨-, hLess⟩)
      · exact UInt16.lt_irrefl _ hLt
      · exact not_lessOn_of_eqOn (fun i hI => (hEq i hI).symm) hLess

/-- The values that the constructors produce from what callers may pass: for the
pointer with a length, a length that covers the family. -/
inductive Constructed (pton : InetPton) : InetAddress → Prop where
  | new : Constructed pton new
  | ofPort (port : UInt16) (loopbackOnly : Bool) (family : UInt16) :
      Constructed pton (ofPort port loopbackOnly family)
  | ofIp (ip : String) (port family : UInt16) : Constructed pton (ofIp pton ip port family)
  | ofSockaddrIn (addr : Fin kSockaddrInSize → Byte) : Constructed pton (ofSockaddrIn addr)
  | ofSockaddrIn6 (addr : Fin kSockaddrIn6Size → Byte) : Constructed pton (ofSockaddrIn6 addr)
  | ofStorage (addr : SockaddrStorage) : Constructed pton (ofStorage addr)
  | ofSockaddr (memory : Option (Nat → Byte)) (len : Nat) (hLen : 2 ≤ len) :
      Constructed pton (ofSockaddr memory len)

theorem two_le_lengthFor (family : UInt16) : 2 ≤ lengthFor family := by
  unfold lengthFor
  split
  · decide
  split
  · decide
  · decide

theorem len_ofPort (port : UInt16) (loopbackOnly : Bool) (family : UInt16) :
    (ofPort port loopbackOnly family).len = lengthFor family := by
  unfold ofPort
  dsimp only
  split
  · rfl
  split
  · rfl
  · rfl

theorem len_ofIp (pton : InetPton) (ip : String) (port family : UInt16) :
    (ofIp pton ip port family).len = lengthFor family := by
  unfold ofIp
  dsimp only
  split
  case isTrue hV4 =>
    subst hV4
    split
    · rfl
    · rfl
  case isFalse =>
    split
    case isTrue hV6 =>
      subst hV6
      split
      · rfl
      · rfl
    case isFalse => rfl

/-- Every constructor stores the family inside the bytes that count. -/
theorem Constructed.two_le_len {pton : InetPton} {a : InetAddress} (hA : Constructed pton a) :
    2 ≤ a.len := by
  cases hA with
  | new => exact two_le_lengthFor AF_INET
  | ofPort port loopbackOnly family =>
      rw [len_ofPort]
      exact two_le_lengthFor family
  | ofIp ip port family =>
      rw [len_ofIp]
      exact two_le_lengthFor family
  | ofSockaddrIn addr => exact (by decide : 2 ≤ kSockaddrInSize)
  | ofSockaddrIn6 addr => exact (by decide : 2 ≤ kSockaddrIn6Size)
  | ofStorage addr => exact two_le_lengthFor addr.family
  | ofSockaddr memory len hLen =>
      cases memory with
      | none => exact two_le_lengthFor AF_INET
      | some bytes =>
          simp only [InetAddress.ofSockaddr]
          split
          · exact two_le_lengthFor AF_INET
          · exact le_min hLen (by decide)

/-- Addresses that agree on bytes that cover the family have one family. -/
theorem family_eq_of_bytes {a b : InetAddress} (hLen : 2 ≤ a.len)
    (hSame : ∀ i : Fin kStorageSize, i.val < a.len → a.addr i = b.addr i) :
    a.family = b.family := by
  have hByte : ∀ i : Fin 2, a.addr.load 0 2 i = b.addr.load 0 2 i := by
    intro i
    simp only [load]
    split
    · exact hSame _ (by dsimp only; omega)
    · rfl
  rw [family, family, SockaddrStorage.family, SockaddrStorage.family, hByte, hByte]

theorem bytes_of_eq {a b : InetAddress} (hEq : eq a b = true) :
    a.len = b.len ∧ ∀ i : Fin kStorageSize, i.val < a.len → a.addr i = b.addr i := by
  obtain ⟨hLen, hSame⟩ := (eq_iff a b).mp hEq
  exact ⟨hLen, fun i hI => UInt8.toNat_inj.mp (hSame i (mem_below.mpr hI))⟩

theorem eq_of_bytes {a b : InetAddress} (hLen : a.len = b.len)
    (hSame : ∀ i : Fin kStorageSize, i.val < a.len → a.addr i = b.addr i) : eq a b = true := by
  refine (eq_iff a b).mpr ⟨hLen, fun i hI => ?_⟩
  rw [octets, octets, hSame i (mem_below.mp hI)]

theorem incomparable_of_continues {longer shorter : InetAddress}
    (hContinues : Continues longer shorter) : Incomparable longer shorter :=
  (incomparable_iff longer shorter).mpr
    ⟨hContinues.1, fun i _ hShort => hContinues.2.2 i hShort⟩

/-- Incomparable addresses are equal, or one of them continues the other. -/
theorem incomparable_cases {a b : InetAddress} (hIncomparable : Incomparable a b) :
    eq a b = true ∨ Continues a b ∨ Continues b a := by
  obtain ⟨hFamily, hSame⟩ := (incomparable_iff a b).mp hIncomparable
  rcases lt_trichotomy a.len b.len with hLt | hLen | hGt
  · refine .inr (.inr ⟨hFamily.symm, hLt, fun i hI => ?_⟩)
    exact (hSame i hI (hI.trans hLt)).symm
  · exact .inl (eq_of_bytes hLen fun i hI => hSame i hI (hLen ▸ hI))
  · exact .inr (.inl ⟨hFamily, hGt, fun i hI => hSame i (hI.trans hGt) hI⟩)

theorem eq_trans {a b c : InetAddress} (hAB : eq a b = true) (hBC : eq b c = true) :
    eq a c = true := by
  obtain ⟨hLenAB, hSameAB⟩ := bytes_of_eq hAB
  obtain ⟨hLenBC, hSameBC⟩ := bytes_of_eq hBC
  exact eq_of_bytes (hLenAB.trans hLenBC) fun i hI =>
    (hSameAB i hI).trans (hSameBC i (hLenAB ▸ hI))

theorem mapOrder_of_not_continues {pton : InetPton} {keys : Set InetAddress}
    (hKeys : ∀ a ∈ keys, Constructed pton a)
    (hFree : ∀ a ∈ keys, ∀ b ∈ keys, ¬Continues a b) : MapOrder keys := by
  have hIff : ∀ a ∈ keys, ∀ b ∈ keys, Incomparable a b ↔ eq a b = true := by
    intro a hA b hB
    constructor
    · intro hIncomparable
      rcases incomparable_cases hIncomparable with hEq | hAB | hBA
      · exact hEq
      · exact absurd hAB (hFree a hA b hB)
      · exact absurd hBA (hFree b hB a hA)
    · intro hEq
      obtain ⟨-, hSame⟩ := bytes_of_eq hEq
      exact (incomparable_iff a b).mpr
        ⟨family_eq_of_bytes (hKeys a hA).two_le_len hSame, fun i hI _ => hSame i hI⟩
  refine ⟨fun a _ => less_irrefl a, fun a _ b _ c _ => less_trans, ?_, hIff⟩
  intro a hA b hB c hC hAB hBC
  exact (hIff a hA c hC).mpr
    (eq_trans ((hIff a hA b hB).mp hAB) ((hIff b hB c hC).mp hBC))

/-- The addresses that constructors produce are the keys of a map exactly when none of
them continues another one. -/
theorem mapOrder_iff_not_continues (pton : InetPton) (keys : Set InetAddress)
    (hKeys : ∀ a ∈ keys, Constructed pton a) :
    MapOrder keys ↔ ∀ a ∈ keys, ∀ b ∈ keys, ¬Continues a b := by
  refine ⟨fun hOrder a hA b hB hContinues => ?_, mapOrder_of_not_continues hKeys⟩
  have hEq := (hOrder.incomparable_iff_eq a hA b hB).mp (incomparable_of_continues hContinues)
  have hLt := hContinues.2.1
  have hLen := (bytes_of_eq hEq).1
  omega

/-- `inet_pton`, as far as 127.0.0.1. -/
def loopbackPton : InetPton where
  v4 := fun ip => if ip = "127.0.0.1" then some inaddrLoopback else none
  v6 := fun _ => none

/-- The same host and port by its name and by its port alone, and another port. -/
theorem mapOrder_iff_not_continues_loopback :
    eq (ofIp loopbackPton "127.0.0.1" 80 AF_INET) (ofPort 80 true AF_INET) = true ∧
      MapOrder {ofIp loopbackPton "127.0.0.1" 80 AF_INET, ofPort 80 true AF_INET,
        ofPort 81 true AF_INET} := by
  refine ⟨by decide +kernel, ?_⟩
  refine (mapOrder_iff_not_continues loopbackPton _ ?_).mpr ?_
  · rintro a (rfl | rfl | rfl)
    · exact .ofIp _ _ _
    · exact .ofPort _ _ _
    · exact .ofPort _ _ _
  · rintro a hA b hB ⟨-, hLt, -⟩
    have hLen : ∀ c ∈ ({ofIp loopbackPton "127.0.0.1" 80 AF_INET, ofPort 80 true AF_INET,
        ofPort 81 true AF_INET} : Set InetAddress), c.len = 16 := by
      rintro c (rfl | rfl | rfl)
      · exact len_ofIp _ _ _ _
      · exact len_ofPort _ _ _
      · exact len_ofPort _ _ _
    rw [hLen a hA, hLen b hB] at hLt
    omega

/-- A `sockaddr*` to the family `AF_INET` alone, with length 2. -/
def familyOnly : InetAddress := ofSockaddr (some fun i => if i = 0 then 2 else 0) 2

/-- An address of two bytes is incomparable to two different ports. -/
theorem not_mapOrder_familyOnly :
    (Constructed loopbackPton familyOnly ∧ Constructed loopbackPton (ofPort 80 true AF_INET) ∧
      Constructed loopbackPton (ofPort 81 true AF_INET)) ∧
    (Incomparable (ofPort 80 true AF_INET) familyOnly ∧
      Incomparable familyOnly (ofPort 81 true AF_INET) ∧
      less (ofPort 80 true AF_INET) (ofPort 81 true AF_INET) = true ∧
      eq familyOnly (ofPort 81 true AF_INET) = false) ∧
    ¬MapOrder {familyOnly, ofPort 80 true AF_INET, ofPort 81 true AF_INET} := by
  have hFirst : Incomparable (ofPort 80 true AF_INET) familyOnly :=
    ⟨by decide +kernel, by decide +kernel⟩
  have hSecond : Incomparable familyOnly (ofPort 81 true AF_INET) :=
    ⟨by decide +kernel, by decide +kernel⟩
  have hLess : less (ofPort 80 true AF_INET) (ofPort 81 true AF_INET) = true := by
    decide +kernel
  refine ⟨⟨.ofSockaddr _ _ le_rfl, .ofPort _ _ _, .ofPort _ _ _⟩,
    ⟨hFirst, hSecond, hLess, by decide +kernel⟩, fun hOrder => ?_⟩
  have hEnds := hOrder.incomparable_trans _ (by simp) _ (by simp) _ (by simp) hFirst hSecond
  exact absurd (hLess.symm.trans hEnds.1) (by decide)

/-! ### Constructors that set the length by the family -/

theorem family_store {n : Nat} (addr : SockaddrStorage) {offset : Nat} (hOffset : 2 ≤ offset)
    (data : Fin n → Byte) : (addr.store offset data).family = addr.family := by
  have hByte : ∀ i : Fin 2, (addr.store offset data).load 0 2 i = addr.load 0 2 i := by
    intro i
    have hOut : ¬(offset ≤ 0 + i.val ∧ 0 + i.val - offset < n) := by omega
    simp only [load, store, dif_neg hOut]
  rw [SockaddrStorage.family, SockaddrStorage.family, hByte, hByte]

theorem family_setFamily (addr : SockaddrStorage) (family : UInt16) :
    (addr.setFamily family).family = family := by
  have hLow : (addr.setFamily family).load 0 2 ⟨0, Nat.two_pos⟩ =
      UInt8.ofNat (family.toNat % 256) := by
    simp [load, setFamily, store, kStorageSize]
  have hHigh : (addr.setFamily family).load 0 2 ⟨1, Nat.one_lt_two⟩ =
      UInt8.ofNat (family.toNat / 256) := by
    simp [load, setFamily, store, kStorageSize]
  have hBound : family.toNat < 65536 := family.toNat_lt
  have hValue : (UInt8.ofNat (family.toNat % 256)).toNat +
      256 * (UInt8.ofNat (family.toNat / 256)).toNat = family.toNat := by
    simp only [UInt8.toNat_ofNat']
    omega
  rw [SockaddrStorage.family, hLow, hHigh, hValue, UInt16.ofNat_toNat]

theorem family_resetToAny (family : UInt16) : (resetToAny family).family = family := by
  simp only [InetAddress.family, resetToAny, anyAddr]
  split
  · rw [setIn, family_store _ (by omega), family_setFamily]
  split
  · rw [setIn6, family_store _ (by omega), family_setFamily]
  · rw [family_setFamily]

theorem family_ofPort (port : UInt16) (loopbackOnly : Bool) (family : UInt16) :
    (ofPort port loopbackOnly family).family = family := by
  have hReset := family_resetToAny family
  have hPort : ((resetToAny family).addr.setPort port).family = family := by
    rw [setPort, family_store _ le_rfl]
    exact hReset
  unfold ofPort
  dsimp only
  split
  · cases loopbackOnly with
    | false => exact hPort
    | true => exact (family_store _ (by omega) _).trans hPort
  split
  · cases loopbackOnly with
    | false => exact hPort
    | true => exact (family_store _ (by omega) _).trans hPort
  · exact hReset

theorem family_ofIp (pton : InetPton) (ip : String) (port family : UInt16) :
    (ofIp pton ip port family).family = family := by
  have hReset := family_resetToAny family
  unfold ofIp
  dsimp only
  split
  case isTrue hV4 =>
    subst hV4
    split
    · exact hReset
    · exact (family_store _ le_rfl _).trans ((family_store _ (by omega) _).trans hReset)
  case isFalse =>
    split
    case isTrue hV6 =>
      subst hV6
      split
      · exact hReset
      · exact (family_store _ le_rfl _).trans ((family_store _ (by omega) _).trans hReset)
    case isFalse => exact hReset

/-- Built without a `sockaddr`, or from a whole `sockaddr_storage`. -/
inductive SizedByFamily (pton : InetPton) : InetAddress → Prop where
  | new : SizedByFamily pton new
  | ofPort (port : UInt16) (loopbackOnly : Bool) (family : UInt16) :
      SizedByFamily pton (ofPort port loopbackOnly family)
  | ofIp (ip : String) (port family : UInt16) : SizedByFamily pton (ofIp pton ip port family)
  | ofStorage (addr : SockaddrStorage) : SizedByFamily pton (ofStorage addr)

theorem SizedByFamily.constructed {pton : InetPton} {a : InetAddress}
    (hA : SizedByFamily pton a) : Constructed pton a := by
  cases hA with
  | new => exact .new
  | ofPort port loopbackOnly family => exact .ofPort port loopbackOnly family
  | ofIp ip port family => exact .ofIp ip port family
  | ofStorage addr => exact .ofStorage addr

theorem SizedByFamily.len {pton : InetPton} {a : InetAddress} (hA : SizedByFamily pton a) :
    a.len = lengthFor a.family := by
  cases hA with
  | new => rw [InetAddress.new, family_resetToAny]; rfl
  | ofPort port loopbackOnly family => rw [len_ofPort, family_ofPort]
  | ofIp ip port family => rw [len_ofIp, family_ofIp]
  | ofStorage addr => rfl

/-- Addresses from these constructors can always be the keys of a map. -/
theorem mapOrder_of_sizedByFamily {pton : InetPton} {keys : Set InetAddress}
    (hKeys : ∀ a ∈ keys, SizedByFamily pton a) : MapOrder keys := by
  refine mapOrder_of_not_continues (fun a hA => (hKeys a hA).constructed) ?_
  rintro a hA b hB ⟨hFamily, hLt, -⟩
  rw [(hKeys a hA).len, (hKeys b hB).len, hFamily] at hLt
  omega

end InetAddress

end SolarNet
