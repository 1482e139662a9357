import Mathlib
import SolarNet.Lib.Text
import SolarNet.Transport.InetAddress

/-!
# Addresses and their texts

`ToIp` and `ToIpPort` print what an address says about its end of a connection: the
family, the bytes of `sin_addr` or `sin6_addr`, and the port.  The constructor from a text
reads it back.  What they do not print (`sin_zero`, the flow information, the scope) is
lost, and `operator==` compares it.
-/

namespace SolarNet

open Lib

namespace SockaddrStorage

/-! ### Bytes -/

theorem store_of_out {n : Nat} (addr : SockaddrStorage) {offset : Nat} (data : Fin n → Byte)
    {i : Fin kStorageSize} (hOut : i.val < offset ∨ offset + n ≤ i.val) :
    addr.store offset data i = addr i := by
  have hNot : ¬(offset ≤ i.val ∧ i.val - offset < n) := by omega
  simp only [store, dif_neg hNot]

theorem load_store {n : Nat} (addr : SockaddrStorage) {offset : Nat} (data : Fin n → Byte)
    (hFits : offset + n ≤ kStorageSize) : (addr.store offset data).load offset n = data := by
  funext i
  have hStorage : offset + i.val < kStorageSize := by omega
  have hIn : offset ≤ offset + i.val ∧ offset + i.val - offset < n := by omega
  rw [load, dif_pos hStorage, store, dif_pos hIn]
  exact congrArg data (Fin.ext (Nat.add_sub_cancel_left offset i.val))

theorem load_store_of_out {n m : Nat} (addr : SockaddrStorage) {offset start : Nat}
    (data : Fin n → Byte) (hOut : start + m ≤ offset ∨ offset + n ≤ start) :
    (addr.store offset data).load start m = addr.load start m := by
  funext i
  simp only [load]
  split
  · exact store_of_out addr data (by dsimp only; omega)
  · rfl

/-- A byte of a member that two addresses agree on. -/
theorem byte_eq_of_load {first second : SockaddrStorage} {start n : Nat}
    (hLoad : first.load start n = second.load start n) {i : Fin kStorageSize}
    (hStart : start ≤ i.val) (hEnd : i.val < start + n) : first i = second i := by
  have hByte := congrFun hLoad ⟨i.val - start, by omega⟩
  have hIndex : start + (i.val - start) = i.val := by omega
  simpa only [load, hIndex, i.isLt, dite_true] using hByte

theorem port_setPort (addr : SockaddrStorage) (port : UInt16) :
    (addr.setPort port).port = port := by
  have hBound : port.toNat < 65536 := port.toNat_lt
  have hValue : 256 * (UInt8.ofNat (port.toNat / 256)).toNat +
      (UInt8.ofNat (port.toNat % 256)).toNat = port.toNat := by
    simp only [UInt8.toNat_ofNat']
    omega
  rw [SockaddrStorage.port, setPort, load_store addr _ (by decide)]
  exact (congrArg UInt16.ofNat hValue).trans UInt16.ofNat_toNat

/-- A number of two bytes determines them. -/
theorem bytes_eq_of_ofNat_eq {high low high' low' : Byte}
    (hNumber : UInt16.ofNat (256 * high.toNat + low.toNat) =
      UInt16.ofNat (256 * high'.toNat + low'.toNat)) : high = high' ∧ low = low' := by
  have hNat := congrArg UInt16.toNat hNumber
  simp only [UInt16.toNat_ofNat'] at hNat
  have hHigh := high.toNat_lt
  have hLow := low.toNat_lt
  have hHigh' := high'.toNat_lt
  have hLow' := low'.toNat_lt
  exact ⟨UInt8.toNat_inj.mp (by omega), UInt8.toNat_inj.mp (by omega)⟩

theorem load_eq_of_port_eq {first second : SockaddrStorage} (hPort : first.port = second.port) :
    first.load 2 2 = second.load 2 2 := by
  obtain ⟨hHigh, hLow⟩ := bytes_eq_of_ofNat_eq hPort
  funext i
  fin_cases i
  · exact hHigh
  · exact hLow

theorem load_eq_of_family_eq {first second : SockaddrStorage}
    (hFamily : first.family = second.family) : first.load 0 2 = second.load 0 2 := by
  -- The low byte comes first here.
  simp only [SockaddrStorage.family, Nat.add_comm _ (256 * _)] at hFamily
  obtain ⟨hHigh, hLow⟩ := bytes_eq_of_ofNat_eq hFamily
  funext i
  fin_cases i
  · exact hLow
  · exact hHigh

end SockaddrStorage

namespace InetAddress

open SockaddrStorage

/-- An address of one of the two families that the class knows. -/
def Supported (a : InetAddress) : Prop := a.family = AF_INET ∨ a.family = AF_INET6

/-- The same family, host and port. -/
structure SameEndpoint (a b : InetAddress) : Prop where
  family : a.family = b.family
  v4 : a.family = AF_INET → a.addr.load 4 4 = b.addr.load 4 4
  v6 : a.family = AF_INET6 → a.addr.load 8 16 = b.addr.load 8 16
  port : a.port = b.port

/-- `inet_pton` reads what `inet_ntop` writes for this address, and the text of an IPv4
address has no bracket. -/
structure Readable (pton : InetPton) (ntop : InetNtop) (a : InetAddress) : Prop where
  v4 : a.family = AF_INET → pton.v4 (ntop.v4 (a.addr.load 4 4)) = some (a.addr.load 4 4)
  v6 : a.family = AF_INET6 → pton.v6 (ntop.v6 (a.addr.load 8 16)) = some (a.addr.load 8 16)
  dotted : a.family = AF_INET → '[' ∉ (ntop.v4 (a.addr.load 4 4)).toList

/-- Nothing but family, host and port is in the address: no `sin_zero`, no flow
information and no scope. -/
structure Plain (a : InetAddress) : Prop where
  len : a.len = lengthFor a.family
  v4 : a.family = AF_INET → ∀ i : Fin kStorageSize, 8 ≤ i.val → i.val < 16 → a.addr i = 0
  v6 : a.family = AF_INET6 → ∀ i : Fin kStorageSize,
    (4 ≤ i.val ∧ i.val < 8) ∨ (24 ≤ i.val ∧ i.val < 28) → a.addr i = 0

theorem port_of_supported {a : InetAddress} (hSupported : Supported a) : a.port = a.addr.port := by
  unfold port
  rcases hSupported with hFamily | hFamily
  · rw [if_pos hFamily]
  · rw [if_pos hFamily, ite_self]

/-! ### Reading a text -/

/-- The constructor from a text that `inet_pton` accepts. -/
theorem ofIp_v4 {pton : InetPton} {ip : String} {bytes : Fin 4 → Byte} (port : UInt16)
    (hParse : pton.v4 ip = some bytes) :
    (ofIp pton ip port AF_INET).addr = ((anyAddr AF_INET).setIn bytes).setPort port := by
  simp [ofIp, hParse, withAddr, resetToAny]

theorem ofIp_v6 {pton : InetPton} {ip : String} {bytes : Fin 16 → Byte} (port : UInt16)
    (hParse : pton.v6 ip = some bytes) :
    (ofIp pton ip port AF_INET6).addr = ((anyAddr AF_INET6).setIn6 bytes).setPort port := by
  have hOther : AF_INET6 ≠ AF_INET := by decide
  simp [ofIp, hParse, withAddr, resetToAny, hOther]

theorem anyAddr_v4 {i : Fin kStorageSize} (hPast : 8 ≤ i.val) : anyAddr AF_INET i = 0 := by
  rw [anyAddr, if_pos rfl, setIn, store_of_out _ _ (by omega), setFamily,
    store_of_out _ _ (by omega), zero]

theorem anyAddr_v6 {i : Fin kStorageSize}
    (hOut : (4 ≤ i.val ∧ i.val < 8) ∨ 24 ≤ i.val) : anyAddr AF_INET6 i = 0 := by
  rw [anyAddr, if_neg (by decide), if_pos rfl, setIn6, store_of_out _ _ (by omega), setFamily,
    store_of_out _ _ (by omega), zero]

/-- What `inet_pton` makes of a text for this family. -/
def accepts (pton : InetPton) (ip : String) (family : UInt16) : Bool :=
  if family = AF_INET then (pton.v4 ip).isSome
  else if family = AF_INET6 then (pton.v6 ip).isSome
  else false

/-- `ResetToAny` leaves no port. -/
theorem port_resetToAny (family : UInt16) : (resetToAny family).port = 0 := by
  have hPort : (anyAddr family).load 2 2 = zero.load 2 2 := by
    unfold anyAddr
    split
    · rw [setIn, load_store_of_out _ _ (by omega), setFamily, load_store_of_out _ _ (by omega)]
    split
    · rw [setIn6, load_store_of_out _ _ (by omega), setFamily, load_store_of_out _ _ (by omega)]
    · rw [setFamily, load_store_of_out _ _ (by omega)]
  have hZero : (resetToAny family).addr.port = 0 := by
    rw [SockaddrStorage.port, resetToAny, hPort]
    decide
  unfold port
  rw [hZero, ite_self, ite_self]

/-- A text that is not accepted gives the wildcard address, and the port is lost with it. -/
theorem port_ofIp (pton : InetPton) (ip : String) (port family : UInt16) :
    (ofIp pton ip port family).port = if accepts pton ip family = true then port else 0 := by
  have hFamily := family_ofIp pton ip port family
  by_cases hV4 : family = AF_INET
  · subst hV4
    cases hParse : pton.v4 ip with
    | none =>
        rw [if_neg (by simp [accepts, hParse])]
        simpa [ofIp, hParse] using port_resetToAny AF_INET
    | some bytes =>
        rw [if_pos (by simp [accepts, hParse]), port_of_supported (Or.inl hFamily),
          ofIp_v4 port hParse, port_setPort]
  · by_cases hV6 : family = AF_INET6
    · subst hV6
      cases hParse : pton.v6 ip with
      | none =>
          rw [if_neg (by simp [accepts, hParse, hV4])]
          simpa [ofIp, hParse, hV4] using port_resetToAny AF_INET6
      | some bytes =>
          rw [if_pos (by simp [accepts, hParse, hV4]), port_of_supported (Or.inr hFamily),
            ofIp_v6 port hParse, port_setPort]
    · rw [if_neg (by simp [accepts, hV4, hV6])]
      simpa [ofIp, hV4, hV6] using port_resetToAny family

section Printed

variable {pton : InetPton} {ntop : InetNtop} {a b : InetAddress}

theorem toIp_v4 (hFamily : a.family = AF_INET) : a.toIp ntop = ntop.v4 (a.addr.load 4 4) := by
  rw [toIp, if_pos hFamily]

theorem toIp_v6 (hFamily : a.family = AF_INET6) : a.toIp ntop = ntop.v6 (a.addr.load 8 16) := by
  rw [toIp, if_neg (by rw [hFamily]; decide), if_pos hFamily]

/-- Printing an address and reading the text gives the same host and port. -/
theorem sameEndpoint_ofIp (hSupported : Supported a) (hReadable : Readable pton ntop a) :
    SameEndpoint (ofIp pton (a.toIp ntop) a.port a.family) a := by
  have hBack := family_ofIp pton (a.toIp ntop) a.port a.family
  have hOther : AF_INET6 ≠ AF_INET := by decide
  rcases hSupported with hFamily | hFamily
  · have hParse : pton.v4 (a.toIp ntop) = some (a.addr.load 4 4) := by
      rw [toIp_v4 hFamily, hReadable.v4 hFamily]
    refine ⟨hBack, fun _ => ?_, fun hV6 => ?_, ?_⟩
    · rw [hFamily, ofIp_v4 _ hParse, setPort, load_store_of_out _ _ (by omega), setIn,
        load_store _ _ (by decide)]
    · rw [hBack, hFamily] at hV6
      exact absurd hV6.symm hOther
    · rw [port_ofIp, if_pos (by simp [accepts, hFamily, hParse])]
  · have hParse : pton.v6 (a.toIp ntop) = some (a.addr.load 8 16) := by
      rw [toIp_v6 hFamily, hReadable.v6 hFamily]
    refine ⟨hBack, fun hV4 => ?_, fun _ => ?_, ?_⟩
    · rw [hBack, hFamily] at hV4
      exact absurd hV4 hOther
    · rw [hFamily, ofIp_v6 _ hParse, setPort, load_store_of_out _ _ (by omega), setIn6,
        load_store _ _ (by decide)]
    · rw [port_ofIp, if_pos (by simp [accepts, hFamily, hParse, hOther])]

/-- Addresses of one end of a connection have the same bytes wherever family, port and host
stand. -/
theorem SameEndpoint.byte_eq (hSame : SameEndpoint a b) (hSupported : Supported a)
    {i : Fin kStorageSize}
    (hPart : i.val < 4 ∨ (a.family = AF_INET ∧ i.val < 8) ∨
      (a.family = AF_INET6 ∧ 8 ≤ i.val ∧ i.val < 24)) : a.addr i = b.addr i := by
  have hFamily := load_eq_of_family_eq hSame.family
  have hPort : a.addr.port = b.addr.port := by
    have hOther : Supported b := by
      unfold Supported
      rwa [← hSame.family]
    rw [← port_of_supported hSupported, ← port_of_supported hOther, hSame.port]
  by_cases hTwo : i.val < 2
  · exact byte_eq_of_load hFamily (Nat.zero_le _) (by omega)
  by_cases hFour : i.val < 4
  · exact byte_eq_of_load (load_eq_of_port_eq hPort) (by omega) (by omega)
  rcases hPart with hEarly | ⟨hV4, hEnd⟩ | ⟨hV6, hStart, hEnd⟩
  · omega
  · exact byte_eq_of_load (hSame.v4 hV4) (by omega) (by omega)
  · exact byte_eq_of_load (hSame.v6 hV6) hStart (by omega)

/-- What the constructor from a text leaves zero. -/
theorem ofIp_zero (hReadable : Readable pton ntop a) {i : Fin kStorageSize}
    (hRest : (a.family = AF_INET ∧ 8 ≤ i.val) ∨
      (a.family = AF_INET6 ∧ ((4 ≤ i.val ∧ i.val < 8) ∨ 24 ≤ i.val))) :
    (ofIp pton (a.toIp ntop) a.port a.family).addr i = 0 := by
  rcases hRest with ⟨hFamily, hPast⟩ | ⟨hFamily, hOut⟩
  · have hParse : pton.v4 (a.toIp ntop) = some (a.addr.load 4 4) := by
      rw [toIp_v4 hFamily, hReadable.v4 hFamily]
    rw [hFamily, ofIp_v4 _ hParse, setPort, store_of_out _ _ (by omega), setIn,
      store_of_out _ _ (by omega), anyAddr_v4 hPast]
  · have hParse : pton.v6 (a.toIp ntop) = some (a.addr.load 8 16) := by
      rw [toIp_v6 hFamily, hReadable.v6 hFamily]
    rw [hFamily, ofIp_v6 _ hParse, setPort, store_of_out _ _ (by omega), setIn6,
      store_of_out _ _ (by omega), anyAddr_v6 hOut]

/-- The text loses something exactly when there is something in the address that it does
not show. -/
theorem eq_ofIp_iff_plain (hSupported : Supported a) (hReadable : Readable pton ntop a) :
    eq (ofIp pton (a.toIp ntop) a.port a.family) a = true ↔ Plain a := by
  have hSame := sameEndpoint_ofIp hSupported hReadable
  have hLen := len_ofIp pton (a.toIp ntop) a.port a.family
  have hBack := family_ofIp pton (a.toIp ntop) a.port a.family
  constructor
  · intro hEq
    obtain ⟨hLengths, hBytes⟩ := bytes_of_eq hEq
    refine ⟨hLengths.symm.trans hLen, fun hFamily i hPast hEnd => ?_,
      fun hFamily i hOut => ?_⟩
    · rw [← hBytes i (by rw [hLen, hFamily]; exact hEnd)]
      exact ofIp_zero hReadable (Or.inl ⟨hFamily, hPast⟩)
    · have hIn : i.val < lengthFor AF_INET6 := by
        change i.val < 28
        omega
      rw [← hBytes i (by rw [hLen, hFamily]; exact hIn)]
      exact ofIp_zero hReadable (Or.inr ⟨hFamily, by omega⟩)
  · intro hPlain
    refine eq_of_bytes (hLen.trans hPlain.len.symm) fun i hIn => ?_
    have hSupportedBack : Supported (ofIp pton (a.toIp ntop) a.port a.family) := by
      unfold Supported
      rwa [hBack]
    rw [hLen] at hIn
    rcases hSupported with hFamily | hFamily
    · by_cases hHost : i.val < 8
      · exact hSame.byte_eq hSupportedBack (Or.inr (Or.inl ⟨hBack.trans hFamily, hHost⟩))
      · rw [ofIp_zero hReadable (Or.inl ⟨hFamily, by omega⟩)]
        rw [hFamily] at hIn
        exact (hPlain.v4 hFamily i (by omega) hIn).symm
    · by_cases hShown : i.val < 4 ∨ (8 ≤ i.val ∧ i.val < 24)
      · refine hSame.byte_eq hSupportedBack ?_
        exact hShown.imp_right fun hHost => Or.inr ⟨hBack.trans hFamily, hHost⟩
      · have hOut : (4 ≤ i.val ∧ i.val < 8) ∨ 24 ≤ i.val := by omega
        rw [ofIp_zero hReadable (Or.inr ⟨hFamily, hOut⟩)]
        rw [hFamily] at hIn
        have hEnd : i.val < 28 := hIn
        exact (hPlain.v6 hFamily i (by omega)).symm

/-! ### The text with the port -/

/-- What stands in front of the last colon. -/
def hostText (ntop : InetNtop) (a : InetAddress) : List Char :=
  if a.family = AF_INET6 then '[' :: (a.toIp ntop).toList ++ [']'] else (a.toIp ntop).toList

theorem toList_toIpPort (ntop : InetNtop) (a : InetAddress) :
    (a.toIpPort ntop).toList = hostText ntop a ++ ':' :: a.port.toNat.repr.toList := by
  unfold toIpPort hostText
  split
  · simp
  · simp

theorem toIpPort_eq_of_sameEndpoint (hSupported : Supported a) (hSame : SameEndpoint a b) :
    a.toIpPort ntop = b.toIpPort ntop := by
  have hIp : a.toIp ntop = b.toIp ntop := by
    rcases hSupported with hFamily | hFamily
    · rw [toIp_v4 hFamily, toIp_v4 (hSame.family ▸ hFamily), hSame.v4 hFamily]
    · rw [toIp_v6 hFamily, toIp_v6 (hSame.family ▸ hFamily), hSame.v6 hFamily]
  rw [toIpPort, toIpPort, hSame.family, hSame.port, hIp]

/-- The host can be read off the text in front of the last colon. -/
theorem family_eq_of_hostText_eq (hSupported : Supported a) (hSupportedB : Supported b)
    (hReadable : Readable pton ntop a) (hReadableB : Readable pton ntop b)
    (hHost : hostText ntop a = hostText ntop b) :
    a.family = b.family ∧ a.toIp ntop = b.toIp ntop := by
  have hOther : AF_INET ≠ AF_INET6 := by decide
  -- Only an IPv6 address is printed with a bracket.
  have hBracket : ∀ {c d : InetAddress}, Readable pton ntop c → c.family = AF_INET →
      d.family = AF_INET6 → hostText ntop c ≠ hostText ntop d := by
    intro c d hC hV4 hV6 hEq
    rw [hostText, if_neg (by rw [hV4]; exact hOther), hostText, if_pos hV6] at hEq
    refine hC.dotted hV4 ?_
    rw [← toIp_v4 hV4, hEq]
    simp
  rcases hSupported with hA | hA <;> rcases hSupportedB with hB | hB
  · rw [hostText, if_neg (by rw [hA]; exact hOther), hostText,
      if_neg (by rw [hB]; exact hOther)] at hHost
    exact ⟨hA.trans hB.symm, String.toList_inj.mp hHost⟩
  · exact absurd hHost (hBracket hReadable hA hB)
  · exact absurd hHost.symm (hBracket hReadableB hB hA)
  · rw [hostText, if_pos hA, hostText, if_pos hB] at hHost
    refine ⟨hA.trans hB.symm, String.toList_inj.mp ?_⟩
    exact List.append_cancel_right (List.cons.inj hHost).2

theorem toIpPort_eq_iff (hSupported : Supported a) (hSupportedB : Supported b)
    (hReadable : Readable pton ntop a) (hReadableB : Readable pton ntop b) :
    a.toIpPort ntop = b.toIpPort ntop ↔ SameEndpoint a b := by
  refine ⟨fun hText => ?_, toIpPort_eq_of_sameEndpoint hSupported⟩
  have hList := congrArg String.toList hText
  rw [toList_toIpPort, toList_toIpPort] at hList
  obtain ⟨hHost, hDigits⟩ := append_separator_inj
    (not_mem_repr_nat (by decide) a.port.toNat) (not_mem_repr_nat (by decide) b.port.toNat) hList
  obtain ⟨hFamily, hIp⟩ :=
    family_eq_of_hostText_eq hSupported hSupportedB hReadable hReadableB hHost
  refine ⟨hFamily, fun hV4 => ?_, fun hV6 => ?_, ?_⟩
  · have hParse := hReadable.v4 hV4
    rw [← toIp_v4 hV4, hIp, toIp_v4 (hFamily ▸ hV4), hReadableB.v4 (hFamily ▸ hV4)] at hParse
    exact (Option.some.inj hParse).symm
  · have hParse := hReadable.v6 hV6
    rw [← toIp_v6 hV6, hIp, toIp_v6 (hFamily ▸ hV6), hReadableB.v6 (hFamily ▸ hV6)] at hParse
    exact (Option.some.inj hParse).symm
  · exact UInt16.toNat_inj.mp (Nat.repr_injective (String.toList_inj.mp hDigits))

end Printed

/-- For every address of the two families whose text `inet_pton` reads back: the constructor
from the printed host and the port gives the same end of a connection, and an address that
`operator==` takes for the first exactly when nothing else stood in that.  `ToIpPort` tells
two such addresses apart exactly when they are different ends.  A text that `inet_pton` does
not accept gives an address without port. -/
theorem inetAddress_text_roundTrip {pton : InetPton} {ntop : InetNtop} {a : InetAddress}
    (hSupported : Supported a) (hReadable : Readable pton ntop a) :
    SameEndpoint (ofIp pton (a.toIp ntop) a.port a.family) a ∧
    (eq (ofIp pton (a.toIp ntop) a.port a.family) a = true ↔ Plain a) ∧
    (∀ b, Supported b → Readable pton ntop b →
      (a.toIpPort ntop = b.toIpPort ntop ↔ SameEndpoint a b)) ∧
    ∀ ip port family, (ofIp pton ip port family).port =
      if accepts pton ip family = true then port else 0 :=
  ⟨sameEndpoint_ofIp hSupported hReadable, eq_ofIp_iff_plain hSupported hReadable,
    fun _ hSupportedB hReadableB =>
      toIpPort_eq_iff hSupported hSupportedB hReadable hReadableB,
    port_ofIp pton⟩

/-- `inet_ntop` of IPv4 addresses. -/
def decimalNtop : InetNtop where
  v4 := fun ip => ".".intercalate ((List.ofFn ip).map fun byte => toString byte.toNat)
  v6 := fun _ => "::"

/-- A `sockaddr_in` of 127.0.0.1 and port 80 with a byte in `sin_zero`. -/
def paddedLoopback : InetAddress :=
  ofSockaddrIn ![2, 0, 0, 80, 127, 0, 0, 1, 7, 0, 0, 0, 0, 0, 0, 0]

/-- The padding is lost when the address is printed and read. -/
theorem inetAddress_text_roundTrip_padded :
    SameEndpoint (ofIp loopbackPton "127.0.0.1" 80 AF_INET) paddedLoopback ∧
      eq (ofIp loopbackPton "127.0.0.1" 80 AF_INET) paddedLoopback = false ∧
      paddedLoopback.toIpPort decimalNtop = (ofPort 80 true AF_INET).toIpPort decimalNtop := by
  have hOther : AF_INET ≠ AF_INET6 := by decide
  have hReadable : ∀ a : InetAddress, a.family = AF_INET → a.addr.load 4 4 = inaddrLoopback →
      Readable loopbackPton decimalNtop a := by
    intro a hFamily hHost
    refine ⟨fun _ => ?_, fun hV6 => absurd (hFamily.symm.trans hV6) hOther, fun _ => ?_⟩
    · rw [hHost]
      decide +kernel
    · rw [hHost]
      decide +kernel
  have hFamily : paddedLoopback.family = AF_INET := by decide +kernel
  have hFamilyB : (ofPort 80 true AF_INET).family = AF_INET := family_ofPort 80 true AF_INET
  have hHost : paddedLoopback.addr.load 4 4 = inaddrLoopback := by decide +kernel
  have hHostB : (ofPort 80 true AF_INET).addr.load 4 4 = inaddrLoopback := by decide +kernel
  have hPort : paddedLoopback.port = 80 := by decide +kernel
  have hIp : paddedLoopback.toIp decimalNtop = "127.0.0.1" := by
    rw [toIp_v4 hFamily, hHost]
    decide +kernel
  obtain ⟨hSame, hEq, hTexts, -⟩ :=
    inetAddress_text_roundTrip (Or.inl hFamily) (hReadable _ hFamily hHost)
  rw [hIp, hPort, hFamily] at hSame hEq
  refine ⟨hSame, Bool.eq_false_of_not_eq_true fun hPlain => ?_, ?_⟩
  · have hPadding := (hEq.mp hPlain).v4 hFamily ⟨8, by decide⟩ le_rfl (by decide)
    revert hPadding
    decide +kernel
  · refine (hTexts _ (Or.inl hFamilyB) (hReadable _ hFamilyB hHostB)).mpr ?_
    refine ⟨hFamily.trans hFamilyB.symm, fun _ => hHost.trans hHostB.symm, fun hV6 => ?_, ?_⟩
    · exact absurd (hFamily.symm.trans hV6) hOther
    · decide +kernel

end InetAddress
end SolarNet
