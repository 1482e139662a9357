import SolarNet.Base.BufferPrepend

/-!
# `FindCRLF` and reading lines

`FindCRLF` searches the first line feed of a range and looks at the byte in front
of it.  When that byte is not a carriage return, the search ends there, also if a
line terminator comes later.

Positions are offsets from the start of the range, and the end of the range is its
length.  The file shows on which ranges `FindCRLF` returns the first terminator, and
on which contents the loop that reads a buffer line by line returns the lines.
-/

namespace SolarNet

open Lib

/-- `'\r'`. -/
def kCR : Byte := 13

/-- `'\n'`. -/
def kLF : Byte := 10

/-- A carriage return followed by a line feed. -/
def CrlfAt (bytes : List Byte) (position : Nat) : Prop :=
  bytes[position]? = some kCR ∧ bytes[position + 1]? = some kLF

/-- `FindLF(start, end)`: `std::find` for a line feed. -/
def findLF (bytes : List Byte) : Nat :=
  bytes.findIdx (· == kLF)

/-- `FindCRLF(start, end)`. -/
def findCRLF (bytes : List Byte) : Nat :=
  let pos := findLF bytes
  if pos = bytes.length then bytes.length
  else if 0 < pos ∧ bytes[pos - 1]? = some kCR then pos - 1
  else bytes.length

namespace Buffer

/-- `FindCRLF()` on the readable bytes. -/
def findCRLF (b : Buffer) : Nat :=
  SolarNet.findCRLF b.readable

/-- `RetrieveUntil(const std::byte* end)`. -/
def retrieveUntilPosition (b : Buffer) (position : Nat) : Buffer :=
  b.retrieve position

/-- Read lines until `FindCRLF` returns the end; each turn of the loop needs one unit
of fuel. -/
def readLines : Nat → Buffer → List (List Byte) × Buffer
  | 0, b => ([], b)
  | fuel + 1, b =>
      if b.findCRLF = b.readable.length then ([], b)
      else
        let after := readLines fuel (b.retrieveUntilPosition (b.findCRLF + 2))
        (b.readable.take b.findCRLF :: after.1, after.2)

end Buffer

/-! ## The first line feed -/

section FirstLineFeed

variable {front rest : List Byte}

theorem findLF_append (hFront : kLF ∉ front) : findLF (front ++ kLF :: rest) = front.length := by
  unfold findLF
  rw [List.findIdx_append, if_neg]
  · simp [List.findIdx_cons]
  · rw [List.findIdx_lt_length]
    rintro ⟨byte, hByte, hEq⟩
    rw [beq_iff_eq] at hEq
    exact hFront (hEq ▸ hByte)

theorem findLF_of_not_mem {bytes : List Byte} (hNone : kLF ∉ bytes) :
    findLF bytes = bytes.length := by
  unfold findLF
  rw [List.findIdx_eq_length]
  intro byte hByte
  rw [beq_eq_false_iff_ne]
  rintro rfl
  exact hNone hByte

/-- The byte in front of the first line feed. -/
theorem getElem?_before (front rest : List Byte) (hNonempty : 0 < front.length) :
    (front ++ kLF :: rest)[front.length - 1]? = front.getLast? := by
  rw [List.getElem?_append_left (by omega), List.getLast?_eq_getElem?]

/-- The line feeds behind the first one are those of the rest. -/
theorem getElem?_lf_append (hFront : kLF ∉ front) (position : Nat) :
    (front ++ kLF :: rest)[position]? = some kLF ↔
      position = front.length ∨
        ∃ later, position = front.length + 1 + later ∧ rest[later]? = some kLF := by
  rcases Nat.lt_trichotomy position front.length with hLt | rfl | hGt
  · rw [List.getElem?_append_left hLt]
    constructor
    · intro hLf
      exact absurd (List.mem_of_getElem? hLf) hFront
    · rintro (rfl | ⟨later, rfl, -⟩) <;> omega
  · simp
  · obtain ⟨later, rfl⟩ : ∃ later, position = front.length + 1 + later :=
      ⟨position - (front.length + 1), by omega⟩
    have hIndex : front.length + 1 + later - front.length = later + 1 := by omega
    rw [List.getElem?_append_right (by omega), hIndex, List.getElem?_cons_succ]
    constructor
    · intro hLf
      exact Or.inr ⟨later, rfl, hLf⟩
    · rintro (hEq | ⟨other, hEq, hLf⟩)
      · omega
      · obtain rfl : later = other := by omega
        exact hLf

/-- A terminator ends with the first line feed, or it lies in the rest. -/
theorem crlfAt_append (hFront : kLF ∉ front) (position : Nat) :
    CrlfAt (front ++ kLF :: rest) position ↔
      (position + 1 = front.length ∧ front.getLast? = some kCR) ∨
        ∃ later, position = front.length + 1 + later ∧ CrlfAt rest later := by
  unfold CrlfAt
  rw [getElem?_lf_append hFront]
  constructor
  · rintro ⟨hCr, hLast | ⟨later, hPosition, hLf⟩⟩
    · refine Or.inl ⟨hLast, ?_⟩
      rw [← getElem?_before front rest (by omega), ← hLast]
      exact hCr
    · cases later with
      | zero =>
          -- The byte in front of the rest is the first line feed.
          obtain rfl : position = front.length := by omega
          simp [kCR, kLF] at hCr
      | succ later =>
          obtain rfl : position = front.length + 1 + later := by omega
          have hIndex : front.length + 1 + later - front.length = later + 1 := by omega
          rw [List.getElem?_append_right (by omega), hIndex, List.getElem?_cons_succ] at hCr
          exact Or.inr ⟨later, rfl, hCr, hLf⟩
  · rintro (⟨hPosition, hLast⟩ | ⟨later, rfl, hCr, hLf⟩)
    · refine ⟨?_, Or.inl hPosition⟩
      rw [← hLast, ← getElem?_before front rest (by omega), ← hPosition]
      rfl
    · have hIndex : front.length + 1 + later - front.length = later + 1 := by omega
      refine ⟨?_, Or.inr ⟨later + 1, rfl, hLf⟩⟩
      rw [List.getElem?_append_right (by omega), hIndex, List.getElem?_cons_succ]
      exact hCr

theorem not_crlfAt_of_not_mem {bytes : List Byte} (hNone : kLF ∉ bytes) (position : Nat) :
    ¬ CrlfAt bytes position :=
  fun hCrlf => hNone (List.mem_of_getElem? hCrlf.2)

/-- A line with its terminator, cut at the line feed. -/
theorem terminated_eq (line rest : List Byte) :
    line ++ kCR :: kLF :: rest = line ++ [kCR] ++ kLF :: rest := by
  simp

theorem not_mem_terminated {line : List Byte} (hLine : kLF ∉ line) : kLF ∉ line ++ [kCR] := by
  rw [List.mem_append, not_or]
  exact ⟨hLine, by decide⟩

/-- The terminators of a range whose first line feed belongs to one. -/
theorem crlfAt_terminated {line : List Byte} (hLine : kLF ∉ line) (rest : List Byte)
    (position : Nat) :
    CrlfAt (line ++ kCR :: kLF :: rest) position ↔
      position = line.length ∨
        ∃ later, position = line.length + 2 + later ∧ CrlfAt rest later := by
  rw [terminated_eq, crlfAt_append (not_mem_terminated hLine)]
  simp

theorem getElem?_lf_terminated {line : List Byte} (hLine : kLF ∉ line) (rest : List Byte)
    (position : Nat) :
    (line ++ kCR :: kLF :: rest)[position]? = some kLF ↔
      position = line.length + 1 ∨
        ∃ later, position = line.length + 2 + later ∧ rest[later]? = some kLF := by
  rw [terminated_eq, getElem?_lf_append (not_mem_terminated hLine)]
  simp

/-- A carriage return in front of the first line feed is found. -/
theorem findCRLF_terminated {line : List Byte} (hLine : kLF ∉ line) (rest : List Byte) :
    findCRLF (line ++ kCR :: kLF :: rest) = line.length := by
  have hBefore : (line ++ [kCR] ++ kLF :: rest)[(line ++ [kCR]).length - 1]? = some kCR := by
    rw [getElem?_before _ _ (by simp)]
    simp
  rw [terminated_eq]
  unfold findCRLF
  simp only [findLF_append (not_mem_terminated hLine)]
  rw [if_neg (by simp), if_pos ⟨by simp, hBefore⟩]
  simp

/-- A bare line feed ends the search. -/
theorem findCRLF_bare (hFront : kLF ∉ front) (hBare : front.getLast? ≠ some kCR)
    (rest : List Byte) :
    findCRLF (front ++ kLF :: rest) = (front ++ kLF :: rest).length := by
  unfold findCRLF
  simp only [findLF_append hFront]
  rw [if_neg (by simp), if_neg]
  rintro ⟨hPos, hCr⟩
  rw [getElem?_before front rest hPos] at hCr
  exact hBare hCr

theorem findCRLF_of_not_mem {bytes : List Byte} (hNone : kLF ∉ bytes) :
    findCRLF bytes = bytes.length := by
  unfold findCRLF
  simp [findLF_of_not_mem hNone]

/-- The three kinds of ranges: without a line feed, with a terminator at the first line
feed, and with a bare first line feed. -/
theorem lineFeed_cases (bytes : List Byte) :
    kLF ∉ bytes ∨
      (∃ line rest, bytes = line ++ kCR :: kLF :: rest ∧ kLF ∉ line) ∨
      ∃ front rest, bytes = front ++ kLF :: rest ∧ kLF ∉ front ∧
        front.getLast? ≠ some kCR := by
  by_cases hLf : kLF ∈ bytes
  · obtain ⟨front, rest, rfl, hFront⟩ := List.eq_append_cons_of_mem hLf
    by_cases hLast : front.getLast? = some kCR
    · obtain ⟨line, rfl⟩ := List.getLast?_eq_some_iff.mp hLast
      rw [List.mem_append, not_or] at hFront
      exact Or.inr (Or.inl ⟨line, rest, by simp, hFront.1⟩)
    · exact Or.inr (Or.inr ⟨front, rest, rfl, hFront, hLast⟩)
  · exact Or.inl hLf

end FirstLineFeed

/-! ## `FindCRLF` -/

/-- `FindCRLF` returns the first terminator, and the end exactly when there is none. -/
structure FindsFirst (bytes : List Byte) : Prop where
  first : ∀ position, CrlfAt bytes position →
    (∀ earlier, earlier < position → ¬ CrlfAt bytes earlier) → findCRLF bytes = position
  eq_end_iff : findCRLF bytes = bytes.length ↔ ∀ position, ¬ CrlfAt bytes position

/-- If there is a terminator, then the first line feed belongs to one. -/
def FirstLfTerminates (bytes : List Byte) : Prop :=
  (∃ position, CrlfAt bytes position) →
    ∃ position, CrlfAt bytes position ∧ ∀ earlier, earlier ≤ position → bytes[earlier]? ≠ some kLF

theorem findsFirst_iff (bytes : List Byte) : FindsFirst bytes ↔ FirstLfTerminates bytes := by
  rcases lineFeed_cases bytes with
    hNone | ⟨line, rest, rfl, hLine⟩ | ⟨front, rest, rfl, hFront, hBare⟩
  · have hNoCrlf := not_crlfAt_of_not_mem hNone
    refine iff_of_true ⟨?_, ?_⟩ ?_
    · intro position hCrlf
      exact absurd hCrlf (hNoCrlf position)
    · exact iff_of_true (findCRLF_of_not_mem hNone) hNoCrlf
    · rintro ⟨position, hCrlf⟩
      exact absurd hCrlf (hNoCrlf position)
  · have hCrlf := crlfAt_terminated hLine rest
    have hFind := findCRLF_terminated hLine rest
    have hHere : CrlfAt (line ++ kCR :: kLF :: rest) line.length := (hCrlf _).mpr (Or.inl rfl)
    refine iff_of_true ⟨?_, ?_⟩ ?_
    · intro position hPosition hFirst
      rw [hFind]
      rcases (hCrlf position).mp hPosition with hEq | ⟨later, hEq, -⟩
      · exact hEq.symm
      · exact absurd hHere (hFirst line.length (by omega))
    · refine iff_of_false ?_ (fun hNone => hNone line.length hHere)
      rw [hFind]
      simp
    · intro _
      refine ⟨line.length, hHere, fun earlier hEarlier hLf => ?_⟩
      rcases (getElem?_lf_terminated hLine rest earlier).mp hLf with hEq | ⟨later, hEq, -⟩
      · omega
      · omega
  · have hFind := findCRLF_bare hFront hBare rest
    by_cases hExists : ∃ position, CrlfAt (front ++ kLF :: rest) position
    · refine iff_of_false ?_ ?_
      · intro hFinds
        obtain ⟨position, hCrlf⟩ := hExists
        exact hFinds.eq_end_iff.mp hFind position hCrlf
      · -- Every terminator lies behind the bare line feed.
        intro hTerminates
        obtain ⟨position, hCrlf, hNoLf⟩ := hTerminates hExists
        rcases (crlfAt_append hFront position).mp hCrlf with ⟨-, hLast⟩ | ⟨later, hEq, -⟩
        · exact hBare hLast
        · refine hNoLf front.length (by omega) ?_
          exact (getElem?_lf_append hFront _).mpr (Or.inl rfl)
    · push Not at hExists
      refine iff_of_true ⟨?_, iff_of_true hFind hExists⟩ ?_
      · intro position hCrlf
        exact absurd hCrlf (hExists position)
      · rintro ⟨position, hCrlf⟩
        exact absurd hCrlf (hExists position)

/-! ## Lines -/

/-- `bytes` are the lines, each with its terminator, and a tail without one. -/
inductive Segments : List Byte → List (List Byte) → List Byte → Prop where
  | tail {bytes : List Byte} (hNone : ∀ position, ¬ CrlfAt bytes position) :
      Segments bytes [] bytes
  | line {line rest tail : List Byte} {lines : List (List Byte)}
      (hFirst : ∀ position, CrlfAt (line ++ kCR :: kLF :: rest) position →
        line.length ≤ position)
      (hRest : Segments rest lines tail) :
      Segments (line ++ kCR :: kLF :: rest) (line :: lines) tail

/-- Every line feed in front of a terminator belongs to a terminator. -/
def NoBareLf (bytes : List Byte) : Prop :=
  ∀ position lf, CrlfAt bytes position → lf < position → bytes[lf]? = some kLF →
    ∃ crlf, lf = crlf + 1 ∧ CrlfAt bytes crlf

/-- The loop over `FindCRLF` and `RetrieveUntil` ends, and it returns the lines of the
buffer and leaves the tail. -/
def ReadsSegments (b : Buffer) : Prop :=
  ∀ fuel, b.readable.length ≤ fuel →
    (b.readLines fuel).2.findCRLF = (b.readLines fuel).2.readable.length ∧
      Segments b.readable (b.readLines fuel).1 (b.readLines fuel).2.readable

/-- The first line can be taken off. -/
theorem noBareLf_terminated {line : List Byte} (hLine : kLF ∉ line) (rest : List Byte) :
    NoBareLf (line ++ kCR :: kLF :: rest) ↔ NoBareLf rest := by
  have hCrlf := crlfAt_terminated hLine rest
  have hLf := getElem?_lf_terminated hLine rest
  constructor
  · intro hNoBare position lf hPosition hBefore hAt
    obtain ⟨crlf, hEq, hHere⟩ := hNoBare (line.length + 2 + position) (line.length + 2 + lf)
      ((hCrlf _).mpr (Or.inr ⟨position, rfl, hPosition⟩)) (by omega)
      ((hLf _).mpr (Or.inr ⟨lf, rfl, hAt⟩))
    rcases (hCrlf crlf).mp hHere with hFirst | ⟨later, hLater, hLaterCrlf⟩
    · omega
    · exact ⟨later, by omega, hLaterCrlf⟩
  · intro hNoBare position lf hPosition hBefore hAt
    rcases (hLf lf).mp hAt with hFirst | ⟨later, rfl, hLater⟩
    · exact ⟨line.length, hFirst, (hCrlf _).mpr (Or.inl rfl)⟩
    · rcases (hCrlf position).mp hPosition with hEq | ⟨place, rfl, hPlace⟩
      · omega
      · obtain ⟨crlf, rfl, hHere⟩ := hNoBare place later hPlace (by omega) hLater
        exact ⟨line.length + 2 + crlf, by omega, (hCrlf _).mpr (Or.inr ⟨crlf, rfl, hHere⟩)⟩

theorem noBareLf_bare {front : List Byte} (hFront : kLF ∉ front)
    (hBare : front.getLast? ≠ some kCR) (rest : List Byte) :
    NoBareLf (front ++ kLF :: rest) ↔ ∀ position, ¬ CrlfAt (front ++ kLF :: rest) position := by
  constructor
  · intro hNoBare position hCrlf
    have hNotLast : ∀ crlf, CrlfAt (front ++ kLF :: rest) crlf → front.length < crlf := by
      intro crlf hHere
      rcases (crlfAt_append hFront crlf).mp hHere with ⟨-, hLast⟩ | ⟨later, hEq, -⟩
      · exact absurd hLast hBare
      · omega
    obtain ⟨crlf, hEq, hHere⟩ := hNoBare position front.length hCrlf (hNotLast position hCrlf)
      ((getElem?_lf_append hFront _).mpr (Or.inl rfl))
    have hBehind := hNotLast crlf hHere
    omega
  · intro hNone position lf hCrlf
    exact absurd hCrlf (hNone position)

/-- The lines of a range whose first line is taken off. -/
theorem segments_terminated {line : List Byte} (hLine : kLF ∉ line) (rest : List Byte)
    (lines : List (List Byte)) (tail : List Byte) :
    Segments (line ++ kCR :: kLF :: rest) (line :: lines) tail ↔ Segments rest lines tail := by
  constructor
  · intro hSegments
    generalize hBytes : line ++ kCR :: kLF :: rest = bytes at hSegments
    cases hSegments with
    | line hFirst hRest =>
        obtain rfl := (List.cons.inj (List.cons.inj (List.append_cancel_left hBytes)).2).2
        exact hRest
  · intro hRest
    refine .line (fun position hCrlf => ?_) hRest
    rcases (crlfAt_terminated hLine rest position).mp hCrlf with hEq | ⟨later, hEq, -⟩
    · omega
    · omega

theorem segments_nil {bytes : List Byte} :
    Segments bytes [] bytes ↔ ∀ position, ¬ CrlfAt bytes position := by
  constructor
  · intro hSegments
    cases hSegments with
    | tail hNone => exact hNone
  · exact .tail

/-! ## The loop -/

namespace Buffer

theorem readLines_end {b : Buffer} (hEnd : b.findCRLF = b.readable.length) (fuel : Nat) :
    b.readLines fuel = ([], b) := by
  cases fuel with
  | zero => rfl
  | succ fuel => rw [readLines, if_pos hEnd]

/-- The loop takes off a line with its terminator. -/
theorem readLines_line {b : Buffer} (hValid : b.Valid) {line rest : List Byte}
    (hReadable : b.readable = line ++ kCR :: kLF :: rest) (hLine : kLF ∉ line) :
    ∃ b' : Buffer, b'.Valid ∧ b'.readable = rest ∧ ∀ fuel,
      b.readLines (fuel + 1) = (line :: (b'.readLines fuel).1, (b'.readLines fuel).2) := by
  have hFind : b.findCRLF = line.length := by
    rw [Buffer.findCRLF, hReadable, findCRLF_terminated hLine]
  have hNotEnd : ¬ b.findCRLF = b.readable.length := by
    rw [hFind, hReadable]
    simp
  have hTake : b.readable.take b.findCRLF = line := by
    rw [hFind, hReadable, List.take_left]
  refine ⟨b.retrieveUntilPosition (b.findCRLF + 2), ?_, ?_, ?_⟩
  · exact (retrieve_keeps hValid _).valid
  · rw [retrieveUntilPosition, retrieve_readable hValid, hFind, hReadable, ← List.drop_drop,
      List.drop_left]
    rfl
  · intro fuel
    rw [readLines, if_neg hNotEnd, hTake]

end Buffer

theorem readLines_iff {b : Buffer} (hValid : b.Valid) {fuel : Nat}
    (hFuel : b.readable.length ≤ fuel) :
    ((b.readLines fuel).2.findCRLF = (b.readLines fuel).2.readable.length ∧
        Segments b.readable (b.readLines fuel).1 (b.readLines fuel).2.readable) ↔
      NoBareLf b.readable := by
  induction fuel generalizing b with
  | zero =>
      have hEmpty : b.readable = [] := List.eq_nil_of_length_eq_zero (by omega)
      have hNone : kLF ∉ b.readable := by simp [hEmpty]
      have hEnd : b.findCRLF = b.readable.length := findCRLF_of_not_mem hNone
      have hNoCrlf := not_crlfAt_of_not_mem hNone
      rw [Buffer.readLines_end hEnd, segments_nil]
      exact iff_of_true ⟨hEnd, hNoCrlf⟩ fun position lf hCrlf => absurd hCrlf (hNoCrlf position)
  | succ fuel ih =>
      rcases lineFeed_cases b.readable with
        hNone | ⟨line, rest, hReadable, hLine⟩ | ⟨front, rest, hReadable, hFront, hBare⟩
      · have hEnd : b.findCRLF = b.readable.length := findCRLF_of_not_mem hNone
        have hNoCrlf := not_crlfAt_of_not_mem hNone
        rw [Buffer.readLines_end hEnd, segments_nil]
        exact iff_of_true ⟨hEnd, hNoCrlf⟩ fun position lf hCrlf => absurd hCrlf (hNoCrlf position)
      · obtain ⟨b', hValid', hRest, hLines⟩ := Buffer.readLines_line hValid hReadable hLine
        have hShorter : b'.readable.length ≤ fuel := by
          rw [hReadable] at hFuel
          simp only [List.length_append, List.length_cons] at hFuel
          rw [hRest]
          omega
        rw [hLines, hReadable, segments_terminated hLine, noBareLf_terminated hLine, ← hRest]
        exact ih hValid' hShorter
      · have hEnd : b.findCRLF = b.readable.length := by
          rw [Buffer.findCRLF, hReadable, findCRLF_bare hFront hBare]
        rw [Buffer.readLines_end hEnd, segments_nil, hReadable, noBareLf_bare hFront hBare,
          ← hReadable]
        exact and_iff_right hEnd

theorem readsSegments_iff {b : Buffer} (hValid : b.Valid) :
    ReadsSegments b ↔ NoBareLf b.readable := by
  constructor
  · intro hReads
    exact (readLines_iff hValid le_rfl).mp (hReads _ le_rfl)
  · intro hNoBare fuel hFuel
    exact (readLines_iff hValid hFuel).mpr hNoBare

/-- **Where `FindCRLF` finds the lines.**  On every range, `FindCRLF` returns the first
terminator, and the end exactly when there is none, if and only if the first line feed
belongs to a terminator or there is no terminator.  In every buffer that the public
operations reach, the loop over `FindCRLF` and `RetrieveUntil` returns the lines and leaves
the tail if and only if no bare line feed stands in front of a terminator. -/
theorem findCRLF_exact_iff {ι : Type*} [DecidableEq ι] {native : Endian}
    {initialSize : ι → Nat} {actions : List (BufferAction ι)} {pool : ι → Buffer}
    (hRun : exec (stepBuffers native) (fun index => Buffer.new (initialSize index)) actions =
      some pool) (index : ι) (bytes : List Byte) :
    (FindsFirst bytes ↔ FirstLfTerminates bytes) ∧
      (ReadsSegments (pool index) ↔ NoBareLf (pool index).readable) :=
  ⟨findsFirst_iff bytes, readsSegments_iff (exec_buffers_valid hRun index)⟩

/-- Two lines and a tail. -/
theorem findCRLF_exact_twoLines :
    FindsFirst [97, 13, 10] ∧
      ∃ pool, exec (stepBuffers .little) (fun _ : Unit => Buffer.new 4)
          [.pool (.on () (.append [97, 13, 10, 13, 10, 98]))] = some pool ∧
        ReadsSegments (pool ()) := by
  have hRun : exec (stepBuffers .little) (fun _ : Unit => Buffer.new 4)
      [.pool (.on () (.append [97, 13, 10, 13, 10, 98]))] = some _ := rfl
  obtain ⟨hFinds, hReads⟩ := findCRLF_exact_iff hRun () [97, 13, 10]
  refine ⟨hFinds.mpr fun _ => ⟨1, ⟨rfl, rfl⟩, by decide⟩, _, hRun, hReads.mpr ?_⟩
  -- Both line feeds belong to a terminator, and the second one is the last.
  intro position lf hCrlf hBefore hLf
  have hBound : lf < 6 := (List.getElem?_eq_some_iff.mp hLf).1
  interval_cases lf
  all_goals first
    | exact ⟨1, rfl, rfl, rfl⟩
    | exact ⟨3, rfl, rfl, rfl⟩
    | cases hLf

/-- A bare line feed in front of a line terminator: the terminator is not found, and the
loop ends with the line in the buffer. -/
theorem not_findsFirst_bareLf :
    ¬ FindsFirst [10, 13, 10] ∧
      ∃ pool, exec (stepBuffers .little) (fun _ : Unit => Buffer.new 4)
          [.pool (.on () (.append [10, 13, 10]))] = some pool ∧
        ¬ ReadsSegments (pool ()) := by
  refine ⟨?_, _, rfl, ?_⟩
  · intro hFinds
    exact hFinds.eq_end_iff.mp rfl 1 ⟨rfl, rfl⟩
  · intro hReads
    exact segments_nil.mp (hReads 3 le_rfl).2 1 ⟨rfl, rfl⟩

end SolarNet
