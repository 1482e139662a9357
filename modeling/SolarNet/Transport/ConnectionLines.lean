import SolarNet.Transport.ConnectionInput

/-!
# Lines do not depend on the segmentation

A message callback that runs the loop over `FindCRLF` and `RetrieveUntil` on every call
reads the same lines however the stream is cut into reads, also when a cut falls between
the two bytes of a terminator.  As for a single buffer, no bare line feed may stand in
front of a terminator.
-/

namespace SolarNet

open Lib

/-! ## Lines of a prefix -/

theorem crlfAt_of_append {bytes more : List Byte} {position : ℕ}
    (hBound : position + 1 < bytes.length) :
    CrlfAt (bytes ++ more) position ↔ CrlfAt bytes position := by
  unfold CrlfAt
  rw [List.getElem?_append_left (by omega), List.getElem?_append_left hBound]

theorem NoBareLf.of_append {bytes more : List Byte} (hNoBare : NoBareLf (bytes ++ more)) :
    NoBareLf bytes := by
  intro position lf hCrlf hBefore hLf
  have hBound : position + 1 < bytes.length := (List.getElem?_eq_some_iff.mp hCrlf.2).1
  have hLf' : (bytes ++ more)[lf]? = some kLF := by
    rw [List.getElem?_append_left (by omega)]
    exact hLf
  obtain ⟨crlf, rfl, hHere⟩ :=
    hNoBare position lf ((crlfAt_of_append hBound).mpr hCrlf) hBefore hLf'
  exact ⟨crlf, rfl, (crlfAt_of_append (by omega)).mp hHere⟩

/-- The terminator behind a line. -/
theorem crlfAt_line (line rest : List Byte) :
    CrlfAt (line ++ kCR :: kLF :: rest) line.length := by
  unfold CrlfAt
  constructor
  · rw [List.getElem?_append_right le_rfl, Nat.sub_self]
    rfl
  · rw [List.getElem?_append_right (by omega), Nat.add_sub_cancel_left]
    rfl

/-- When no line feed is bare, the first line has none. -/
theorem not_mem_of_first {line rest : List Byte}
    (hNoBare : NoBareLf (line ++ kCR :: kLF :: rest))
    (hFirst : ∀ position, CrlfAt (line ++ kCR :: kLF :: rest) position →
      line.length ≤ position) : kLF ∉ line := by
  intro hMem
  obtain ⟨lf, hBound, hLf⟩ := List.mem_iff_getElem.mp hMem
  have hLf' : (line ++ kCR :: kLF :: rest)[lf]? = some kLF := by
    rw [List.getElem?_append_left hBound, List.getElem?_eq_getElem hBound, hLf]
  obtain ⟨crlf, hEq, hCrlf⟩ := hNoBare line.length lf (crlfAt_line line rest) hBound hLf'
  have hLate := hFirst crlf hCrlf
  omega

/-- More bytes behind the tail: the lines so far stay, and those of the tail follow. -/
theorem Segments.append {bytes tail more : List Byte} {lines : List (List Byte)}
    (hSegments : Segments bytes lines tail) (hNoBare : NoBareLf (bytes ++ more)) :
    NoBareLf (tail ++ more) ∧ ∀ lines' tail', Segments (tail ++ more) lines' tail' →
      Segments (bytes ++ more) (lines ++ lines') tail' := by
  induction hSegments with
  | tail hNone => exact ⟨hNoBare, fun lines' tail' hMore => hMore⟩
  | line hFirst hRest ih =>
      have hLine := not_mem_of_first hNoBare.of_append hFirst
      rw [List.append_assoc] at hNoBare ⊢
      simp only [List.cons_append] at hNoBare ⊢
      obtain ⟨hTail, hLater⟩ := ih ((noBareLf_terminated hLine _).mp hNoBare)
      refine ⟨hTail, fun lines' tail' hMore => ?_⟩
      exact (segments_terminated hLine _ _ _).mpr (hLater lines' tail' hMore)

/-- The lines of a stream are determined by the stream. -/
theorem Segments.unique {bytes tail tail' : List Byte} {lines lines' : List (List Byte)}
    (hSegments : Segments bytes lines tail) (hOther : Segments bytes lines' tail') :
    lines = lines' ∧ tail = tail' := by
  induction hSegments generalizing lines' with
  | tail hNone =>
      cases hOther with
      | tail => exact ⟨rfl, rfl⟩
      | line => exact absurd (crlfAt_line _ _) (hNone _)
  | @line line rest tail lines hFirst hRest ih =>
      generalize hBytes : line ++ kCR :: kLF :: rest = bytes at hOther
      cases hOther with
      | tail hNone =>
          rw [← hBytes] at hNone
          exact absurd (crlfAt_line _ _) (hNone _)
      | @line line' rest' _ _ hFirst' hRest' =>
          -- Both lines end at the first terminator.
          have hLength : line.length = line'.length := by
            apply le_antisymm
            · exact hFirst _ (hBytes ▸ crlfAt_line line' rest')
            · exact hFirst' _ (hBytes ▸ crlfAt_line line rest)
          obtain ⟨rfl, hRests⟩ := List.append_inj hBytes hLength
          obtain rfl := (List.cons.inj (List.cons.inj hRests).2).2
          obtain ⟨rfl, rfl⟩ := ih hRest'
          exact ⟨rfl, rfl⟩

/-- The message callback runs the loop over the lines, and nothing else. -/
def InboundLabel.readsLines : InboundLabel → Bool
  | .handleRead _ script => script == [.readLines]
  | _ => true

namespace Inbound

/-- The lines read so far are those of the bytes read so far. -/
def LinesRead (s : Inbound) : Prop :=
  NoBareLf s.pieces.flatten →
    Segments s.pieces.flatten s.lines s.conn.inputBuffer.readable

/-- One read and the loop after it. -/
theorem LinesRead.received {s : Inbound} (hRead : LinesRead s) {conn : TcpConnection}
    {bytes : List Byte}
    (hReadable : conn.inputBuffer.readable = s.conn.inputBuffer.readable ++ bytes) :
    LinesRead ((s.received conn bytes).consume .readLines) := by
  intro hNoBare
  have hPieces : ((s.received conn bytes).consume .readLines).pieces.flatten =
      s.pieces.flatten ++ bytes := by
    simp [Inbound.received, Inbound.consume]
  rw [hPieces] at hNoBare ⊢
  obtain ⟨hTail, hLater⟩ := (hRead hNoBare.of_append).append hNoBare
  rw [← hReadable] at hTail hLater
  have hFuel : conn.inputBuffer.1.readable.length ≤ conn.inputBuffer.readableBytes :=
    (CheckedBuffer.length_readable conn.inputBuffer).le
  exact hLater _ _ ((readLines_iff conn.inputBuffer.2.valid hFuel).mpr hTail).2

/-- Nothing was read. -/
theorem LinesRead.of_conn {s : Inbound} (hRead : LinesRead s) {conn : TcpConnection}
    (hBuffer : conn.inputBuffer.readable = s.conn.inputBuffer.readable) :
    LinesRead { s with conn := conn } := by
  intro hNoBare
  show Segments s.pieces.flatten s.lines conn.inputBuffer.readable
  rw [hBuffer]
  exact hRead hNoBare

theorem step_linesRead {callbacks : ConnCallbacks} (hMessage : callbacks.message = true)
    {s s' : Inbound} {label : InboundLabel} (hCallbacks : s.conn.callbacks = callbacks)
    (hRead : LinesRead s) (hLines : label.readsLines = true) (hStep : step s label = some s') :
    LinesRead s' := by
  cases label with
  | arrive bytes =>
      simp only [step] at hStep
      split at hStep
      case isTrue => cases hStep
      case isFalse =>
        obtain rfl := Option.some.inj hStep
        exact hRead
  | fin =>
      obtain rfl := Option.some.inj hStep
      exact hRead
  | handleRead limit script =>
      obtain rfl : script = [.readLines] := by simpa [InboundLabel.readsLines] using hLines
      simp only [step] at hStep
      split at hStep
      case isFalse => cases hStep
      case isTrue hLimit =>
        obtain rfl := Option.some.inj hStep
        rcases handleRead_cases s hLimit [.readLines] with ⟨-, -, hSame⟩ |
          ⟨-, -, conn, hBuffer, -, -, hNext⟩ | ⟨bytes, conn, -, -, hReadable, -, -, hNext⟩
        · rw [hSame]
          exact hRead
        · rw [hNext]
          exact hRead.of_conn hBuffer
        · rw [hNext, hCallbacks, if_pos hMessage]
          exact hRead.received hReadable
  | readError errno =>
      obtain rfl := Option.some.inj hStep
      exact hRead
  | send message call =>
      obtain rfl := Option.some.inj hStep
      exact hRead.of_conn (by rw [sendInLoop_inputBuffer])
  | shutdown =>
      obtain rfl := Option.some.inj hStep
      exact hRead.of_conn (by rw [shutdown_inputBuffer])
  | handleWrite call =>
      obtain rfl := Option.some.inj hStep
      exact hRead.of_conn (by rw [handleWrite_inputBuffer])
  | handleClose =>
      obtain rfl := Option.some.inj hStep
      exact hRead.of_conn (by rw [TcpConnection.handleClose_inputBuffer])

/-- **Lines do not depend on the segmentation.**  Take any run in which the message
callback reads lines, and in which no bare line feed of the peer's stream stands in
front of a terminator.  At every moment the lines that were read are those of the bytes
that were read, and the unfinished line is in the buffer; so once everything has been
read, lines and buffer are what the stream alone determines. -/
theorem lines_independent_of_segmentation {callbacks : ConnCallbacks}
    (hMessage : callbacks.message = true) {highWaterMark : ℕ} {labels : List InboundLabel}
    (hLabels : ∀ label ∈ labels, label.readsLines = true) {s : Inbound}
    (hRun : exec step (new callbacks highWaterMark) labels = some s)
    (hNoBare : NoBareLf s.stream) :
    Segments s.pieces.flatten s.lines s.conn.inputBuffer.readable ∧
      (s.queue = [] → ∀ lines tail, Segments s.stream lines tail →
        s.lines = lines ∧ s.conn.inputBuffer.readable = tail) := by
  have hIntact := exec_intact hRun
  have hStart : LinesRead (new callbacks highWaterMark) := by
    intro _
    have hEmpty : (new callbacks highWaterMark).conn.inputBuffer.readable = [] :=
      (List.append_eq_nil_iff.mp (new_intact callbacks highWaterMark).kept.symm).2
    rw [hEmpty]
    exact .tail (by simp [CrlfAt, new])
  have hMeets : Meets step (fun _ label => label.readsLines = true)
      (new callbacks highWaterMark) labels := Meets.of_forall hLabels
  have hStep : ∀ s label next, Intact callbacks s ∧ LinesRead s → label.readsLines = true →
      step s label = some next → Intact callbacks next ∧ LinesRead next := by
    rintro s label next ⟨hIntact, hLines⟩ hOk hNext
    exact ⟨step_intact hIntact hNext,
      step_linesRead hMessage hIntact.callbacks_eq hLines hOk hNext⟩
  obtain ⟨-, hLines⟩ := exec_invariant_of_meets (fun s => Intact callbacks s ∧ LinesRead s)
    hStep ⟨new_intact callbacks highWaterMark, hStart⟩ hMeets hRun
  have hRead : Segments s.pieces.flatten s.lines s.conn.inputBuffer.readable := by
    apply hLines
    rw [hIntact.read] at hNoBare
    exact hNoBare.of_append
  refine ⟨hRead, fun hAll lines tail hSegments => ?_⟩
  rw [hIntact.read, hAll, List.append_nil] at hSegments
  exact hRead.unique hSegments

/-- A stream of one line and a half; a read ends between the bytes of the terminator. -/
def cutTerminator : List InboundLabel :=
  [.arrive [97, 13], .handleRead 9 [.readLines], .arrive [10, 98], .handleRead 9 [.readLines]]

theorem lines_independent_of_segmentation_cutTerminator :
    ∃ s, exec step (new ⟨false, true, false, false, .unset⟩ 0) cutTerminator = some s ∧
      s.lines = [[97]] ∧ s.conn.inputBuffer.readable = [98] := by
  have hSome : (exec step (new ⟨false, true, false, false, .unset⟩ 0)
      cutTerminator).map (fun s => (s.stream, s.queue)) = some ([97, 13, 10, 98], []) := by
    decide +kernel
  obtain ⟨s, hRun, hStream⟩ := Option.map_eq_some_iff.mp hSome
  obtain ⟨hStream, hQueue⟩ := Prod.mk.inj hStream
  have hNone : ∀ position, ¬ CrlfAt [98] position := by
    rintro position ⟨hCr, -⟩
    rcases position with _ | position
    · cases hCr
    · cases hCr
  have hSegments : Segments s.stream [[97]] [98] := by
    rw [hStream]
    exact (segments_terminated (show kLF ∉ [97] by decide) [98] [] [98]).mpr (.tail hNone)
  have hNoBare : NoBareLf s.stream := by
    rw [hStream]
    refine (noBareLf_terminated (show kLF ∉ [97] by decide) [98]).mpr ?_
    exact fun position lf hCrlf => absurd hCrlf (hNone position)
  obtain ⟨-, hAll⟩ := lines_independent_of_segmentation rfl (by decide) hRun hNoBare
  exact ⟨s, hRun, hAll hQueue _ _ hSegments⟩

end Inbound
end SolarNet
