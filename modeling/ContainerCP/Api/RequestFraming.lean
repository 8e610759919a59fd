import ContainerCP.Api.ApiServer

/-! Which requests `parse_request` gives back with the body that the bytes on the socket
declare, however they are split into reads. -/
namespace ContainerCP.Api.ApiServer

/-! ## What arrives -/

/-- The bytes up to the end of the connection. -/
def sent (socket : Socket) : Bytes := (socket.takeWhile (· ≠ [])).flatten

/-- What one call of `read` after the other returns, up to the end. -/
def reads (size : Nat) : Nat → Socket → List Bytes
  | 0, _ => []
  | fuel + 1, socket =>
      if (read size socket).1 = [] then [] else (read size socket).1 :: reads size fuel (read size socket).2

/-- The reads that it takes for a number of bytes. -/
def arriving : Nat → List Bytes → Bytes
  | _, [] => []
  | wanted, piece :: pieces => if wanted = 0 then [] else piece ++ arriving (wanted - piece.length) pieces

/-- How many bytes the first read asks for, or none: the header up to the first blank line, and
as many more as the first `Content-Length:` in it says. -/
def wantedLength (first : Bytes) : Nat :=
  match cutAtText blankLine first with
  | none => 0
  | some (header, _) =>
      if 0 < expectedLength header ∧ expectedLength header ≤ maxRequestBodyBytes then
        header.length + 4 + (expectedLength header).toNat
      else 0

/-- The first read, and the further ones that it asks for. -/
def arrived (socket : Socket) : Bytes :=
  let first := read (bufferSize - 1) socket
  first.1 ++ arriving (wantedLength first.1 - first.1.length) (reads bufferSize first.2.flatten.length first.2)

section Arrival

variable {size : Nat} {socket : Socket}

theorem sent_read (h : (read size socket).1 ≠ []) :
    (read size socket).1 ++ sent (read size socket).2 = sent socket := by
  cases socket with
  | nil => exact absurd rfl h
  | cons piece pieces =>
      have hPiece : piece ≠ [] := by
        rintro rfl
        exact h rfl
      rw [read, sent, sent]
      split
      · rw [List.takeWhile_cons_of_pos (by simpa using hPiece), List.flatten_cons]
      · next hLong =>
        have hMore : piece.drop size ≠ [] := by simp; omega
        rw [List.takeWhile_cons_of_pos (by simpa using hMore), List.takeWhile_cons_of_pos (by simpa using hPiece),
          List.flatten_cons, List.flatten_cons, ← List.append_assoc, List.take_append_drop]

theorem arriving_zero (pieces : List Bytes) : arriving 0 pieces = [] := by
  cases pieces <;> rfl

theorem arriving_isPrefix (size wanted fuel : Nat) (socket : Socket) :
    arriving wanted (reads size fuel socket) <+: sent socket := by
  induction fuel generalizing wanted socket with
  | zero => exact List.nil_prefix
  | succ fuel ih =>
      rw [reads]
      split
      · exact List.nil_prefix
      · next hMore =>
        rw [arriving]
        split
        · exact List.nil_prefix
        · rw [← sent_read hMore]
          exact (List.prefix_append_right_inj _).mpr (ih _ _)

/-- The loop over the reads stops with the one that brings enough bytes. -/
theorem readUpTo_eq {wanted fuel steps : Nat} {raw : Bytes} (hFuel : wanted - raw.length ≤ fuel)
    (hSteps : socket.flatten.length ≤ steps) :
    (readUpTo size wanted fuel raw socket).1 = raw ++ arriving (wanted - raw.length) (reads size steps socket) := by
  induction fuel generalizing raw socket steps with
  | zero => rw [Nat.le_zero.mp hFuel, arriving_zero, List.append_nil, readUpTo]
  | succ fuel ih =>
      rw [readUpTo]
      split
      · next hShort =>
        have hRead := congrArg List.length (read_append size socket)
        rw [List.length_append] at hRead
        by_cases hEnd : (read size socket).1 = []
        · have hReads : reads size steps socket = [] := by
            cases steps with
            | zero => rfl
            | succ steps => rw [reads, if_pos hEnd]
          rw [hReads]
          simp [hEnd, arriving]
        · have hPositive := List.length_pos_of_ne_nil hEnd
          obtain ⟨more, rfl⟩ := Nat.exists_eq_add_one_of_ne_zero (show steps ≠ 0 by omega)
          have hTail : (readUpTo size wanted fuel (raw ++ (read size socket).1) (read size socket).2).1 =
              raw ++ (read size socket).1 ++ arriving (wanted - (raw ++ (read size socket).1).length)
                (reads size more (read size socket).2) :=
            ih (by rw [List.length_append]; omega) (by omega)
          simp only [if_neg hEnd]
          rw [hTail, reads, if_neg hEnd, arriving, if_neg (by omega), List.append_assoc, List.length_append, Nat.sub_add_eq]
      · next hEnough => rw [Nat.sub_eq_zero_of_le (Nat.not_lt.mp hEnough), arriving_zero, List.append_nil]

theorem receive_eq (socket : Socket) :
    (receive bufferSize socket).1 = if arrived socket = [] then none else some (arrived socket) := by
  by_cases hEnd : (read (bufferSize - 1) socket).1 = []
  · have hNothing : arrived socket = [] := by
      simp only [arrived, hEnd]
      exact arriving_zero _
    simp [receive, hEnd, hNothing]
  · have hSome : arrived socket ≠ [] := List.append_ne_nil_of_left_ne_nil hEnd _
    have hFirst : wantedLength (read (bufferSize - 1) socket).1 = 0 → arrived socket = (read (bufferSize - 1) socket).1 := by
      intro hWanted
      simp only [arrived, hWanted, Nat.zero_sub, arriving_zero, List.append_nil]
    rw [if_neg hSome]
    simp only [receive, if_neg hEnd]
    cases hCut : cutAtText blankLine (read (bufferSize - 1) socket).1 with
    | none => exact congrArg some (hFirst (by rw [wantedLength, hCut])).symm
    | some cut =>
        by_cases hRange : 0 < expectedLength cut.1 ∧ expectedLength cut.1 ≤ maxRequestBodyBytes
        · have hWanted : wantedLength (read (bufferSize - 1) socket).1 = cut.1.length + 4 + (expectedLength cut.1).toNat := by
            rw [wantedLength, hCut]
            exact if_pos hRange
          simp only [if_pos hRange]
          rw [readUpTo_eq (Nat.le_refl _) (Nat.le_refl _), ← hWanted, arrived]
        · simp only [if_neg hRange]
          refine congrArg some (hFirst ?_).symm
          rw [wantedLength, hCut]
          exact if_neg hRange

theorem parseRequest_eq (socket : Socket) : parseRequest socket = parseText (arrived socket) := by
  rw [parseRequest, receive_eq]
  split
  · next hNone =>
    split at hNone
    · next hEmpty => rw [hEmpty]; rfl
    · cases hNone
  · next raw hSome =>
    split at hSome
    · cases hSome
    · rw [Option.some.inj hSome]

theorem arrived_isPrefix (socket : Socket) : arrived socket <+: sent socket := by
  by_cases hEnd : (read (bufferSize - 1) socket).1 = []
  · have hNothing : arrived socket = [] := by
      simp only [arrived, hEnd]
      exact arriving_zero _
    rw [hNothing]
    exact List.nil_prefix
  · rw [← sent_read hEnd]
    exact (List.prefix_append_right_inj _).mpr (arriving_isPrefix _ _ _ _)

end Arrival

/-! ## What is declared -/

/-- The lines of a header up to the empty line that ends it, and what stands behind that. -/
def completeHead : Nat → Bytes → Option (List Bytes × Bytes)
  | 0, _ => none
  | fuel + 1, stream =>
      match cutAt newline stream with
      | none => none
      | some (line, rest) =>
          if dropReturn line = [] then some ([], rest)
          else (completeHead fuel rest).map fun head => (dropReturn line :: head.1, head.2)

/-- The chunks of a body, up to one without bytes or the end of the stream. Nothing stands for a
chunk without a size, with a negative one, or with bytes missing. -/
def chunks : Nat → Bytes → Option (List Bytes)
  | 0, _ => some []
  | fuel + 1, stream =>
      match getline newline stream with
      | none => some []
      | some (line, rest) =>
          if dropReturn line = [] then chunks fuel rest
          else
            match scanHex (dropReturn line) with
            | none => none
            | some size =>
                if size.magnitude = 0 then some []
                else if size.negative ∨ rest.length < size.magnitude then none
                else (chunks fuel (rest.drop (size.magnitude + 2))).map (rest.take size.magnitude :: ·)

/-- As many bytes behind the blank line as a header declares. -/
def plainBytes (text : Bytes) (length : Int) : Option Bytes :=
  if length.toNat = 0 then some []
  else
    match cutAtText blankLine text with
    | none => none
    | some (_, rest) => if length.toNat ≤ rest.length then some (rest.take length.toNat) else none

inductive Declared where
  | plain (body : Bytes)
  | chunked (pieces : List Bytes)

def Declared.body : Declared → Bytes
  | plain body => body
  | chunked pieces => pieces.flatten

/-- Each chunk has room in the buffer for chunks. -/
def Declared.Buffered : Declared → Prop
  | plain _ => True
  | chunked pieces => ∀ piece ∈ pieces, (piece.length : Int) ≤ chunkBufferSize

def isChunked (headers : List (Bytes × Bytes)) : Bool := headers.contains (bytes "Transfer-Encoding", bytes "chunked")

/-- The body that a text declares, if each length in its header is a number. Without the end of
the header there is none. -/
def declared (text : Bytes) : Option Declared :=
  match getline newline text with
  | none => some (.plain [])
  | some (_, stream) =>
      let headers := (headerBlock stream.length stream).1.filterMap splitHeader
      match contentLength headers 0, completeHead stream.length stream with
      | .error _, _ => none
      | .ok _, none => some (.plain [])
      | .ok length, some (_, rest) =>
          if isChunked headers then (chunks rest.length rest).map .chunked else (plainBytes text length).map .plain

/-! ## The header -/

section Header

variable {stream more rest : Bytes} {fuel : Nat}

theorem getline_eq_of_cutAt {line : Bytes} (h : cutAt newline stream = some (line, rest)) :
    getline newline stream = some (line, rest) := by
  obtain ⟨rfl, hLine⟩ := cutAt_eq_some.mp h
  have hTake : ∀ c ∈ line, (c ≠ newline : Bool) = true := fun c hMem => by
    rw [decide_eq_true_eq]
    rintro rfl
    exact hLine hMem
  rw [getline, if_neg (by simp), List.takeWhile_append_of_pos hTake, List.dropWhile_append_of_pos hTake,
    List.takeWhile_cons_of_neg (by simp), List.dropWhile_cons_of_neg (by simp), List.append_nil, List.tail_cons]

theorem newline_notMem_of_cutAt (h : cutAt newline stream = none) : newline ∉ stream := by
  intro hMem
  obtain ⟨front, behind, hSplit, hFront⟩ := List.eq_append_cons_of_mem hMem
  rw [cutAt_eq_some.mpr ⟨hSplit, hFront⟩] at h
  cases h

theorem getline_of_cutAt_none (h : cutAt newline stream = none) (hNonempty : stream ≠ []) :
    getline newline stream = some (stream, []) := by
  have hPlain : ∀ c ∈ stream, (c ≠ newline : Bool) = true := fun c hMem => by
    rw [decide_eq_true_eq]
    rintro rfl
    exact newline_notMem_of_cutAt h hMem
  rw [getline, if_neg hNonempty, List.takeWhile_eq_self_iff.mpr hPlain, List.dropWhile_eq_nil_iff.mpr hPlain]
  rfl

/-- The lines of a header that is complete are the same whatever follows. -/
theorem headerBlock_of_completeHead {head : List Bytes × Bytes} (h : completeHead fuel stream = some head) {steps : Nat}
    (hSteps : fuel ≤ steps) (more : Bytes) :
    headerBlock steps (stream ++ more) = (head.1, head.2 ++ more) ∧
      completeHead steps (stream ++ more) = some (head.1, head.2 ++ more) := by
  induction fuel generalizing stream head steps with
  | zero => cases h
  | succ fuel ih =>
      obtain ⟨steps, rfl⟩ := Nat.exists_eq_add_one_of_ne_zero (show steps ≠ 0 by omega)
      rw [completeHead] at h
      cases hCut : cutAt newline stream with
      | none =>
          rw [hCut] at h
          cases h
      | some cut =>
          obtain ⟨line, rest⟩ := cut
          obtain ⟨rfl, hLine⟩ := cutAt_eq_some.mp hCut
          have hMore : cutAt newline ((line ++ newline :: rest) ++ more) = some (line, rest ++ more) :=
            cutAt_eq_some.mpr ⟨by simp, hLine⟩
          rw [hCut] at h
          rw [headerBlock, completeHead, getline_eq_of_cutAt hMore, hMore]
          by_cases hEmpty : dropReturn line = []
          · simp only [if_pos hEmpty, Option.some.injEq] at h ⊢
            subst h
            exact ⟨rfl, rfl⟩
          · simp only [if_neg hEmpty] at h ⊢
            obtain ⟨tail, hTail, rfl⟩ := Option.map_eq_some_iff.mp h
            obtain ⟨hBlock, hHead⟩ := ih hTail (Nat.le_of_succ_le_succ hSteps)
            rw [hBlock, hHead]
            exact ⟨rfl, rfl⟩

/-- A header that is not complete takes all of the stream. -/
theorem headerBlock_of_incomplete (hFuel : stream.length ≤ fuel) (h : completeHead fuel stream = none) :
    (headerBlock fuel stream).2 = [] := by
  have hNil : ∀ fuel, (headerBlock fuel []).2 = [] := fun fuel => by cases fuel <;> rfl
  induction fuel generalizing stream with
  | zero => exact List.eq_nil_of_length_eq_zero (Nat.le_zero.mp hFuel)
  | succ fuel ih =>
      rw [completeHead] at h
      cases hCut : cutAt newline stream with
      | none =>
          by_cases hEnd : stream = []
          · rw [hEnd]
            exact hNil _
          · rw [headerBlock, getline_of_cutAt_none hCut hEnd]
            simp only
            split
            · rfl
            · exact hNil _
      | some cut =>
          obtain ⟨line, rest⟩ := cut
          have hLength : rest.length ≤ fuel := by
            obtain ⟨rfl, -⟩ := cutAt_eq_some.mp hCut
            simp only [List.length_append, List.length_cons] at hFuel
            omega
          rw [hCut] at h
          rw [headerBlock, getline_eq_of_cutAt hCut]
          by_cases hEmpty : dropReturn line = []
          · simp [hEmpty] at h
          · simp only [if_neg hEmpty, Option.map_eq_none_iff] at h ⊢
            exact ih hLength h

theorem completeHead_return (fuel : Nat) (behind : Bytes) :
    completeHead (fuel + 1) (ascii '\r' :: newline :: behind) = some ([], behind) := by
  have hCut : cutAt newline (ascii '\r' :: newline :: behind) = some (bytes "\r", behind) :=
    cutAt_eq_some.mpr ⟨rfl, by decide⟩
  rw [completeHead, hCut]
  rfl

/-- The text behind the first line end, where two line ends behind each other follow. -/
theorem cutAt_emptyLine (front behind : Bytes) :
    ∃ line rest, cutAt newline (front ++ (newline :: ascii '\r' :: newline :: behind)) = some (line, rest) ∧
      (rest = ascii '\r' :: newline :: behind ∨ ∃ front', rest = front' ++ (newline :: ascii '\r' :: newline :: behind)) := by
  by_cases hMem : newline ∈ front
  · obtain ⟨line, front', rfl, hLine⟩ := List.eq_append_cons_of_mem hMem
    exact ⟨line, _, cutAt_eq_some.mpr ⟨List.append_assoc _ _ _, hLine⟩, .inr ⟨front', rfl⟩⟩
  · exact ⟨front, _, cutAt_eq_some.mpr ⟨rfl, hMem⟩, .inl rfl⟩

/-- An empty line completes a header. -/
theorem completeHead_of_emptyLine {front behind : Bytes}
    (hFuel : (front ++ (newline :: ascii '\r' :: newline :: behind)).length ≤ fuel) :
    completeHead fuel (front ++ (newline :: ascii '\r' :: newline :: behind)) ≠ none := by
  induction fuel generalizing front with
  | zero => simp at hFuel
  | succ fuel ih =>
      obtain ⟨line, rest, hCut, hRest⟩ := cutAt_emptyLine front behind
      have hLength := congrArg List.length (cutAt_eq_some.mp hCut).1
      rw [completeHead, hCut]
      by_cases hEmpty : dropReturn line = []
      · simp [hEmpty]
      · simp only [if_neg hEmpty, ne_eq, Option.map_eq_none_iff]
        rcases hRest with rfl | ⟨front', rfl⟩
        · obtain ⟨more, rfl⟩ := Nat.exists_eq_add_one_of_ne_zero (show fuel ≠ 0 by
            simp only [List.length_append, List.length_cons] at hFuel
            omega)
          simp [completeHead_return]
        · refine ih ?_
          simp only [List.length_append, List.length_cons] at hLength hFuel ⊢
          omega

theorem completeHead_of_blankLine {text line : Bytes} {cut : Bytes × Bytes} (hLine : getline newline text = some (line, stream))
    (hBlank : cutAtText blankLine text = some cut) : completeHead stream.length stream ≠ none := by
  have hText : text = (cut.1 ++ bytes "\r") ++ (newline :: ascii '\r' :: newline :: cut.2) := by
    have hSplit : text = cut.1 ++ (blankLine ++ cut.2) := cutAtText_eq_some hBlank
    rw [hSplit, List.append_assoc]
    rfl
  obtain ⟨first, rest, hCut, hRest⟩ := cutAt_emptyLine (cut.1 ++ bytes "\r") cut.2
  rw [hText, getline_eq_of_cutAt hCut] at hLine
  obtain ⟨rfl, rfl⟩ := Prod.mk.inj (Option.some.inj hLine)
  rcases hRest with rfl | ⟨front', rfl⟩
  · rw [List.length_cons, completeHead_return]
    exact Option.some_ne_none _
  · exact completeHead_of_emptyLine (Nat.le_refl _)

end Header

/-! ## The body -/

theorem numeral_value_zero_iff (size : Numeral) : size.value = 0 ↔ size.magnitude = 0 := by
  rw [Numeral.value]
  split
  · rw [Int.neg_eq_zero, Int.natCast_eq_zero]
  · exact Int.natCast_eq_zero

/-- A chunk with bytes, in front of the others. -/
theorem pieces_cons_iff {rest whole body : Bytes} {n : Nat} {tail : Option (List Bytes)} (hLength : n ≤ rest.length) :
    (∃ pieces, tail.map (rest.take n :: ·) = some pieces ∧ (∀ piece ∈ pieces, (piece.length : Int) ≤ chunkBufferSize) ∧
        body ++ pieces.flatten = whole) ↔
      (n : Int) ≤ chunkBufferSize ∧ ∃ pieces, tail = some pieces ∧
        (∀ piece ∈ pieces, (piece.length : Int) ≤ chunkBufferSize) ∧ (body ++ rest.take n) ++ pieces.flatten = whole := by
  have hTake : (rest.take n).length = n := List.length_take_of_le hLength
  constructor
  · rintro ⟨pieces, hPieces, hBuffer, hWhole⟩
    obtain ⟨pieces, rfl, rfl⟩ := Option.map_eq_some_iff.mp hPieces
    rw [List.forall_mem_cons, hTake] at hBuffer
    exact ⟨hBuffer.1, pieces, rfl, hBuffer.2, by rw [List.append_assoc]; exact hWhole⟩
  · rintro ⟨hBound, pieces, rfl, hBuffer, hWhole⟩
    refine ⟨_, rfl, ?_, ?_⟩
    · rw [List.forall_mem_cons, hTake]
      exact ⟨hBound, hBuffer⟩
    · rw [List.flatten_cons, ← List.append_assoc]
      exact hWhole

/-- The loop reads the declared chunks if its buffer has room for each. -/
theorem chunkedBody_eq_ok_iff {fuel : Nat} {stream body whole : Bytes} :
    chunkedBody fuel stream body = .ok whole ↔
      ∃ pieces, chunks fuel stream = some pieces ∧ (∀ piece ∈ pieces, (piece.length : Int) ≤ chunkBufferSize) ∧
        body ++ pieces.flatten = whole := by
  have hNothing : ∀ {body whole : Bytes}, (Except.ok body : Except ParseFailure Bytes) = .ok whole ↔
      ∃ pieces, some ([] : List Bytes) = some pieces ∧ (∀ piece ∈ pieces, (piece.length : Int) ≤ chunkBufferSize) ∧
        body ++ pieces.flatten = whole := by
    intro body whole
    simp
  have hFailed : ∀ {body whole : Bytes} {failure : ParseFailure}, (Except.error failure : Except ParseFailure Bytes) = .ok whole ↔
      ∃ pieces, (none : Option (List Bytes)) = some pieces ∧ (∀ piece ∈ pieces, (piece.length : Int) ≤ chunkBufferSize) ∧
        body ++ pieces.flatten = whole := by
    intro body whole failure
    simp
  have hError : ∀ {whole : Bytes} {failure : ParseFailure}, (Except.error failure : Except ParseFailure Bytes) ≠ .ok whole := by
    rintro whole failure ⟨⟩
  have hBuffer : chunkBufferSize = 8192 := rfl
  have hMin : Int32.minValue.toInt = -2 ^ 31 := rfl
  have hMax : Int32.maxValue.toInt = 2 ^ 31 - 1 := rfl
  induction fuel generalizing stream body with
  | zero => exact hNothing
  | succ fuel ih =>
      rw [chunkedBody, chunks]
      cases hLine : getline newline stream with
      | none => exact hNothing
      | some cut =>
          obtain ⟨line, rest⟩ := cut
          by_cases hEmpty : dropReturn line = []
          · simp only [if_pos hEmpty]
            exact ih
          · simp only [if_neg hEmpty, stoiHex]
            cases hScan : scanHex (dropReturn line) with
            | none => exact hFailed
            | some size =>
                have hZero := numeral_value_zero_iff size
                have hSign : size.negative = true → size.value = -(size.magnitude : Int) := fun h => by simp [Numeral.value, h]
                have hPlain : size.negative = false → size.value = size.magnitude := fun h => by simp [Numeral.value, h]
                by_cases hRange : Int32.minValue.toInt ≤ size.value ∧ size.value ≤ Int32.maxValue.toInt
                · have hInt : (Int32.ofInt size.value).toInt = size.value := Int32.toInt_ofInt_of_le (by omega) (by omega)
                  have hEqZero : Int32.ofInt size.value = 0 ↔ size.magnitude = 0 := by
                    rw [← hZero, ← Int32.toInt_inj, hInt]
                    rfl
                  simp only [if_pos hRange, hEqZero, hInt]
                  by_cases hLast : size.magnitude = 0
                  · simp only [if_pos hLast]
                    exact hNothing
                  · simp only [if_neg hLast]
                    cases hNegative : size.negative with
                    | true =>
                        rw [hSign hNegative, if_pos (by omega), if_pos (.inl rfl)]
                        exact hFailed
                    | false =>
                        rw [hPlain hNegative, if_neg (by omega), Int.toNat_natCast]
                        by_cases hShort : rest.length < size.magnitude
                        · rw [if_pos (show false = true ∨ rest.length < size.magnitude from .inr hShort)]
                          split
                          · exact hFailed
                          · exact hFailed
                        · rw [if_neg (show ¬(false = true ∨ rest.length < size.magnitude) by simpa using hShort),
                            pieces_cons_iff (Nat.not_lt.mp hShort)]
                          split
                          · next hLarge => exact ⟨fun h => absurd h hError, fun h => absurd h.1 (Int.not_le.mpr hLarge)⟩
                          · next hRoom => exact ih.trans (and_iff_right (Int.not_lt.mp hRoom)).symm
                · -- a number that is no `int` is too large for the buffer, or negative
                  have hLast : size.magnitude ≠ 0 := fun h => hRange (by rw [hZero.mpr h]; decide)
                  simp only [if_neg hRange, if_neg hLast]
                  by_cases hMissing : size.negative = true ∨ rest.length < size.magnitude
                  · rw [if_pos hMissing]
                    exact hFailed
                  · rw [if_neg hMissing, pieces_cons_iff (Nat.not_lt.mp (not_or.mp hMissing).2)]
                    have hValue := hPlain (Bool.eq_false_iff.mpr (not_or.mp hMissing).1)
                    exact ⟨fun h => absurd h hError, fun h => absurd h.1 (by omega)⟩

section Plain

variable {text body : Bytes} {length : Int}

theorem plainBytes_length (h : plainBytes text length = some body) : body.length = length.toNat := by
  rw [plainBytes] at h
  split at h
  · next hZero => rw [← Option.some.inj h, hZero, List.length_nil]
  · split at h
    · cases h
    · split at h
      · next hEnough => rw [← Option.some.inj h, List.length_take_of_le hEnough]
      · cases h

theorem plainBody_of_plainBytes (h : plainBytes text length = some body) (hLimit : length ≤ maxRequestBodyBytes) :
    plainBody text length = body := by
  rw [plainBytes] at h
  rw [plainBody]
  split at h
  · next hZero =>
    rw [← Option.some.inj h]
    split
    · rfl
    · exact if_neg (by omega)
  · next hSome =>
    cases hCut : cutAtText blankLine text with
    | none => simp only [hCut] at h; cases h
    | some cut =>
      simp only [hCut] at h
      split at h
      · exact (if_pos ⟨by omega, hLimit⟩).trans (Option.some.inj h)
      · cases h

theorem plainBytes_of_plainBody (h : (plainBody text length).length = length.toNat) :
    plainBytes text length = some (plainBody text length) := by
  rw [plainBytes]
  split
  · next hZero => rw [List.eq_nil_of_length_eq_zero (h.trans hZero)]
  · next hSome =>
    rw [plainBody] at h ⊢
    split
    · next hCut =>
      rw [hCut] at h
      exact absurd h.symm hSome
    · next rest hCut =>
      simp only [hCut] at h ⊢
      split at h
      · next hRange =>
        rw [List.length_take] at h
        rw [if_pos (by omega), if_pos hRange]
      · exact absurd h.symm hSome

end Plain

/-! ## The request -/

section Parse

variable {text line stream more : Bytes} {length : Int} {P : Bytes → Prop}

def headersOf (stream : Bytes) : List (Bytes × Bytes) := (headerBlock stream.length stream).1.filterMap splitHeader

theorem not_parseText {failure : ParseFailure} (hLine : getline newline text = some (line, stream))
    (hLength : contentLength (headersOf stream) 0 = .error failure) : ¬∃ request, parseText text = .ok request ∧ P request.body := by
  rintro ⟨request, hParse, -⟩
  rw [headersOf] at hLength
  simp only [parseText, hLine, hLength, bind, Except.bind] at hParse
  cases hParse

theorem parseText_chunked (hLine : getline newline text = some (line, stream))
    (hLength : contentLength (headersOf stream) 0 = .ok length) (hChunked : isChunked (headersOf stream) = true) :
    (∃ request, parseText text = .ok request ∧ P request.body) ↔
      ∃ body, chunkedBody (headerBlock stream.length stream).2.length (headerBlock stream.length stream).2 [] = .ok body ∧ P body := by
  rw [headersOf] at hLength
  rw [isChunked, headersOf] at hChunked
  simp only [parseText, hLine, hLength, bind, Except.bind, hChunked, if_true]
  cases chunkedBody (headerBlock stream.length stream).2.length (headerBlock stream.length stream).2 [] with
  | error failure =>
      constructor
      · rintro ⟨request, ⟨⟩, -⟩
      · rintro ⟨body, ⟨⟩, -⟩
  | ok body =>
      constructor
      · rintro ⟨request, hRequest, hBody⟩
        obtain rfl := Except.ok.inj hRequest
        exact ⟨_, rfl, hBody⟩
      · rintro ⟨_, ⟨⟩, hBody⟩
        exact ⟨_, rfl, hBody⟩

theorem parseText_plain (hLine : getline newline text = some (line, stream))
    (hLength : contentLength (headersOf stream) 0 = .ok length) (hPlain : isChunked (headersOf stream) = false) :
    (∃ request, parseText text = .ok request ∧ P request.body) ↔ P (plainBody text length) := by
  rw [headersOf] at hLength
  rw [isChunked, headersOf] at hPlain
  simp only [parseText, hLine, hLength, bind, Except.bind, hPlain, Bool.false_eq_true, if_false]
  constructor
  · rintro ⟨request, hRequest, hBody⟩
    obtain rfl := Except.ok.inj hRequest
    exact hBody
  · exact fun hBody => ⟨_, rfl, hBody⟩

/-- Without the end of the header there is no body. -/
theorem parseText_incomplete (hLine : getline newline text = some (line, stream))
    (hLength : contentLength (headersOf stream) 0 = .ok length) (hHead : completeHead stream.length stream = none) :
    (∃ request, parseText text = .ok request ∧ P request.body) ↔ P [] := by
  cases hChunked : isChunked (headersOf stream) with
  | true =>
      rw [parseText_chunked hLine hLength hChunked, headerBlock_of_incomplete (Nat.le_refl _) hHead]
      exact ⟨fun ⟨body, hBody, hP⟩ => by rw [← Except.ok.inj hBody] at hP; exact hP, fun hP => ⟨[], rfl, hP⟩⟩
  | false =>
      have hBlank : cutAtText blankLine text = none :=
        Option.eq_none_iff_forall_ne_some.mpr fun cut hCut => completeHead_of_blankLine hLine hCut hHead
      rw [parseText_plain hLine hLength hChunked, plainBody, hBlank]

/-- The body is the declared one, and there is room for it. -/
def Accepts (whole : Option Declared) (body : Bytes) : Prop :=
  whole.map Declared.body = some body ∧ (body.length : Int) ≤ maxRequestBodyBytes

theorem accepts_plain_iff {whole : Option Declared} {body : Bytes} :
    Accepts whole body ↔ ∃ part, some (Declared.plain body) = some part ∧ part.Buffered ∧ Accepts whole part.body := by
  simp [Declared.Buffered, Declared.body]

/-- A text that starts with another declares with the same header. -/
theorem declared_of_completeHead {head : List Bytes × Bytes} (hCut : cutAt newline text = some (line, stream))
    (hHead : completeHead stream.length stream = some head) (hLength : contentLength (headersOf stream) 0 = .ok length) (more : Bytes) :
    declared (text ++ more) =
      if isChunked (headersOf stream) then (chunks (head.2 ++ more).length (head.2 ++ more)).map .chunked
      else (plainBytes (text ++ more) length).map .plain := by
  obtain ⟨hText, hLine⟩ := cutAt_eq_some.mp hCut
  have hMore : cutAt newline (text ++ more) = some (line, stream ++ more) :=
    cutAt_eq_some.mpr ⟨by rw [hText, List.append_assoc, List.cons_append], hLine⟩
  have hSteps : stream.length ≤ (stream ++ more).length := by rw [List.length_append]; exact Nat.le_add_right _ _
  obtain ⟨hBlock, hComplete⟩ := headerBlock_of_completeHead hHead hSteps more
  have hHeaders : headersOf stream = head.1.filterMap splitHeader := by
    rw [headersOf, ← List.append_nil stream, (headerBlock_of_completeHead hHead (by simp) []).1]
  rw [hHeaders] at hLength ⊢
  simp only [declared, getline_eq_of_cutAt hMore, hBlock, hComplete, hLength]

theorem parseText_iff (text more : Bytes) :
    (∃ request, parseText text = .ok request ∧ Accepts (declared (text ++ more)) request.body) ↔
      ∃ part, declared text = some part ∧ part.Buffered ∧ Accepts (declared (text ++ more)) part.body := by
  cases hLine : getline newline text with
  | none =>
      have hParse : parseText text = .ok {} := by rw [parseText, hLine]
      have hDeclared : declared text = some (.plain []) := by rw [declared, hLine]
      rw [hDeclared, ← accepts_plain_iff, hParse]
      constructor
      · rintro ⟨request, hRequest, hAccepts⟩
        rw [← Except.ok.inj hRequest] at hAccepts
        exact hAccepts
      · exact fun hAccepts => ⟨_, rfl, hAccepts⟩
  | some cut =>
      obtain ⟨line, stream⟩ := cut
      cases hLength : contentLength (headersOf stream) 0 with
      | error failure =>
          have hDeclared : declared text = none := by
            rw [headersOf] at hLength
            simp only [declared, hLine, hLength]
          refine iff_of_false (not_parseText hLine hLength) ?_
          rw [hDeclared]
          rintro ⟨part, ⟨⟩, -⟩
      | ok length =>
          cases hHead : completeHead stream.length stream with
          | none =>
              have hDeclared : declared text = some (.plain []) := by
                rw [headersOf] at hLength
                simp only [declared, hLine, hLength, hHead]
              rw [parseText_incomplete hLine hLength hHead, hDeclared, ← accepts_plain_iff]
          | some head =>
              have hCut : cutAt newline text = some (line, stream) := by
                cases hCut : cutAt newline text with
                | none =>
                    by_cases hEmpty : text = []
                    · rw [hEmpty] at hLine
                      cases hLine
                    · rw [getline_of_cutAt_none hCut hEmpty] at hLine
                      obtain ⟨rfl, rfl⟩ := Prod.mk.inj (Option.some.inj hLine)
                      cases hHead
                | some cut => rw [← getline_eq_of_cutAt hCut, hLine]
              have hPart := declared_of_completeHead hCut hHead hLength []
              have hWhole := declared_of_completeHead hCut hHead hLength more
              rw [List.append_nil, List.append_nil] at hPart
              cases hChunked : isChunked (headersOf stream) with
              | true =>
                  have hBlock : headerBlock stream.length stream = head := by
                    have hBlock := (headerBlock_of_completeHead hHead (Nat.le_refl _) []).1
                    rwa [List.append_nil, List.append_nil] at hBlock
                  rw [parseText_chunked hLine hLength hChunked, hBlock, hPart, if_pos hChunked]
                  constructor
                  · rintro ⟨body, hBody, hAccepts⟩
                    obtain ⟨pieces, hPieces, hBuffer, rfl⟩ := chunkedBody_eq_ok_iff.mp hBody
                    exact ⟨_, Option.map_eq_some_iff.mpr ⟨pieces, hPieces, rfl⟩, hBuffer, hAccepts⟩
                  · rintro ⟨part, hPieces, hBuffer, hAccepts⟩
                    obtain ⟨pieces, hChunks, rfl⟩ := Option.map_eq_some_iff.mp hPieces
                    exact ⟨_, chunkedBody_eq_ok_iff.mpr ⟨pieces, hChunks, hBuffer, rfl⟩, hAccepts⟩
              | false =>
                  have hPlain : ¬isChunked (headersOf stream) = true := Bool.eq_false_iff.mp hChunked
                  rw [if_neg hPlain] at hPart hWhole
                  rw [parseText_plain hLine hLength hChunked, hPart]
                  constructor
                  · intro hAccepts
                    obtain ⟨whole, hBytes, hBody⟩ := Option.map_eq_some_iff.mp hAccepts.1
                    rw [hWhole] at hBytes
                    obtain ⟨_, hDeclared, rfl⟩ := Option.map_eq_some_iff.mp hBytes
                    have hCount : (plainBody text length).length = length.toNat := by
                      rw [← hBody]
                      exact plainBytes_length hDeclared
                    exact ⟨_, Option.map_eq_some_iff.mpr ⟨_, plainBytes_of_plainBody hCount, rfl⟩, trivial, hAccepts⟩
                  · rintro ⟨part, hPlainPart, -, hAccepts⟩
                    obtain ⟨body, hBytes, rfl⟩ := Option.map_eq_some_iff.mp hPlainPart
                    have hCount := plainBytes_length hBytes
                    have hLimit : length ≤ maxRequestBodyBytes := by
                      have hRoom : (body.length : Int) ≤ maxRequestBodyBytes := hAccepts.2
                      omega
                    rw [plainBody_of_plainBytes hBytes hLimit]
                    exact hAccepts

end Parse

/-- A request comes back, with the body that all that is sent declares. -/
def Answers (socket : Socket) : Prop := ∃ request, parseRequest socket = .ok request ∧ Accepts (declared (sent socket)) request.body

end ContainerCP.Api.ApiServer
