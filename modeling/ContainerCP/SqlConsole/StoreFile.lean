import ContainerCP.SqlConsole.SessionStore

/-! `SqlConsoleSessionStore` on its files: a save and the load behind it. -/
namespace ContainerCP.SqlConsole

/-- The file of the store, and the one beside it that a save writes first. -/
structure StoreFiles where
  store : Option Bytes
  temporary : Option Bytes := none
  deriving DecidableEq

/-- How the calls of a save end. The stream can break off behind some bytes, which `save` does
not look at. -/
structure SaveCalls where
  directory : Bool := true
  opens : Bool := true
  breaksOff : Option Nat := none
  renames : Bool := true
  deriving DecidableEq

namespace SaveCalls

/-- What comes to the file of a text. -/
def delivered (calls : SaveCalls) (text : Bytes) : Bytes :=
  match calls.breaksOff with
  | none => text
  | some size => text.take size

/-- What may be lost of the text: the line break behind the last session, and with it the numeral
of a revocation in the first second of the epoch, which an empty field is read as. -/
def Suffices (calls : SaveCalls) (sessions : List SqlConsoleSession) : Prop :=
  sessions = [] ∨ ∀ size, calls.breaksOff = some size →
    (storeText sessions).length ≤ size + 1 ∨
      (storeText sessions).length = size + 2 ∧
        ∃ time, sessions.getLast?.bind (·.revokedAt) = some time ∧ toEpoch time = 0

end SaveCalls

structure SqlConsoleSessionStoreResult where
  success : Bool
  code : Bytes
  message : Bytes
  deriving DecidableEq

def save (calls : SaveCalls) (sessions : List SqlConsoleSession) (files : StoreFiles) :
    SqlConsoleSessionStoreResult × StoreFiles :=
  if !calls.directory then
    (⟨false, bytes "directory_create_failed", bytes "SQL Console session metadata directory could not be created"⟩, files)
  else if !calls.opens then
    (⟨false, bytes "store_open_failed", bytes "SQL Console session metadata file could not be opened"⟩, files)
  else
    let files := { files with temporary := some (calls.delivered (storeText sessions)) }
    if calls.renames then
      (⟨true, bytes "stored", bytes "SQL Console session metadata stored"⟩, { store := files.temporary })
    else
      (⟨false, bytes "store_replace_failed", bytes "SQL Console session metadata file could not be replaced"⟩,
        { files with temporary := none })

def load (files : StoreFiles) : List SqlConsoleSession := loadStore files.store

/-! ## Whole seconds -/

theorem toInt_toEpoch (time : Time) : (toEpoch time).toInt = time.toInt.tdiv 1000000000 := by
  have hBillion : (1000000000 : Int64).toInt = 1000000000 := by decide
  have hBound : (time.toInt.tdiv 1000000000).natAbs ≤ time.toInt.natAbs := Int.natAbs_tdiv_le_natAbs _ _
  have hLow := Int64.le_toInt time
  have hHigh := Int64.toInt_lt time
  rw [toEpoch, Int64.toInt_div, hBillion]
  have hSmall : (time.toInt.tdiv 1000000000).natAbs = time.toInt.natAbs / 1000000000 := Int.natAbs_tdiv _ _
  exact Int.bmod_eq_of_le (by omega) (by omega)

theorem natAbs_toEpoch (time : Time) : (toEpoch time).toInt.natAbs ≤ 9223372036 := by
  have hSmall : (time.toInt.tdiv 1000000000).natAbs = time.toInt.natAbs / 1000000000 := Int.natAbs_tdiv _ _
  have hLow := Int64.le_toInt time
  have hHigh := Int64.toInt_lt time
  rw [toInt_toEpoch, hSmall]
  omega

theorem toInt_seconds {n : Int64} (h : n.toInt.natAbs ≤ 9223372036) : (seconds n).toInt = n.toInt * 1000000000 := by
  have hBillion : (1000000000 : Int64).toInt = 1000000000 := by decide
  rw [seconds, Int64.toInt_mul, hBillion]
  exact Int.bmod_eq_of_le (by omega) (by omega)

/-! ## A last line that is cut off -/

/-- The last field without some bytes of its end. -/
theorem optionalFromEpoch_cut {time : Option Time} {field extra : Bytes}
    (h : field ++ extra = optionalEpochText time) (hExtra : extra ≠ []) :
    optionalFromEpoch field = time.map (fun time => seconds (toEpoch time)) ↔
      field = [] ∧ ∃ value, time = some value ∧ toEpoch value = 0 := by
  have hEmpty : optionalFromEpoch [] = some 0 := by decide
  cases time with
  | none =>
      have hField : field = [] := by
        have hLength : (field ++ extra).length = 1 := by rw [h]; rfl
        have hRest := List.length_pos_of_ne_nil hExtra
        rw [List.length_append] at hLength
        exact List.length_eq_zero_iff.mp (by omega)
      simp [hField, hEmpty]
  | some value =>
      have hEpoch := natAbs_toEpoch value
      by_cases hField : field = []
      · subst hField
        have hZero : 0 = seconds (toEpoch value) ↔ toEpoch value = 0 := by
          rw [← Int64.toInt_inj, ← Int64.toInt_inj, toInt_seconds hEpoch, Int64.toInt_zero]
          omega
        simp [hEmpty, hZero]
      · refine iff_of_false (fun hSame => ?_) (fun hNil => hField hNil.1)
        have hMinus : field ≠ bytes "-" := by
          rintro rfl
          simp [optionalFromEpoch] at hSame
        obtain ⟨hZero, numeral, hScan, hLess⟩ := scanNumeral_cut h hExtra hField hMinus
        have hLow : Int64.minValue.toInt = -2 ^ 63 := rfl
        have hHigh : Int64.maxValue.toInt = 2 ^ 63 - 1 := rfl
        have hRead : stoll field = some (Int64.ofInt numeral.value) := by
          rw [stoll, hScan]
          exact if_pos ⟨by omega, by omega⟩
        have hValue : (Int64.ofInt numeral.value).toInt = numeral.value :=
          Int64.toInt_ofInt_of_le (by omega) (by omega)
        simp only [optionalFromEpoch, if_neg hMinus, fromEpoch, hRead, Option.map_some, Option.some.injEq,
          ← Int64.toInt_inj] at hSame
        rw [toInt_seconds hEpoch, toInt_seconds (by omega), hValue] at hSame
        omega

theorem length_splitOn_of_parseSessionLine {line : Bytes} {session : SqlConsoleSession}
    (h : parseSessionLine line = some session) : (line.splitOn pipe).length = 15 := by
  rw [parseSessionLine] at h
  split at h
  · next hSplit =>
    rw [hSplit]
    rfl
  · cases h

theorem sessionLine_front (session : SqlConsoleSession) (last : Bytes) :
    [pipe].intercalate ((sessionFields session).dropLast ++ [last]) =
      (sessionFields session).dropLast.flatMap (· ++ [pipe]) ++ last := by
  rw [intercalate_concat]

/-- A line that is cut short ends in its last field, or it has lost more than one byte and a bar. -/
theorem sessionLine_cut {session : SqlConsoleSession} {line extra : Bytes} (h : line ++ extra = sessionLine session) :
    (∃ field, line = (sessionFields session).dropLast.flatMap (· ++ [pipe]) ++ field ∧
      optionalEpochText session.revokedAt = field ++ extra) ∨ (line.count pipe < 14 ∧ extra.length ≠ 1) := by
  have hPipes : ((sessionFields session).dropLast.flatMap (· ++ [pipe])).count pipe = 14 := by
    rw [count_flatMap_of_notMem fun field hField =>
      not_mem_sessionFields (.inl rfl) (List.dropLast_subset _ hField)]
    rfl
  rw [sessionLine_eq, sessionLine_front] at h
  rcases List.append_eq_append_iff.mp h with ⟨lost, hLost, hRest⟩ | hField
  · rcases List.eq_nil_or_concat' lost with rfl | ⟨others, c, rfl⟩
    · exact .inl ⟨[], by rw [hLost, List.append_nil, List.append_nil], hRest.symm⟩
    · have hPipe : c = pipe := by
        rw [flatMap_separator_eq pipe (by simp [sessionFields]), ← List.append_assoc] at hLost
        exact (List.cons.inj (List.append_inj' hLost rfl).2).1.symm
      have hText : optionalEpochText session.revokedAt ≠ [] := by
        cases session.revokedAt with
        | none => decide
        | some time => exact decimalInt_ne_nil _
      have hPos := List.length_pos_of_ne_nil hText
      rw [hLost, hPipe, ← List.append_assoc, List.count_append, List.count_append, List.count_singleton_self] at hPipes
      refine .inr ⟨by omega, ?_⟩
      rw [hRest, List.length_append, List.length_append, List.length_singleton]
      omega
  · exact .inl hField

/-- The line of a session without some bytes of its end. -/
theorem parseSessionLine_cut {session : SqlConsoleSession} {line extra : Bytes}
    (h : line ++ extra = sessionLine session) (hExtra : extra ≠ []) :
    parseSessionLine line = some (persisted session) ↔
      extra.length = 1 ∧ ∃ time, session.revokedAt = some time ∧ toEpoch time = 0 := by
  obtain ⟨field, rfl, hField⟩ | ⟨hFew, hLong⟩ := sessionLine_cut h
  · have hPlain : pipe ∉ field := fun hMem =>
      pipe_not_mem_revokedAt session (hField ▸ List.mem_append_left _ hMem)
    have hRead := optionalFromEpoch_cut hField.symm hExtra
    have hSame : { persisted session with revokedAt := optionalFromEpoch field } = persisted session ↔
        optionalFromEpoch field = session.revokedAt.map fun time => seconds (toEpoch time) :=
      ⟨fun hEq => congrArg SqlConsoleSession.revokedAt hEq, fun hEq => by rw [hEq]; rfl⟩
    rw [← sessionLine_front, parseSessionLine_fields session hPlain, Option.some.injEq, hSame, hRead]
    refine and_congr_left fun hRevoked => ?_
    obtain ⟨time, hTime, hZero⟩ := hRevoked
    have hLength : (field ++ extra).length = 1 := by
      rw [← hField, hTime, optionalEpochText, epochText, hZero]
      rfl
    have hPos := List.length_pos_of_ne_nil hExtra
    rw [List.length_append] at hLength
    rw [← List.length_eq_zero_iff]
    omega
  · refine iff_of_false (fun hSome => ?_) (fun hOne => hLong hOne.1)
    have hLength := length_splitOn_of_parseSessionLine hSome
    rw [length_splitOn] at hLength
    omega

/-! ## The round trip -/

theorem storeText_concat (front : List SqlConsoleSession) (last : SqlConsoleSession) :
    storeText (front ++ [last]) = storeText front ++ (sessionLine last ++ [newline]) := by
  simp [storeText]

/-- Whole lines and one that has no line break. -/
theorem loadStore_append (front : List SqlConsoleSession) {line : Bytes} (hNe : line ≠ []) (h : newline ∉ line) :
    loadStore (some (storeText front ++ line)) = front.map persisted ++ (parseSessionLine line).toList := by
  have hLines : getlines newline (storeText front ++ line) = storeHeader :: (front.map sessionLine ++ [line]) := by
    rw [storeText, ← intercalate_concat, getlines_intercalate (by simp), dropEmptyLast_concat _ hNe]
    · rfl
    · intro other hOther
      rcases List.mem_append.mp hOther with hFront | hLast
      · exact newline_not_mem_lines front other hFront
      · rwa [List.mem_singleton.mp hLast]
  rw [loadStore_of_getlines hLines]
  cases hParsed : parseSessionLine line <;> simp [hNe, hParsed]

/-- No more sessions are loaded than whole lines were written. -/
theorem length_loadStore_le (front : List SqlConsoleSession) (size : Nat) :
    (loadStore (some ((storeText front).take size))).length ≤ front.length := by
  have hLoad : ∀ text, (loadStore (some text)).length ≤ (getlines newline text).length - 1 := by
    intro text
    rw [loadStore]
    split
    · exact Nat.zero_le _
    · next header lines hLines =>
      rw [hLines]
      split
      · exact Nat.le_trans (List.length_filterMap_le _ _) (List.length_filter_le _ _)
      · exact Nat.zero_le _
  obtain ⟨text, hText⟩ : ∃ text, storeText front = text ++ [newline] :=
    ⟨_, flatMap_separator_eq newline (List.cons_ne_nil storeHeader _)⟩
  have hCount : (storeText front).count newline = front.length + 1 := by
    rw [storeText, count_flatMap_of_notMem (newline_not_mem_lines front), List.length_cons, List.length_map]
  rcases Nat.lt_or_ge size (storeText front).length with hShort | hWhole
  · rw [hText, List.length_append, List.length_singleton] at hShort
    rw [hText, List.count_append, List.count_singleton_self] at hCount
    have hTaken : (text.take size).count newline ≤ text.count newline := (List.take_sublist size text).count_le newline
    have hLines := length_getlines_le newline (text.take size)
    rw [length_splitOn] at hLines
    rw [hText, List.take_append_of_le_length (by omega)]
    exact Nat.le_trans (hLoad _) (by omega)
  · rw [List.take_of_length_le hWhole, loadStore_storeText, List.length_map]

/-- What comes back of a text that breaks off. -/
theorem loadStore_take_iff (front : List SqlConsoleSession) (last : SqlConsoleSession) (size : Nat) :
    loadStore (some ((storeText (front ++ [last])).take size)) = (front ++ [last]).map persisted ↔
      (storeText (front ++ [last])).length ≤ size + 1 ∨
        (storeText (front ++ [last])).length = size + 2 ∧
          ∃ time, last.revokedAt = some time ∧ toEpoch time = 0 := by
  rw [storeText_concat, List.take_append, List.length_append, List.length_append, List.length_singleton]
  rcases Nat.lt_or_ge (storeText front).length size with hLong | hShort
  · rw [List.take_of_length_le hLong.le]
    rcases Nat.lt_or_ge (sessionLine last).length (size - (storeText front).length) with hWhole | hCut
    · have hAll := loadStore_storeText (front ++ [last])
      rw [storeText_concat] at hAll
      rw [List.take_of_length_le (by rw [List.length_append, List.length_singleton]; omega), hAll]
      exact iff_of_true rfl (.inl (by omega))
    · obtain ⟨line, hLine⟩ : ∃ line, line = (sessionLine last).take (size - (storeText front).length) := ⟨_, rfl⟩
      have hJoined : line ++ (sessionLine last).drop (size - (storeText front).length) = sessionLine last := by
        rw [hLine, List.take_append_drop]
      have hLength : line.length = size - (storeText front).length := by rw [hLine, List.length_take]; omega
      have hNe : line ≠ [] := List.ne_nil_of_length_pos (by omega)
      have hPlain : newline ∉ line := fun hMem =>
        newline_not_mem_sessionLine last (hJoined ▸ List.mem_append_left _ hMem)
      have hLast : (parseSessionLine line).toList = [persisted last] ↔ parseSessionLine line = some (persisted last) := by
        cases parseSessionLine line <;> simp
      rw [List.take_append_of_le_length hCut, ← hLine, loadStore_append front hNe hPlain, List.map_append,
        List.append_cancel_left_eq, List.map_singleton, hLast]
      by_cases hDrop : (sessionLine last).drop (size - (storeText front).length) = []
      · rw [hDrop, List.append_nil] at hJoined
        rw [hJoined]
        refine iff_of_true (parseSessionLine_sessionLine last) (.inl ?_)
        rw [← hJoined]
        omega
      · rw [parseSessionLine_cut hJoined hDrop, List.length_drop]
        have hPos := List.length_pos_of_ne_nil hDrop
        rw [List.length_drop] at hPos
        constructor
        · exact fun ⟨hOne, hTime⟩ => .inr ⟨by omega, hTime⟩
        · rintro (hFew | ⟨hTwo, hTime⟩)
          · omega
          · exact ⟨by omega, hTime⟩
  · have hPipes := length_splitOn_of_parseSessionLine (parseSessionLine_sessionLine last)
    have hLong := @List.count_le_length _ _ pipe (sessionLine last)
    rw [length_splitOn] at hPipes
    refine iff_of_false (fun hAll => ?_) (by rintro (hFew | ⟨hTwo, -⟩) <;> omega)
    have hLength := length_loadStore_le front size
    rw [Nat.sub_eq_zero_of_le hShort, List.take_zero, List.append_nil] at hAll
    rw [hAll, List.length_map, List.length_append, List.length_singleton] at hLength
    omega

/-- A save that reports success is loaded as the same sessions in their order, without their
secrets, at whole seconds, exactly where the stream took enough of the text. -/
theorem load_save_iff (calls : SaveCalls) (sessions : List SqlConsoleSession) (files : StoreFiles) :
    ((save calls sessions files).1.success = true →
        load (save calls sessions files).2 = sessions.map persisted) ↔
      (calls.directory = true → calls.opens = true → calls.renames = true → calls.Suffices sessions) := by
  have hSuccess : (save calls sessions files).1.success = true ↔
      calls.directory = true ∧ calls.opens = true ∧ calls.renames = true := by
    cases hDirectory : calls.directory <;> cases hOpens : calls.opens <;> cases hRenames : calls.renames <;>
      simp [save, hDirectory, hOpens, hRenames]
  have hLoad : calls.directory = true ∧ calls.opens = true ∧ calls.renames = true →
      load (save calls sessions files).2 = loadStore (some (calls.delivered (storeText sessions))) := by
    rintro ⟨hDirectory, hOpens, hRenames⟩
    simp [save, hDirectory, hOpens, hRenames, load]
  have hKept : loadStore (some (calls.delivered (storeText sessions))) = sessions.map persisted ↔
      calls.Suffices sessions := by
    rw [SaveCalls.delivered, SaveCalls.Suffices]
    cases calls.breaksOff with
    | none => simp [loadStore_storeText]
    | some size =>
        rcases List.eq_nil_or_concat' sessions with rfl | ⟨front, last, rfl⟩
        · exact iff_of_true (List.length_eq_zero_iff.mp (Nat.le_zero.mp (length_loadStore_le [] size))) (.inl rfl)
        · simpa using loadStore_take_iff front last size
  constructor
  · intro h hDirectory hOpens hRenames
    have hAll := And.intro hDirectory (And.intro hOpens hRenames)
    rw [← hKept, ← hLoad hAll]
    exact h (hSuccess.mpr hAll)
  · intro h hSaved
    have hAll := hSuccess.mp hSaved
    rw [hLoad hAll]
    exact hKept.mpr (h hAll.1 hAll.2.1 hAll.2.2)

/-- The disk is full behind 60 bytes: success, and the session is lost. -/
theorem load_save_breaksOff :
    ¬∀ (calls : SaveCalls) (sessions : List SqlConsoleSession) (files : StoreFiles),
      (save calls sessions files).1.success = true → load (save calls sessions files).2 = sessions.map persisted := by
  intro h
  have hLost := h { breaksOff := some 60 } [{ launchId := bytes "a|b%\n", createdAt := 1500000000 }] ⟨none, none⟩ (by decide)
  exact absurd hLost (by decide)

end ContainerCP.SqlConsole
