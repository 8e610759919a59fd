import ContainerCP.Text.Streams

/-! Option files: lines with a group in brackets, or with the name of an option and its value. A
comment ends a line unless its sign is inside quotes; behind that the value loses the blanks
around it, then the quotes, and then its escapes are read. -/
namespace ContainerCP.OptionFile

/-! ## Reading -/

def isQuote (c : UInt8) : Bool := c = ascii '\'' || c = ascii '"'

/-- The quote that is open behind a byte. -/
def quoteBehind (quote : Option UInt8) (escape : Bool) (c : UInt8) : Option UInt8 :=
  if isQuote c && !escape then
    match quote with
    | none => some c
    | some q => if q = c then none else some q
  else quote

/-- The line in front of its comment. A backslash protects a quote inside quotes only. -/
def removeEndComment : Option UInt8 → Bool → Bytes → Bytes
  | _, _, [] => []
  | quote, escape, c :: rest =>
      if quoteBehind quote escape c = none ∧ c = ascii '#' then []
      else
        c :: removeEndComment (quoteBehind quote escape c)
          ((quoteBehind quote escape c).isSome && c = ascii '\\' && !escape) rest

def trimBlanks (isBlank : UInt8 → Bool) (value : Bytes) : Bytes := (value.dropWhile isBlank).rdropWhile isBlank

/-- Without a quote at the front and the same one at the end. -/
def unquote : Bytes → Bytes
  | [] => []
  | c :: rest => if isQuote c = true ∧ rest.getLast? = some c then rest.dropLast else c :: rest

/-- What stands for a backslash and a byte behind it. -/
def decodeEscape (c : UInt8) : Bytes :=
  if c = ascii 'n' then [ascii '\n']
  else if c = ascii 't' then [ascii '\t']
  else if c = ascii 'r' then [ascii '\r']
  else if c = ascii 'b' then [8]
  else if c = ascii 's' then [ascii ' ']
  else if c = ascii '"' then [ascii '"']
  else if c = ascii '\'' then [ascii '\'']
  else if c = ascii '\\' then [ascii '\\']
  else [ascii '\\', c]

/-- A backslash at the end stands for itself. -/
def unescape : Bytes → Bytes
  | [] => []
  | c :: rest =>
      if c = ascii '\\' then
        match rest with
        | [] => [c]
        | d :: rest => decodeEscape d ++ unescape rest
      else c :: unescape rest

def optionValue (isBlank : UInt8 → Bool) (value : Bytes) : Bytes := unescape (unquote (trimBlanks isBlank value))

inductive OptionLine where
  | nothing
  | group (name : Bytes)
  | setting (name : Bytes) (value : Option Bytes)
  /-- A line that includes other files. -/
  | directive
  | broken
  deriving DecidableEq

def optionLine (isBlank : UInt8 → Bool) (line : Bytes) : OptionLine :=
  match line.dropWhile isBlank with
  | [] => .nothing
  | c :: rest =>
      if c = ascii '#' ∨ c = ascii ';' then .nothing
      else if c = ascii '!' then .directive
      else if c = ascii '[' then
        match cutAt (ascii ']') rest with
        | none => .broken
        | some (name, _) => .group (name.rdropWhile isBlank)
      else
        match cutAt (ascii '=') (removeEndComment none false (c :: rest)) with
        | none => .setting ((removeEndComment none false (c :: rest)).rdropWhile isBlank) none
        | some (name, value) => .setting (name.rdropWhile isBlank) (some (optionValue isBlank value))

structure Setting where
  group : Bytes
  name : Bytes
  value : Option Bytes
  deriving DecidableEq

/-- The settings of some lines, behind the name of a group. Nothing stands for a file that is
refused, and for one that is more than its own lines. -/
def settings (isBlank : UInt8 → Bool) : Option Bytes → List Bytes → Option (List Setting)
  | _, [] => some []
  | group, line :: lines =>
      match optionLine isBlank line with
      | .nothing => settings isBlank group lines
      | .group name => settings isBlank (some name) lines
      | .setting name value =>
          match group with
          | none => none
          | some group => (settings isBlank (some group) lines).map (⟨group, name, value⟩ :: ·)
      | .directive => none
      | .broken => none

/-- The lines that the buffer of a reader takes whole. -/
def lineLimit : Nat := 4094

/-- The value an option has in a group of a file: the last one counts. Nothing also stands for a
file with a line that is too long. -/
def readOption (isBlank : UInt8 → Bool) (group name file : Bytes) : Option Bytes :=
  if (getlines newline file).all (·.length ≤ lineLimit) then
    match settings isBlank none (getlines newline file) with
    | none => none
    | some read => ((read.filter fun setting => setting.group = group && setting.name = name).getLast?).bind Setting.value
  else none

/-! ## Values as they are written -/

/-- The escapes of a writer that leaves quotes as they are, with what each one stands for. -/
def escapes : List (UInt8 × UInt8) :=
  [(ascii 'n', ascii '\n'), (ascii 't', ascii '\t'), (ascii 'r', ascii '\r'), (ascii 'b', 8), (ascii 's', ascii ' '),
    (ascii '\\', ascii '\\')]

/-- A byte of a value, as it is or as an escape. -/
inductive Spelling (c : UInt8) : Bytes → Prop where
  | raw (h : c ≠ ascii '\\') : Spelling c [c]
  | escaped {d : UInt8} (h : (d, c) ∈ escapes) : Spelling c [ascii '\\', d]

theorem escapes_spec : ∀ e ∈ escapes, decodeEscape e.1 = [e.2] ∧ isQuote e.1 = false ∧ isQuote e.2 = false ∧
    e.1 ≠ ascii '#' ∧ e.2 ≠ ascii '#' ∧ isSpace e.1 = false ∧ e.1 < 128 := by
  simp only [escapes, List.forall_mem_cons]
  exact ⟨by decide, by decide, by decide, by decide, by decide, by decide, by simp⟩

/-- The text of a value in front of the sign of a comment, where the sign is outside of quotes. -/
def uncommented : Option UInt8 → Bytes → Bytes
  | _, [] => []
  | quote, c :: rest =>
      if quoteBehind quote false c = none ∧ c = ascii '#' then [] else c :: uncommented (quoteBehind quote false c) rest

/-- The sign of a comment stands in a value where no quote is open. -/
def HasComment (quote : Option UInt8) (value : Bytes) : Prop :=
  ∃ before behind, value = before ++ ascii '#' :: behind ∧ before.foldl (quoteBehind · false) quote = none

/-- A value with the same quote at both ends. -/
def Quoted (value : Bytes) : Prop := ∃ q inner, isQuote q = true ∧ value = q :: (inner ++ [q])

section Writer

variable {write : UInt8 → Bytes} (hWrite : ∀ c, Spelling c (write c))

/-! ### Comments -/

theorem quoteBehind_of_not_quote {c : UInt8} (h : isQuote c = false) (quote : Option UInt8) (escape : Bool) :
    quoteBehind quote escape c = quote := by
  simp [quoteBehind, h]

theorem removeEndComment_spelling {c : UInt8} {piece : Bytes} (h : Spelling c piece) (quote : Option UInt8) (rest : Bytes) :
    removeEndComment quote false (piece ++ rest) =
      if quoteBehind quote false c = none ∧ c = ascii '#' then []
      else piece ++ removeEndComment (quoteBehind quote false c) false rest := by
  cases h with
  | raw h =>
      rw [List.singleton_append, removeEndComment]
      simp only [h, decide_false, Bool.and_false, Bool.false_and, List.singleton_append]
  | @escaped d h =>
      obtain ⟨-, hFirst, hSecond, hNoSign, hNoMark, -, -⟩ := escapes_spec _ h
      have hEscape : isQuote (ascii '\\') = false := by decide
      have hSign : ascii '\\' ≠ ascii '#' := by decide
      simp only at hFirst hSecond hNoSign hNoMark
      rw [List.cons_append, List.singleton_append, removeEndComment, removeEndComment]
      simp only [quoteBehind_of_not_quote hEscape, quoteBehind_of_not_quote hFirst, quoteBehind_of_not_quote hSecond, hSign, hNoSign,
        hNoMark, and_false, if_false, List.cons_append, List.nil_append]
      -- the second byte of an escape never protects the one behind it
      cases quote <;> simp

include hWrite in
/-- What is left of the text of a value is the text of what is left of the value. -/
theorem removeEndComment_flatMap (quote : Option UInt8) (value : Bytes) :
    removeEndComment quote false (value.flatMap write) = (uncommented quote value).flatMap write := by
  induction value generalizing quote with
  | nil => rfl
  | cons c rest ih =>
      rw [List.flatMap_cons, removeEndComment_spelling (hWrite c), uncommented]
      split
      · rfl
      · rw [ih, List.flatMap_cons]

theorem uncommented_prefix (quote : Option UInt8) (value : Bytes) : uncommented quote value <+: value := by
  induction value generalizing quote with
  | nil => exact List.nil_prefix
  | cons c rest ih =>
      rw [uncommented]
      split
      · exact List.nil_prefix
      · exact (List.prefix_cons_inj c).mpr (ih _)

theorem uncommented_eq_self_iff (quote : Option UInt8) (value : Bytes) : uncommented quote value = value ↔ ¬HasComment quote value := by
  induction value generalizing quote with
  | nil => simp [uncommented, HasComment]
  | cons c rest ih =>
      have hSign : isQuote (ascii '#') = false := by decide
      by_cases hHere : quoteBehind quote false c = none ∧ c = ascii '#'
      · obtain ⟨hQuote, rfl⟩ := hHere
        rw [quoteBehind_of_not_quote hSign] at hQuote
        rw [uncommented, if_pos ⟨(quoteBehind_of_not_quote hSign _ _).trans hQuote, rfl⟩]
        refine iff_of_false (List.cons_ne_nil _ _).symm (not_not.mpr ⟨[], rest, rfl, hQuote⟩)
      · rw [uncommented, if_neg hHere, List.cons_inj_right, ih]
        refine not_congr ⟨?_, ?_⟩
        · rintro ⟨before, behind, rfl, hNone⟩
          exact ⟨c :: before, behind, rfl, hNone⟩
        · rintro ⟨before, behind, hText, hNone⟩
          cases before with
          | nil =>
              obtain ⟨rfl, -⟩ := List.cons.inj hText
              exact absurd ⟨(quoteBehind_of_not_quote hSign _ _).trans hNone, rfl⟩ hHere
          | cons d before =>
              obtain ⟨rfl, rfl⟩ := List.cons.inj hText
              exact ⟨before, behind, rfl, hNone⟩

/-! ### Blanks -/

/-- A blank that the writer leaves as it is. -/
def rawBlank (isBlank : UInt8 → Bool) (write : UInt8 → Bytes) (c : UInt8) : Bool := isBlank c && write c = [c]

section Blanks

variable {isBlank : UInt8 → Bool} (hBlank : ∀ c < 128, isBlank c = isSpace c)

include hBlank in
theorem not_blank_of_escapes {c d : UInt8} (h : (d, c) ∈ escapes) : isBlank (ascii '\\') = false ∧ isBlank d = false := by
  obtain ⟨-, -, -, -, -, hSpace, hAscii⟩ := escapes_spec _ h
  exact ⟨(hBlank _ (by decide)).trans (by decide), (hBlank _ hAscii).trans hSpace⟩

include hWrite hBlank in
/-- The byte at the front of a piece is a blank if the piece is one. -/
theorem blank_head (c : UInt8) : ∃ d rest, write c = d :: rest ∧ isBlank d = rawBlank isBlank write c := by
  rw [rawBlank]
  generalize hPiece : write c = piece
  cases hPiece ▸ hWrite c with
  | raw h => exact ⟨c, [], rfl, by simp⟩
  | @escaped d h => exact ⟨ascii '\\', [d], rfl, by simp [(not_blank_of_escapes hBlank h).1]⟩

include hWrite hBlank in
theorem blank_last (c : UInt8) : ∃ d rest, write c = rest ++ [d] ∧ isBlank d = rawBlank isBlank write c := by
  rw [rawBlank]
  generalize hPiece : write c = piece
  cases hPiece ▸ hWrite c with
  | raw h => exact ⟨c, [], rfl, by simp⟩
  | @escaped d h => exact ⟨d, [ascii '\\'], rfl, by simp [(not_blank_of_escapes hBlank h).2]⟩

theorem write_of_rawBlank {c : UInt8} (h : rawBlank isBlank write c = true) : write c = [c] := by
  simpa using (Bool.and_eq_true_iff.mp h).2

include hWrite hBlank in
theorem dropWhile_flatMap (value : Bytes) :
    (value.flatMap write).dropWhile isBlank = (value.dropWhile (rawBlank isBlank write)).flatMap write := by
  induction value with
  | nil => rfl
  | cons c rest ih =>
      obtain ⟨d, more, hPiece, hSame⟩ := blank_head hWrite hBlank c
      cases hRaw : rawBlank isBlank write c with
      | true =>
          have hC := write_of_rawBlank hRaw
          have hIs : isBlank c = true := (Bool.and_eq_true_iff.mp hRaw).1
          rw [List.flatMap_cons, hC, List.singleton_append, List.dropWhile_cons_of_pos hIs, List.dropWhile_cons_of_pos hRaw, ih]
      | false =>
          rw [hRaw] at hSame
          rw [List.flatMap_cons, hPiece, List.cons_append, List.dropWhile_cons_of_neg (by simp [hSame]),
            List.dropWhile_cons_of_neg (by simp [hRaw]), List.flatMap_cons, hPiece, List.cons_append]

include hWrite hBlank in
theorem rdropWhile_flatMap (value : Bytes) :
    (value.flatMap write).rdropWhile isBlank = (value.rdropWhile (rawBlank isBlank write)).flatMap write := by
  induction value using List.reverseRecOn with
  | nil => rfl
  | append_singleton front c ih =>
      obtain ⟨d, more, hPiece, hSame⟩ := blank_last hWrite hBlank c
      cases hRaw : rawBlank isBlank write c with
      | true =>
          have hC := write_of_rawBlank hRaw
          have hIs : isBlank c = true := (Bool.and_eq_true_iff.mp hRaw).1
          rw [List.flatMap_append, List.flatMap_singleton, hC, List.rdropWhile_concat_pos _ _ _ hIs,
            List.rdropWhile_concat_pos _ _ _ hRaw, ih]
      | false =>
          rw [hRaw] at hSame
          rw [List.flatMap_append, List.flatMap_singleton, hPiece, ← List.append_assoc,
            List.rdropWhile_concat_neg _ _ _ (by simp [hSame]), List.rdropWhile_concat_neg _ _ _ (by simp [hRaw]),
            List.flatMap_append, List.flatMap_singleton, hPiece, List.append_assoc]

include hWrite hBlank in
theorem trimBlanks_flatMap (value : Bytes) :
    trimBlanks isBlank (value.flatMap write) = (trimBlanks (rawBlank isBlank write) value).flatMap write := by
  rw [trimBlanks, dropWhile_flatMap hWrite hBlank, rdropWhile_flatMap hWrite hBlank, trimBlanks]

end Blanks

theorem length_trimBlanks_le (isBlank : UInt8 → Bool) (value : Bytes) : (trimBlanks isBlank value).length ≤ value.length :=
  (List.rdropWhile_prefix _ _).length_le.trans (List.dropWhile_suffix _).length_le

theorem trimBlanks_eq_self_iff (isBlank : UInt8 → Bool) (value : Bytes) :
    trimBlanks isBlank value = value ↔ (∀ c ∈ value.head?, isBlank c = false) ∧ ∀ c ∈ value.getLast?, isBlank c = false := by
  constructor
  · intro h
    have hFront : value.dropWhile isBlank = value := by
      refine (List.dropWhile_suffix _).eq_of_length_le ?_
      calc value.length = (trimBlanks isBlank value).length := by rw [h]
        _ ≤ (value.dropWhile isBlank).length := (List.rdropWhile_prefix _ _).length_le
    have hEnd : value.rdropWhile isBlank = value := by rwa [trimBlanks, hFront] at h
    constructor
    · intro c hc
      have hHead := List.head?_dropWhile_not isBlank value
      rw [hFront, Option.mem_def.mp hc] at hHead
      simpa using hHead
    · intro c hc
      obtain ⟨front, rfl⟩ := List.getLast?_eq_some_iff.mp (Option.mem_def.mp hc)
      have hLast := List.rdropWhile_eq_self_iff.mp hEnd (by simp)
      simpa using hLast
  · rintro ⟨hFront, hEnd⟩
    have hDrop : value.dropWhile isBlank = value := by
      cases value with
      | nil => rfl
      | cons c rest => exact List.dropWhile_cons_of_neg (by simp [hFront c rfl])
    rw [trimBlanks, hDrop, List.rdropWhile_eq_self_iff]
    intro hNe hLast
    rw [hEnd _ (List.getLast?_eq_getLast_of_ne_nil hNe)] at hLast
    cases hLast

/-! ### Quotes -/

include hWrite in
/-- The last byte of a text is a quote if that of the value is, and then it is the same. -/
theorem getLast_flatMap {q : UInt8} (hQuote : isQuote q = true) (value : Bytes) :
    (value.flatMap write).getLast? = some q ↔ value.getLast? = some q := by
  cases value using List.reverseRecOn with
  | nil => rfl
  | append_singleton front c =>
      rw [List.flatMap_append, List.flatMap_singleton, List.getLast?_concat]
      generalize hPiece : write c = piece
      cases hPiece ▸ hWrite c with
      | raw h => rw [List.getLast?_concat]
      | @escaped d h =>
          obtain ⟨-, hFirst, hSecond, -⟩ := escapes_spec _ h
          have hText : front.flatMap write ++ [ascii '\\', d] = (front.flatMap write ++ [ascii '\\']) ++ [d] := by simp
          rw [hText, List.getLast?_concat]
          refine iff_of_false ?_ ?_
          · rintro hD
            rw [← Option.some.inj hD, hFirst] at hQuote
            cases hQuote
          · rintro hC
            rw [← Option.some.inj hC, hSecond] at hQuote
            cases hQuote

theorem spelling_of_isQuote {c : UInt8} {piece : Bytes} (h : Spelling c piece) (hQuote : isQuote c = true) : piece = [c] := by
  cases h with
  | raw _ => rfl
  | escaped h =>
      rw [(escapes_spec _ h).2.2.1] at hQuote
      cases hQuote

include hWrite in
theorem unquote_flatMap (value : Bytes) : unquote (value.flatMap write) = (unquote value).flatMap write := by
  cases value with
  | nil => rfl
  | cons c rest =>
      cases hQuote : isQuote c with
      | true =>
          have hC := spelling_of_isQuote (hWrite c) hQuote
          rw [List.flatMap_cons, hC, List.singleton_append, unquote, unquote]
          simp only [hQuote, true_and, getLast_flatMap hWrite hQuote]
          split
          · next hLast =>
            obtain ⟨front, rfl⟩ := List.getLast?_eq_some_iff.mp hLast
            rw [List.flatMap_append, List.flatMap_singleton, hC, List.dropLast_concat, List.dropLast_concat]
          · rw [List.flatMap_cons, hC, List.singleton_append]
      | false =>
          have hHead : ∃ d more, write c = d :: more ∧ isQuote d = false := by
            generalize hPiece : write c = piece
            cases hPiece ▸ hWrite c with
            | raw h => exact ⟨c, [], rfl, hQuote⟩
            | @escaped d h => exact ⟨ascii '\\', [d], rfl, by decide⟩
          obtain ⟨d, more, hPiece, hOther⟩ := hHead
          rw [List.flatMap_cons, hPiece, List.cons_append, unquote, unquote]
          simp only [hQuote, hOther, Bool.false_eq_true, false_and, if_false]
          rw [List.flatMap_cons, hPiece, List.cons_append]

theorem length_unquote_le (value : Bytes) : (unquote value).length ≤ value.length := by
  cases value with
  | nil => rfl
  | cons c rest =>
      rw [unquote]
      split
      · rw [List.length_dropLast, List.length_cons]
        omega
      · exact le_rfl

theorem unquote_eq_self_iff (value : Bytes) : unquote value = value ↔ ¬Quoted value := by
  cases value with
  | nil => simp [unquote, Quoted]
  | cons c rest =>
      rw [unquote]
      split
      · next h =>
        obtain ⟨hQuote, hLast⟩ := h
        obtain ⟨front, rfl⟩ := List.getLast?_eq_some_iff.mp hLast
        refine iff_of_false (fun hSame => ?_) (not_not.mpr ⟨c, front, hQuote, rfl⟩)
        have hLength := congrArg List.length hSame
        rw [List.dropLast_concat, List.length_cons, List.length_append] at hLength
        omega
      · next h =>
        refine iff_of_true rfl ?_
        rintro ⟨q, inner, hQuote, hText⟩
        obtain ⟨rfl, rfl⟩ := List.cons.inj hText
        exact h ⟨hQuote, List.getLast?_concat⟩

/-! ### Escapes -/

include hWrite in
theorem unescape_flatMap (value : Bytes) : unescape (value.flatMap write) = value := by
  induction value with
  | nil => rfl
  | cons c rest ih =>
      rw [List.flatMap_cons]
      generalize hPiece : write c = piece
      cases hPiece ▸ hWrite c with
      | raw h => rw [List.singleton_append, unescape.eq_def]; simp only [if_neg h, ih]
      | @escaped d h =>
          obtain ⟨hDecode, -⟩ := escapes_spec _ h
          rw [List.cons_append, List.singleton_append, unescape.eq_def]
          simp only [if_true, ih, hDecode, List.singleton_append]

/-! ### The value that is read -/

section Read

variable {isBlank : UInt8 → Bool} (hBlank : ∀ c < 128, isBlank c = isSpace c)

include hWrite hBlank in
/-- What the reader takes from the text of a value. -/
theorem optionValue_flatMap (value : Bytes) :
    optionValue isBlank (removeEndComment none false (value.flatMap write)) =
      unquote (trimBlanks (rawBlank isBlank write) (uncommented none value)) := by
  rw [optionValue, removeEndComment_flatMap hWrite, trimBlanks_flatMap hWrite hBlank, unquote_flatMap hWrite, unescape_flatMap hWrite]

/-- A value that none of the rules of the reader changes. -/
structure Kept (isBlank : UInt8 → Bool) (write : UInt8 → Bytes) (value : Bytes) : Prop where
  noComment : ¬HasComment none value
  noBlankFirst : ∀ c ∈ value.head?, rawBlank isBlank write c = false
  noBlankLast : ∀ c ∈ value.getLast?, rawBlank isBlank write c = false
  notQuoted : ¬Quoted value

include hWrite hBlank in
/-- A value is read as it is if it is one that is kept: each rule only takes bytes away. -/
theorem optionValue_flatMap_eq_iff (value : Bytes) :
    optionValue isBlank (removeEndComment none false (value.flatMap write)) = value ↔ Kept isBlank write value := by
  rw [optionValue_flatMap hWrite hBlank]
  constructor
  · intro h
    have hQuotes := (congrArg List.length h).ge.trans (length_unquote_le _)
    have hBlanks := length_trimBlanks_le (rawBlank isBlank write) (uncommented none value)
    have hComment := uncommented_prefix none value
    have hWhole : uncommented none value = value := by
      refine hComment.eq_of_length_le ?_
      calc value.length ≤ (trimBlanks (rawBlank isBlank write) (uncommented none value)).length := hQuotes
        _ ≤ (uncommented none value).length := hBlanks
    rw [hWhole] at h hQuotes hBlanks
    have hTrimmed : trimBlanks (rawBlank isBlank write) value = value := by
      have hInfix : trimBlanks (rawBlank isBlank write) value <:+: value :=
        (List.rdropWhile_prefix _ _).isInfix.trans (List.dropWhile_suffix _).isInfix
      exact hInfix.sublist.eq_of_length_le hQuotes
    rw [hTrimmed] at h
    obtain ⟨hFirst, hLast⟩ := (trimBlanks_eq_self_iff _ _).mp hTrimmed
    exact ⟨(uncommented_eq_self_iff none value).mp hWhole, hFirst, hLast, (unquote_eq_self_iff value).mp h⟩
  · rintro ⟨hComment, hFirst, hLast, hQuoted⟩
    rw [(uncommented_eq_self_iff none value).mpr hComment, (trimBlanks_eq_self_iff _ _).mpr ⟨hFirst, hLast⟩,
      (unquote_eq_self_iff value).mpr hQuoted]

end Read

end Writer

/-! ## Lines -/

theorem not_of_isAlnum {c : UInt8} (h : isAlnum c = true) :
    c ∉ [ascii '#', ascii ';', ascii '!', ascii '[', ascii '=', ascii '\\', ascii '\'', ascii '"'] := by
  have hTable : ∀ d ∈ [ascii '#', ascii ';', ascii '!', ascii '[', ascii '=', ascii '\\', ascii '\'', ascii '"'],
      isAlnum d = false := by decide
  intro hMem
  rw [hTable c hMem] at h
  cases h

section Lines

variable {isBlank : UInt8 → Bool} (hBlank : ∀ c < 128, isBlank c = isSpace c) {name : Bytes} (hName : ∀ c ∈ name, isAlnum c = true)

include hBlank in
theorem not_blank_of_isAlnum {c : UInt8} (h : isAlnum c = true) : isBlank c = false := by
  have hSides : c < 128 ∧ isSpace c = false := by
    simp [isAlnum, isAlpha, isDigit, isSpace, UInt8.le_iff_toNat_le, UInt8.lt_iff_toNat_lt, ← UInt8.toNat_inj] at h ⊢
    omega
  rw [hBlank c hSides.1, hSides.2]

theorem removeEndComment_plain {c : UInt8} (hQuote : isQuote c = false) (hMark : c ≠ ascii '#') (hEscape : c ≠ ascii '\\')
    (rest : Bytes) : removeEndComment none false (c :: rest) = c :: removeEndComment none false rest := by
  have h := removeEndComment_spelling (.raw hEscape) none rest
  rwa [List.singleton_append, if_neg fun hBoth => hMark hBoth.2, quoteBehind_of_not_quote hQuote, List.singleton_append] at h

include hName in
theorem notMem_name {c : UInt8} (h : isAlnum c = false) : c ∉ name := by
  intro hMem
  rw [hName c hMem] at h
  cases h

include hBlank hName in
theorem rdropWhile_name : name.rdropWhile isBlank = name := by
  rw [List.rdropWhile_eq_self_iff]
  intro hNe hLast
  rw [not_blank_of_isAlnum hBlank (hName _ (List.getLast_mem hNe))] at hLast
  cases hLast

include hName in
/-- A comment starts behind the name of an option. -/
theorem removeEndComment_name (text : Bytes) :
    removeEndComment none false (name ++ ascii '=' :: text) = name ++ ascii '=' :: removeEndComment none false text := by
  induction name with
  | nil => exact removeEndComment_plain (by decide) (by decide) (by decide) text
  | cons c rest ih =>
      have hOther := not_of_isAlnum (hName c List.mem_cons_self)
      simp only [List.mem_cons, List.not_mem_nil, or_false, not_or] at hOther
      obtain ⟨hMark, -, -, -, -, hEscape, hSingle, hDouble⟩ := hOther
      rw [List.cons_append, removeEndComment_plain (by simp [isQuote, hSingle, hDouble]) hMark hEscape,
        ih fun d hd => hName d (List.mem_cons_of_mem _ hd), List.cons_append]

include hBlank hName in
theorem optionLine_setting (hNe : name ≠ []) (text : Bytes) :
    optionLine isBlank (name ++ ascii '=' :: text) =
      .setting name (some (optionValue isBlank (removeEndComment none false text))) := by
  obtain ⟨c, rest, rfl⟩ := List.exists_cons_of_ne_nil hNe
  have hC := hName c List.mem_cons_self
  have hOther := not_of_isAlnum hC
  simp only [List.mem_cons, List.not_mem_nil, or_false, not_or] at hOther
  obtain ⟨hMark, hSemicolon, hInclude, hGroup, -⟩ := hOther
  have hFront : (c :: rest ++ ascii '=' :: text).dropWhile isBlank = c :: (rest ++ ascii '=' :: text) :=
    dropWhile_eq_self_of_head (not_blank_of_isAlnum hBlank hC)
  have hCut : cutAt (ascii '=') (removeEndComment none false (c :: (rest ++ ascii '=' :: text))) =
      some (c :: rest, removeEndComment none false text) := by
    have hNot : ascii '=' ∉ c :: rest := notMem_name hName (by decide)
    have hLine := removeEndComment_name hName text
    rw [List.cons_append] at hLine
    rw [hLine, cutAt_append hNot, cutAt, if_pos rfl, Option.map_some, List.append_nil]
  have hEnd : (c :: rest).rdropWhile isBlank = c :: rest := rdropWhile_name hBlank hName
  rw [optionLine, hFront]
  simp only [hMark, hSemicolon, hInclude, hGroup, or_self, if_false, hCut, hEnd]

include hBlank hName in
theorem optionLine_group : optionLine isBlank (ascii '[' :: (name ++ [ascii ']'])) = .group name := by
  have hFront : (ascii '[' :: (name ++ [ascii ']'])).dropWhile isBlank = ascii '[' :: (name ++ [ascii ']']) :=
    dropWhile_eq_self_of_head ((hBlank _ (by decide)).trans (by decide))
  have hNot : ascii ']' ∉ name := notMem_name hName (by decide)
  have hEnd : name.rdropWhile isBlank = name := rdropWhile_name hBlank hName
  rw [optionLine, hFront]
  simp only [show ascii '[' ≠ ascii '#' by decide, show ascii '[' ≠ ascii ';' by decide, show ascii '[' ≠ ascii '!' by decide, or_self,
    if_false, if_true, cutAt_append hNot, cutAt, Option.map_some, List.append_nil, hEnd]

end Lines

end ContainerCP.OptionFile
