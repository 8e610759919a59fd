import ContainerCP.Text.Decimal

/-! The strict parsers of the legacy files' fields, `LineParser`. -/
namespace ContainerCP.Storage

/-- `LineParser::parse_uint64`. -/
def parseUint64 (text : Bytes) : Except String UInt64 :=
  match text with
  | [] => .error "empty field"
  | first :: _ =>
      if first = ascii '-' then .error "negative value"
      else
        match scanNumeral text with
        | none => .error "no digits"
        | some numeral =>
            if numeral.rest ≠ [] then .error "trailing characters"
            else if 2 ^ 64 ≤ numeral.magnitude then .error "overflow"
            else .ok numeral.toUInt64

/-- `LineParser::parse_int`. -/
def parseInt (text : Bytes) : Except String Int32 :=
  if text = [] then .error "empty field"
  else
    match scanNumeral text with
    | none => .error "no digits"
    | some numeral =>
        if numeral.rest ≠ [] then .error "trailing characters"
        else if Int32.minValue.toInt ≤ numeral.value ∧ numeral.value ≤ Int32.maxValue.toInt then
          .ok (Int32.ofInt numeral.value)
        else .error "overflow"

/-- `LineParser::parse_bool`. -/
def parseBool (text : Bytes) : Except String Bool :=
  if text = bytes "1" then .ok true
  else if text = bytes "0" then .ok false
  else .error "invalid boolean (expected 0 or 1)"

/-! ## Which texts are numbers of `parse_uint64` -/

/-- A text of digits with a value that has its place in 64 bits. -/
structure IsUint64 (text : Bytes) : Prop where
  nonempty : text ≠ []
  digits : ∀ c ∈ text, isDigit c = true
  bound : digitsValue text < 2 ^ 64

/-- Digits with what `strtoull` passes over: spaces and a sign in front of them, and anything
behind a NUL byte. -/
structure Scanned (text spaces sign digits tail : Bytes) : Prop where
  text_eq : text = spaces ++ (sign ++ (digits ++ tail))
  spaces : ∀ c ∈ spaces, isSpace c = true
  sign : sign = [] ∨ sign = bytes "+" ∨ sign = bytes "-"
  digits : IsUint64 digits
  tail : ∀ c ∈ tail.head?, c = 0

/-- A text that is more than its digits and is still taken for a number. A minus sign is
noticed where it is the first byte. -/
def IsLenient (text : Bytes) : Prop :=
  ∃ spaces sign digits tail, Scanned text spaces sign digits tail ∧ (sign = bytes "-" → spaces ≠ []) ∧
    ¬(spaces = [] ∧ sign = [] ∧ tail = [])

/-- What the parser of an id is for. -/
def ParsesExactly (text : Bytes) : Prop :=
  ((∃ v, parseUint64 text = .ok v) ↔ IsUint64 text) ∧
    (IsUint64 text → parseUint64 text = .ok (UInt64.ofNat (digitsValue text)))

/-- The sign in front of the digits, as a text. -/
theorem exists_sign (text : Bytes) :
    ∃ sign, text = sign ++ (splitSign text).2 ∧ (sign = [] ∨ sign = bytes "+" ∨ sign = bytes "-") := by
  cases text with
  | nil => exact ⟨[], rfl, .inl rfl⟩
  | cons c rest =>
      rw [splitSign]
      split
      next hMinus => exact ⟨bytes "-", by rw [hMinus]; rfl, .inr (.inr rfl)⟩
      · split
        next hPlus => exact ⟨bytes "+", by rw [hPlus]; rfl, .inr (.inl rfl)⟩
        · exact ⟨[], rfl, .inl rfl⟩

theorem splitSign_append {sign digits : Bytes} (hSign : sign = [] ∨ sign = bytes "+" ∨ sign = bytes "-")
    (hNe : digits ≠ []) (hDigits : ∀ c ∈ digits, isDigit c = true) : (splitSign (sign ++ digits)).2 = digits := by
  rcases hSign with rfl | rfl | rfl
  · obtain ⟨first, rest, rfl⟩ := List.exists_cons_of_ne_nil hNe
    rw [List.nil_append, splitSign_of_isDigit (hDigits first List.mem_cons_self)]
  · rfl
  · rfl

theorem head_sign_append {sign digits : Bytes} (hSign : sign = [] ∨ sign = bytes "+" ∨ sign = bytes "-")
    (hNe : digits ≠ []) (hDigits : ∀ c ∈ digits, isDigit c = true) : (sign ++ digits).dropWhile isSpace = sign ++ digits := by
  rcases hSign with rfl | rfl | rfl
  · obtain ⟨first, rest, rfl⟩ := List.exists_cons_of_ne_nil hNe
    exact dropWhile_eq_self_of_head (isDigit_imp_not_isSpace (hDigits first List.mem_cons_self))
  · exact dropWhile_eq_self_of_head (by decide)
  · exact dropWhile_eq_self_of_head (by decide)

/-- The scan of such a text gives the value of its digits. -/
theorem Scanned.scan_eq {text spaces sign digits tail : Bytes} (h : Scanned text spaces sign digits tail) :
    ∃ negative, scanNumeral text = some ⟨negative, digitsValue digits, []⟩ := by
  have hSign : ∀ c ∈ sign, c ≠ 0 := by
    rcases h.sign with hSign | hSign | hSign <;> rw [hSign] <;> decide
  have hFront : ∀ c ∈ spaces ++ (sign ++ digits), c ≠ 0 := by
    intro c hc
    rcases List.mem_append.mp hc with hc | hc
    · rintro rfl
      exact absurd (h.spaces _ hc) (by decide)
    · rcases List.mem_append.mp hc with hc | hc
      · exact hSign c hc
      · exact isDigit_imp_ne_zero (h.digits.digits c hc)
  have hTail : tail.takeWhile (· ≠ 0) = [] := by
    cases tail with
    | nil => rfl
    | cons c tail => rw [h.tail c rfl]; rfl
  have hText : text = spaces ++ (sign ++ digits) ++ tail := by
    rw [h.text_eq]
    simp only [List.append_assoc]
  have hCut : text.takeWhile (· ≠ 0) = spaces ++ (sign ++ digits) := by
    rw [hText, List.takeWhile_append_of_pos (by simpa using hFront), hTail, List.append_nil]
  have hSigned : (text.takeWhile (· ≠ 0)).dropWhile isSpace = sign ++ digits := by
    rw [hCut, List.dropWhile_append_of_pos h.spaces, head_sign_append h.sign h.digits.nonempty h.digits.digits]
  have hRest := splitSign_append h.sign h.digits.nonempty h.digits.digits
  refine ⟨(splitSign (sign ++ digits)).1, ?_⟩
  simp only [scanNumeral, hSigned, hRest]
  rw [takeWhile_eq_self h.digits.digits, dropWhile_eq_nil h.digits.digits]
  simp [h.digits.nonempty]

/-- A number that `scanNumeral` takes with nothing behind it. -/
theorem exists_scanned_of_scanNumeral {text : Bytes} {numeral : Numeral} (h : scanNumeral text = some numeral)
    (hRest : numeral.rest = []) (hBound : numeral.magnitude < 2 ^ 64) :
    ∃ spaces sign digits tail, Scanned text spaces sign digits tail ∧ numeral.magnitude = digitsValue digits := by
  obtain ⟨sign, hSigned, hSign⟩ := exists_sign ((text.takeWhile (· ≠ 0)).dropWhile isSpace)
  simp only [scanNumeral] at h
  generalize hDigits : (splitSign ((text.takeWhile (· ≠ 0)).dropWhile isSpace)).2 = digits at h hSigned
  by_cases hEmpty : (digits.takeWhile isDigit).isEmpty = true
  · rw [if_pos hEmpty] at h
    cases h
  · rw [if_neg hEmpty] at h
    obtain rfl := Option.some.inj h
    have hAll : ∀ c ∈ digits, isDigit c = true := List.dropWhile_eq_nil_iff.mp hRest
    have hTake : digits.takeWhile isDigit = digits := takeWhile_eq_self hAll
    rw [hTake] at hEmpty
    simp only [hTake] at hBound ⊢
    refine ⟨(text.takeWhile (· ≠ 0)).takeWhile isSpace, sign, digits, text.dropWhile (· ≠ 0), ?_, rfl⟩
    refine { text_eq := ?_, spaces := fun c hc => List.mem_takeWhile_imp hc, sign := hSign, digits := ?_, tail := ?_ }
    · rw [← List.append_assoc sign, ← hSigned, ← List.append_assoc, List.takeWhile_append_dropWhile, List.takeWhile_append_dropWhile]
    · exact ⟨fun hNil => hEmpty (by rw [hNil]; rfl), hAll, hBound⟩
    · intro c hc
      have hHead := List.head?_dropWhile_not (fun d : UInt8 => decide (d ≠ 0)) text
      rw [Option.mem_def.mp hc] at hHead
      simpa using hHead

/-- A text that is accepted consists of these parts. -/
theorem exists_scanned {text : Bytes} {v : UInt64} (h : parseUint64 text = .ok v) :
    ∃ spaces sign digits tail, Scanned text spaces sign digits tail ∧ (sign = bytes "-" → spaces ≠ []) := by
  cases text with
  | nil => cases h
  | cons first rest =>
      rw [parseUint64] at h
      by_cases hMinus : first = ascii '-'
      · rw [if_pos hMinus] at h
        cases h
      rw [if_neg hMinus] at h
      cases hScan : scanNumeral (first :: rest) with
      | none =>
          simp only [hScan] at h
          cases h
      | some numeral =>
          simp only [hScan] at h
          by_cases hRest : numeral.rest = []
          · rw [if_neg (not_not_intro hRest)] at h
            by_cases hBound : 2 ^ 64 ≤ numeral.magnitude
            · rw [if_pos hBound] at h
              cases h
            · obtain ⟨spaces, sign, digits, tail, hScanned, -⟩ :=
                exists_scanned_of_scanNumeral hScan hRest (Nat.lt_of_not_le hBound)
              refine ⟨spaces, sign, digits, tail, hScanned, fun hSign hSpaces => hMinus ?_⟩
              have hText := hScanned.text_eq
              rw [hSign, hSpaces] at hText
              exact (List.cons.inj hText).1
          · rw [if_pos hRest] at h
            cases h

/-- Such a text is accepted, unless it starts with its minus sign. -/
theorem Scanned.accepted {text spaces sign digits tail : Bytes} (h : Scanned text spaces sign digits tail)
    (hMinus : sign = bytes "-" → spaces ≠ []) : ∃ v, parseUint64 text = .ok v := by
  obtain ⟨negative, hScan⟩ := h.scan_eq
  have hBound := Nat.not_le_of_lt h.digits.bound
  obtain ⟨first, rest, rfl⟩ : ∃ first rest, text = first :: rest := by
    refine List.exists_cons_of_ne_nil ?_
    rw [h.text_eq]
    simp [h.digits.nonempty]
  have hFirst : first ≠ ascii '-' := by
    rintro rfl
    cases spaces with
    | cons c spaces =>
        obtain rfl := (List.cons.inj h.text_eq).1
        exact absurd (h.spaces _ List.mem_cons_self) (by decide)
    | nil =>
        have hText := h.text_eq
        rcases h.sign with hSign | hSign | hSign <;> rw [hSign] at hText
        · obtain ⟨c, more, hDigits⟩ := List.exists_cons_of_ne_nil h.digits.nonempty
          rw [hDigits] at hText
          obtain rfl := (List.cons.inj hText).1
          exact absurd (h.digits.digits (ascii '-') (hDigits ▸ List.mem_cons_self)) (by decide)
        · exact absurd (List.cons.inj hText).1 (by decide)
        · exact hMinus hSign rfl
  rw [parseUint64, if_neg hFirst]
  simp only [hScan]
  rw [if_neg (not_not_intro rfl), if_neg hBound]
  exact ⟨_, rfl⟩

theorem parseUint64_digits {text : Bytes} (h : IsUint64 text) : parseUint64 text = .ok (UInt64.ofNat (digitsValue text)) := by
  have hScan := scanNumeral_digits h.nonempty h.digits
  have hBound := Nat.not_le_of_lt h.bound
  obtain ⟨first, rest, rfl⟩ := List.exists_cons_of_ne_nil h.nonempty
  have hFirst : first ≠ ascii '-' := by
    rintro rfl
    exact absurd (h.digits _ List.mem_cons_self) (by decide)
  rw [parseUint64, if_neg hFirst]
  simp only [hScan]
  rw [if_neg (not_not_intro rfl), if_neg hBound]
  rfl

/-- A text with a space, a sign or a NUL byte is no text of digits. -/
theorem Scanned.plain_of_isUint64 {text spaces sign digits tail : Bytes} (h : Scanned text spaces sign digits tail)
    (hText : IsUint64 text) : spaces = [] ∧ sign = [] ∧ tail = [] := by
  have hMem : ∀ c, c ∈ spaces ∨ c ∈ sign ∨ c ∈ tail → isDigit c = true := by
    intro c hc
    refine hText.digits c ?_
    rw [h.text_eq]
    simp only [List.mem_append]
    rcases hc with hc | hc | hc
    · exact .inl hc
    · exact .inr (.inl hc)
    · exact .inr (.inr (.inr hc))
  refine ⟨?_, ?_, ?_⟩
  · refine List.eq_nil_iff_forall_not_mem.mpr fun c hc => ?_
    have hSpace := isDigit_imp_not_isSpace (hMem c (.inl hc))
    rw [h.spaces c hc] at hSpace
    cases hSpace
  · rcases h.sign with hSign | hSign | hSign
    · exact hSign
    · exact absurd (hMem (ascii '+') (.inr (.inl (by rw [hSign]; decide)))) (by decide)
    · exact absurd (hMem (ascii '-') (.inr (.inl (by rw [hSign]; decide)))) (by decide)
  · cases tail with
    | nil => rfl
    | cons c tail =>
        obtain rfl := h.tail c rfl
        exact absurd (hMem 0 (.inr (.inr List.mem_cons_self))) (by decide)

theorem parseUint64_exact_iff (text : Bytes) : ParsesExactly text ↔ ¬IsLenient text := by
  constructor
  · rintro ⟨hIff, -⟩ ⟨spaces, sign, digits, tail, hScanned, hMinus, hMore⟩
    exact hMore (hScanned.plain_of_isUint64 (hIff.mp (hScanned.accepted hMinus)))
  · intro h
    refine ⟨⟨?_, fun hText => ⟨_, parseUint64_digits hText⟩⟩, parseUint64_digits⟩
    rintro ⟨v, hParse⟩
    obtain ⟨spaces, sign, digits, tail, hScanned, hMinus⟩ := exists_scanned hParse
    by_cases hPlain : spaces = [] ∧ sign = [] ∧ tail = []
    · obtain ⟨rfl, rfl, rfl⟩ := hPlain
      have hText := hScanned.text_eq
      rw [List.nil_append, List.nil_append, List.append_nil] at hText
      exact hText ▸ hScanned.digits
    · exact absurd ⟨spaces, sign, digits, tail, hScanned, hMinus, hPlain⟩ h

/-- A minus sign behind a space is not noticed: the number wraps. -/
theorem not_forall_parsesExactly : ¬∀ text, ParsesExactly text := by
  intro h
  have hParse : parseUint64 (bytes " -5") = .ok 18446744073709551611 := by decide
  exact absurd (((h (bytes " -5")).1.mp ⟨_, hParse⟩).digits (ascii ' ') (by decide)) (by decide)

end ContainerCP.Storage
