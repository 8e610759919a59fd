import ContainerCP.Text.PhpString
import ContainerCP.Wordpress.UpdateInspection

/-! The literals that the updater writes, as the panel reads them back and as PHP does. -/
namespace ContainerCP.Wordpress

/-- A value in quotes. -/
def quotedText (q : UInt8) (literal : Bytes) : Bytes := q :: (literal ++ [q])

/-- Where a value is encoded, the panel reads it back, and PHP reads it too. -/
structure RoundTrips (value : Bytes) (q : UInt8) : Prop where
  panel : ∀ encoded, encodePhpLiteralValue value q = some encoded → parsePhpStringLiteral (quotedText q encoded) = some value
  php : ∀ encoded, encodePhpLiteralValue value q = some encoded → Php.stringLiteral (quotedText q encoded) = some value

/-! ## The panel -/

theorem parsePhpStringLiteral_quotedText {q : UInt8} (hq : IsQuote q) {literal : Bytes} (h : literalBody q literal = true) :
    parsePhpStringLiteral (quotedText q literal) = some (unescape literal) :=
  parsePhpStringLiteral_quoted
    { leading := []
      tail := []
      text_eq := rfl
      leading_spaces := fun _ hc => absurd hc List.not_mem_nil
      quote := hq
      body := h
      tail_end := rfl }

/-- A byte in double quotes, as the panel reads its encoding. -/
def readBack (c : UInt8) : Bytes := unescape (encodeDouble c)

/-- A byte that is neither a control nor marks anything in double quotes. -/
def isText (c : UInt8) : Bool := !isControl c && c != ascii '\\' && c != ascii '"'

theorem not_control_of_isText {c : UInt8} (h : isText c = true) : isControl c = false := by
  simp only [isText, Bool.and_eq_true, Bool.not_eq_true'] at h
  exact h.1.1

/-- An encoded byte is a backslash, one more byte and some digits, or it is the byte. -/
theorem encodeDouble_cases (c : UInt8) :
    (∃ e digits, encodeDouble c = ascii '\\' :: e :: digits ∧ isControl e = false ∧ ∀ d ∈ digits, isText d = true) ∨
      (encodeDouble c = [c] ∧ isText c = true ∧ c ≠ Php.dollar) := by
  have hDigits : ∀ n : Fin 256, isText (upperHexDigit (UInt8.ofFin n / 16)) = true ∧
      isText (upperHexDigit (UInt8.ofFin n % 16)) = true := by
    decide +kernel
  have hShort : ∀ e, isControl e = false → ∃ e' digits, [ascii '\\', e] = ascii '\\' :: e' :: digits ∧ isControl e' = false ∧
      ∀ d ∈ digits, isText d = true := fun e he => ⟨e, [], rfl, he, fun _ hd => absurd hd List.not_mem_nil⟩
  unfold encodeDouble
  split
  · exact .inl (hShort _ (by decide))
  next hBackslash =>
  split
  · exact .inl (hShort _ (by decide))
  next hQuote =>
  split
  · exact .inl (hShort _ (by decide))
  next hDollar =>
  split
  · exact .inl (hShort _ (by decide))
  split
  · exact .inl (hShort _ (by decide))
  split
  · exact .inl (hShort _ (by decide))
  split
  · exact .inl (hShort _ (by decide))
  split
  · refine .inl ⟨_, _, rfl, by decide, fun d hd => ?_⟩
    obtain ⟨hHigh, hLow⟩ := hDigits c.toFin
    rcases List.mem_cons.mp hd with rfl | hd
    · exact hHigh
    · rw [List.mem_singleton.mp hd]
      exact hLow
  · next hControl =>
    refine .inr ⟨rfl, ?_, hDollar⟩
    have hPlain : isControl c = false := by simpa [isControl] using hControl
    simp [isText, hPlain, hBackslash, hQuote]

theorem unescape_text {text : Bytes} (h : ∀ c ∈ text, isText c = true) (rest : Bytes) :
    literalBody (ascii '"') (text ++ rest) = literalBody (ascii '"') rest ∧ unescape (text ++ rest) = text ++ unescape rest := by
  induction text with
  | nil => exact ⟨rfl, rfl⟩
  | cons c text ih =>
      obtain ⟨hBody, hUnescape⟩ := ih fun d hd => h d (List.mem_cons_of_mem _ hd)
      have hText := h c List.mem_cons_self
      simp only [isText, Bool.and_eq_true, bne_iff_ne] at hText
      obtain ⟨⟨-, hBackslash⟩, hQuote⟩ := hText
      rw [List.cons_append, literalBody_plain _ _ hBackslash, unescape_plain _ hBackslash, hBody, hUnescape]
      exact ⟨by simp [hQuote], rfl⟩

/-- Whatever its encoding is, it stays in its literal, and no control byte is read from it. -/
theorem encodeDouble_read (c : UInt8) (rest : Bytes) :
    literalBody (ascii '"') (encodeDouble c ++ rest) = literalBody (ascii '"') rest ∧
      unescape (encodeDouble c ++ rest) = readBack c ++ unescape rest ∧ ∀ d ∈ readBack c, isControl d = false := by
  have hAlone : ∀ {text : Bytes}, (∀ d ∈ text, isText d = true) → unescape text = text := by
    intro text hText
    calc unescape text = unescape (text ++ []) := by rw [List.append_nil]
      _ = text ++ [] := (unescape_text hText []).2
      _ = text := List.append_nil text
  unfold readBack
  rcases encodeDouble_cases c with ⟨e, digits, hEncode, hPlain, hDigits⟩ | ⟨hEncode, hText, -⟩
  · obtain ⟨hBody, hUnescape⟩ := unescape_text hDigits rest
    rw [hEncode, List.cons_append, List.cons_append, literalBody_escape, unescape_escape, unescape_escape, hBody, hUnescape,
      hAlone hDigits]
    refine ⟨rfl, rfl, fun d hd => ?_⟩
    rcases List.mem_cons.mp hd with rfl | hd
    · exact hPlain
    · exact not_control_of_isText (hDigits d hd)
  · have hOnly : ∀ d ∈ [c], isText d = true := fun d hd => List.mem_singleton.mp hd ▸ hText
    obtain ⟨hBody, hUnescape⟩ := unescape_text hOnly rest
    rw [hEncode, hBody, hUnescape, hAlone hOnly]
    exact ⟨rfl, rfl, fun d hd => not_control_of_isText (hOnly d hd)⟩

theorem literal_flatMap_encodeDouble (value : Bytes) :
    literalBody (ascii '"') (value.flatMap encodeDouble) = true ∧
      unescape (value.flatMap encodeDouble) = value.flatMap readBack := by
  induction value with
  | nil => exact ⟨rfl, rfl⟩
  | cons c rest ih =>
      obtain ⟨hBody, hUnescape, -⟩ := encodeDouble_read c (rest.flatMap encodeDouble)
      rw [List.flatMap_cons, List.flatMap_cons, hBody, hUnescape, ih.1, ih.2]
      exact ⟨rfl, rfl⟩

/-- With a control byte in it, a value in double quotes is read back as another. -/
theorem read_control {value : Bytes} {c : UInt8} (hMem : c ∈ value) (hControl : isControl c = true) :
    parsePhpStringLiteral (quotedText (ascii '"') (value.flatMap encodeDouble)) ≠ some value := by
  obtain ⟨hBody, hUnescape⟩ := literal_flatMap_encodeDouble value
  rw [parsePhpStringLiteral_quotedText (.inr rfl) hBody, hUnescape]
  intro hSame
  rw [← Option.some.inj hSame] at hMem
  obtain ⟨d, -, hRead⟩ := List.mem_flatMap.mp hMem
  rw [(encodeDouble_read d []).2.2 c hRead] at hControl
  cases hControl

/-! ## PHP -/

/-- PHP reads an encoding in single quotes as the value. -/
theorem singleBody_encoded {outs : List Bytes} {value : Bytes} (h : value.mapM encodeSingle = some outs) :
    Php.singleBody (outs.flatten ++ [ascii '\'']) = some value := by
  induction value generalizing outs with
  | nil =>
      obtain rfl : outs = [] := by simpa using h.symm
      rfl
  | cons c rest ih =>
      simp only [List.mapM_cons, Option.pure_def, Option.bind_eq_bind, Option.bind_eq_some_iff] at h
      obtain ⟨out, hOut, others, hOthers, hEq⟩ := h
      obtain rfl := Option.some.inj hEq
      have hRest : (Php.singleBody (others.flatten ++ [ascii '\''])).map (c :: ·) = some (c :: rest) := by
        rw [ih hOthers]
        rfl
      rw [List.flatten_cons, List.append_assoc]
      rcases encodesByte_encodeSingle hOut with rfl | ⟨rfl, hBackslash, hQuote⟩
      · refine (Php.singleBody_escape ?_ _).trans hRest
        rw [encodeSingle] at hOut
        split_ifs at hOut with hEscape
        · exact hEscape
        · cases hOut
        · cases hOut
      · exact (Php.singleBody_plain hBackslash hQuote _).trans hRest

/-- An encoded text begins with no dollar sign. -/
theorem head_encoded (value : Bytes) : (value.flatMap encodeDouble ++ [ascii '"']).head? ≠ some Php.dollar := by
  cases value with
  | nil => decide
  | cons c rest =>
      rw [List.flatMap_cons]
      rcases encodeDouble_cases c with ⟨e, digits, hEncode, -⟩ | ⟨hEncode, -, hDollar⟩
      · rw [hEncode]
        exact fun h => absurd (Option.some.inj h) (by decide)
      · rw [hEncode]
        exact fun h => hDollar (Option.some.inj h)

/-- PHP reads an encoding in double quotes as the value. -/
theorem doubleBody_encoded {value : Bytes} (h : ∀ c ∈ value, isControl c = false) :
    Php.doubleBody 0 (value.flatMap encodeDouble ++ [ascii '"']) = some value := by
  induction value with
  | nil => rfl
  | cons c rest ih =>
      have hRest : (Php.doubleBody 0 (rest.flatMap encodeDouble ++ [ascii '"'])).map (c :: ·) = some (c :: rest) := by
        rw [ih fun d hd => h d (List.mem_cons_of_mem _ hd)]
        rfl
      have hShort : ∀ n : Fin 256, encodeDouble (UInt8.ofFin n) = [ascii '\\', UInt8.ofFin n] →
          Php.shortEscapes.lookup (UInt8.ofFin n) = some (UInt8.ofFin n) := by
        decide +kernel
      rw [List.flatMap_cons, List.append_assoc]
      rcases encodesByte_encodeDouble (h c List.mem_cons_self) with hEncode | ⟨hEncode, hBackslash, hQuote⟩
      · have hEscape : Php.escapeSequence ([c] ++ (rest.flatMap encodeDouble ++ [ascii '"'])) = some ([c], 1) := by
          have hLookup : Php.shortEscapes.lookup c = some c := hShort c.toFin hEncode
          rw [List.singleton_append, Php.escapeSequence, hLookup]
        rw [hEncode]
        exact (Php.doubleBody_escape hEscape).trans hRest
      · have hDollar : c ≠ Php.dollar := by
          rintro rfl
          exact absurd hEncode (by decide)
        rw [hEncode]
        exact (Php.doubleBody_plain hQuote hBackslash hDollar (head_encoded rest)).trans hRest

/-- A value comes back from its literal exactly where this one has single quotes or it has no
control byte. -/
theorem roundTrips_iff {q : UInt8} (hq : IsQuote q) (value : Bytes) :
    RoundTrips value q ↔ (q = ascii '"' → ∀ c ∈ value, isControl c = false) := by
  constructor
  · rintro h rfl c hMem
    cases hControl : isControl c with
    | false => rfl
    | true => exact absurd (h.panel _ rfl) (read_control hMem hControl)
  · intro h
    rcases hq with rfl | rfl
    · constructor
      · intro encoded hEncoded
        rw [encodePhpLiteralValue, if_pos rfl, Option.map_eq_some_iff] at hEncoded
        obtain ⟨outs, hOuts, rfl⟩ := hEncoded
        obtain ⟨hBody, hUnescape⟩ := encodeSingle_spec hOuts
        rw [parsePhpStringLiteral_quotedText (.inl rfl) hBody, hUnescape]
      · intro encoded hEncoded
        rw [encodePhpLiteralValue, if_pos rfl, Option.map_eq_some_iff] at hEncoded
        obtain ⟨outs, hOuts, rfl⟩ := hEncoded
        exact singleBody_encoded hOuts
    · constructor
      · intro encoded hEncoded
        obtain ⟨hBody, hUnescape⟩ := encodePhpLiteralValue_spec (.inr rfl) (h rfl) hEncoded
        rw [parsePhpStringLiteral_quotedText (.inr rfl) hBody, hUnescape]
      · intro encoded hEncoded
        obtain rfl := Option.some.inj hEncoded
        exact doubleBody_encoded (h rfl)

theorem roundTrips_iff_sample :
    IsQuote (ascii '"') ∧ (RoundTrips (bytes "a\"$b") (ascii '"') ↔
      (ascii '"' = ascii '"' → ∀ c ∈ bytes "a\"$b", isControl c = false)) :=
  ⟨.inr rfl, roundTrips_iff (.inr rfl) _⟩

/-- The newline that PHP reads from `\n`, the panel reads as a letter. -/
theorem newline_not_roundTrips : ¬RoundTrips [ascii '\n'] (ascii '"') := by
  intro h
  exact absurd (h.panel _ rfl) (by decide)

end ContainerCP.Wordpress
