import ContainerCP.Text.Json
import ContainerCP.Text.Streams

/-! Members of a JSON object found by a search for their names in the text, where the value
is taken to end at the next quote. -/
namespace ContainerCP.Json

/-- The text of a member up to its value. -/
def memberStart (name : Bytes) : Bytes := quote :: (name ++ bytes "\":\"")

/-- The text from the value of a member on. -/
def findMember (name body : Bytes) : Option Bytes := (cutAtText (memberStart name) body).map Prod.snd

/-- The text up to the next quote. -/
def readValue (start : Bytes) : Option Bytes := (cutAt quote start).map Prod.fst

/-- An object with two members, as an encoder writes it. -/
def Encoder.object (encoder : Encoder) (first : Bytes × List Char) (second : Bytes × List Char) : Bytes :=
  bytes "\x7b" ++ memberStart first.1 ++ encoder.encode first.2 ++ bytes "\"," ++
    memberStart second.1 ++ encoder.encode second.2 ++ bytes "\"\x7d"

/-- A name that is written as it is, and is not punctuation. -/
def IsName (name : Bytes) : Prop := (∀ byte ∈ name, ¬Special byte) ∧ name ≠ bytes ":" ∧ name ≠ bytes ","

instance (name : Bytes) : Decidable (IsName name) := @instDecidableAnd _ _ (List.decidableBAll _ name) _

theorem readValue_encode (encoder : Encoder) (text : List Char) (rest : Bytes) :
    readValue (encoder.encode text ++ quote :: rest) = some (encoder.upToQuote text) := by
  have hCut : ∀ front : Bytes, ∃ behind, cutAt quote (front ++ quote :: rest) = some (front.takeWhile (· ≠ quote), behind) := by
    intro front
    induction front with
    | nil => exact ⟨rest, by simp [cutAt]⟩
    | cons c front ih =>
        obtain ⟨behind, hBehind⟩ := ih
        by_cases hQuote : c = quote
        · exact ⟨front ++ quote :: rest, by simp [cutAt, hQuote]⟩
        · exact ⟨behind, by simp [cutAt, hQuote, hBehind]⟩
  obtain ⟨behind, hBehind⟩ := hCut (encoder.encode text)
  rw [readValue, hBehind]
  rfl

/-! ## The search -/

/-- The search finds nothing in front of the rest. -/
def Passes (pattern front rest : Bytes) : Prop :=
  cutAtText pattern (front ++ rest) = (cutAtText pattern rest).map fun cut => (front ++ cut.1, cut.2)

theorem Passes.append {pattern front middle rest : Bytes} (hFront : Passes pattern front (middle ++ rest))
    (hMiddle : Passes pattern middle rest) : Passes pattern (front ++ middle) rest := by
  rw [Passes, List.append_assoc, hFront, hMiddle, Option.map_map]
  simp only [Function.comp_def, List.append_assoc]

theorem passes_nil (pattern rest : Bytes) : Passes pattern [] rest := by
  simp [Passes]

theorem passes_singleton {pattern : Bytes} {c : UInt8} {rest : Bytes} (h : ¬pattern <+: c :: rest) :
    Passes pattern [c] rest := by
  have hPattern : pattern.isPrefixOf (c :: rest) = false :=
    Bool.eq_false_iff.mpr fun hPrefix => h (List.isPrefixOf_iff_prefix.mp hPrefix)
  rw [Passes, List.singleton_append, cutAtText, hPattern]
  rfl

/-- A pattern is found behind a text that the search passes. -/
theorem Passes.cutAtText_eq {pattern front rest : Bytes} (h : Passes pattern front (pattern ++ rest))
    (hPattern : pattern ≠ []) : cutAtText pattern (front ++ (pattern ++ rest)) = some (front, rest) := by
  rw [h, cutAtText_self hPattern, Option.map_some, List.append_nil]

variable {name : Bytes}

/-- A member starts with a quote. -/
theorem passes_of_quote_notMem {front : Bytes} (h : quote ∉ front) (rest : Bytes) :
    Passes (memberStart name) front rest := by
  induction front with
  | nil => exact passes_nil _ _
  | cons c front ih =>
      have hHead : ¬memberStart name <+: c :: (front ++ rest) := by
        rw [memberStart, List.cons_prefix_cons]
        rintro ⟨rfl, -⟩
        exact h List.mem_cons_self
      exact (passes_singleton hHead).append (ih fun hMem => h (List.mem_cons_of_mem _ hMem))

/-- A member's name is followed by a quote and a colon. -/
theorem isPrefix_memberStart (hName : IsName name) {rest : Bytes} (h : memberStart name <+: quote :: rest) :
    rest.takeWhile (¬Special ·) = name ∧ bytes "\":" <+: rest.dropWhile (¬Special ·) := by
  rw [memberStart, List.cons_prefix_cons] at h
  obtain ⟨behind, rfl⟩ := h.2
  have hPlain : ∀ byte ∈ name, decide (¬Special byte) = true := fun byte hByte => decide_eq_true (hName.1 byte hByte)
  rw [List.append_assoc, List.takeWhile_append_of_pos hPlain, List.dropWhile_append_of_pos hPlain]
  refine ⟨?_, ?_⟩
  · rw [show bytes "\":\"" = quote :: bytes ":\"" from rfl, List.cons_append, List.takeWhile_cons_of_neg (by decide),
      List.append_nil]
  · rw [show bytes "\":\"" = quote :: bytes ":\"" from rfl, List.cons_append, List.dropWhile_cons_of_neg (by decide)]
    exact ⟨bytes "\"" ++ behind, rfl⟩

/-- The first special byte of a written text and the quote behind it: a backslash, or that
quote. -/
theorem dropWhile_encode (encoder : Encoder) (text : List Char) (rest : Bytes) :
    (∃ tail, (encoder.encode text ++ quote :: rest).dropWhile (¬Special ·) = backslash :: tail) ∨
      (encoder.encode text ++ quote :: rest).dropWhile (¬Special ·) = quote :: rest := by
  induction text with
  | nil => exact .inr (List.dropWhile_cons_of_neg (by decide))
  | cons c text ih =>
      rw [Encoder.encode_cons, List.append_assoc]
      rcases encoder.write_cases c with ⟨-, hPlain⟩ | hEscape
      · have hPass : ∀ byte ∈ encoder.write c, decide (¬Special byte) = true := fun byte hByte =>
          decide_eq_true (hPlain byte hByte)
        rw [List.dropWhile_append_of_pos hPass]
        exact ih
      · obtain ⟨tail, hTail⟩ := List.head?_eq_some_iff.mp hEscape.starts
        rw [hTail, List.cons_append, List.dropWhile_cons_of_neg (by decide)]
        exact .inl ⟨_, rfl⟩

theorem not_memberStart_encode (hName : IsName name) (encoder : Encoder) (text : List Char) (rest : Bytes) :
    ¬memberStart name <+: quote :: (encoder.encode text ++ (bytes "\"," ++ rest)) := by
  intro h
  have hColon := (isPrefix_memberStart hName h).2
  rcases dropWhile_encode encoder text (bytes "," ++ rest) with ⟨tail, hTail⟩ | hEnd
  · rw [show bytes "\"," ++ rest = quote :: (bytes "," ++ rest) from rfl, hTail] at hColon
    exact absurd (List.cons_prefix_cons.mp hColon).1 (by decide)
  · rw [show bytes "\"," ++ rest = quote :: (bytes "," ++ rest) from rfl, hEnd] at hColon
    have hComma := (List.cons_prefix_cons.mp hColon).2
    exact absurd (List.cons_prefix_cons.mp hComma).1 (by decide)

/-- No member starts inside of a value. -/
theorem passes_encode (hName : IsName name) (encoder : Encoder) (text : List Char) (rest : Bytes) :
    Passes (memberStart name) (encoder.encode text) (bytes "\"," ++ rest) := by
  induction text with
  | nil => exact passes_nil _ _
  | cons c text ih =>
      rw [Encoder.encode_cons]
      refine Passes.append ?_ ih
      by_cases hQuote : quote ∈ encoder.write c
      · rcases encoder.write_cases c with ⟨-, hPlain⟩ | hEscape
        · exact absurd (.inl rfl) (hPlain quote hQuote)
        · rw [(hEscape.quoted hQuote).2]
          have hBackslash : quote ∉ [backslash] := by decide
          exact (passes_of_quote_notMem hBackslash _).append
            (passes_singleton (not_memberStart_encode hName encoder text rest))
      · exact passes_of_quote_notMem hQuote _

/-- Nor between two of them: the text behind a quote is not the name. -/
theorem passes_quote (hName : IsName name) {word text : Bytes} (hText : ∃ rest, text = word ++ quote :: rest)
    (hWord : ∀ byte ∈ word, ¬Special byte) (hOther : word ≠ name) : Passes (memberStart name) [quote] text := by
  refine passes_singleton fun h => hOther ?_
  obtain ⟨rest, rfl⟩ := hText
  have hTake := (isPrefix_memberStart hName h).1
  rw [List.takeWhile_append_of_pos fun byte hByte => decide_eq_true (hWord byte hByte),
    List.takeWhile_cons_of_neg (by decide), List.append_nil] at hTake
  exact hTake

theorem findMember_of_passes {front rest : Bytes} (h : Passes (memberStart name) front (memberStart name ++ rest)) :
    findMember name (front ++ (memberStart name ++ rest)) = some rest := by
  rw [findMember, h.cutAtText_eq (List.cons_ne_nil _ _)]
  rfl

variable {first second : Bytes} (encoder : Encoder) (text other : List Char)

theorem findMember_first :
    findMember first (encoder.object (first, text) (second, other)) =
      some (encoder.encode text ++ (bytes "\"," ++ (memberStart second ++ (encoder.encode other ++ bytes "\"\x7d")))) := by
  have hBrace : quote ∉ bytes "\x7b" := by decide
  have hFind := findMember_of_passes (passes_of_quote_notMem hBrace
    (memberStart first ++ (encoder.encode text ++ (bytes "\"," ++ (memberStart second ++ (encoder.encode other ++ bytes "\"\x7d"))))))
  simpa only [Encoder.object, List.append_assoc] using hFind

/-- The first member is passed by: its name, the colon, its value and the comma. -/
theorem findMember_second (hFirst : IsName first) (hSecond : IsName second) (hOther : first ≠ second) :
    findMember second (encoder.object (first, text) (second, other)) =
      some (encoder.encode other ++ bytes "\"\x7d") := by
  have hBrace : quote ∉ bytes "\x7b" := by decide
  have hQuote : quote ∉ first := fun hMem => hFirst.1 quote hMem (.inl rfl)
  have hColon : ∀ byte ∈ bytes ":", ¬Special byte := by
    intro byte hByte
    obtain rfl : byte = ascii ':' := List.mem_singleton.mp hByte
    decide
  have hComma : ∀ byte ∈ bytes ",", ¬Special byte := by
    intro byte hByte
    obtain rfl : byte = ascii ',' := List.mem_singleton.mp hByte
    decide
  have hPasses : Passes (memberStart second)
      (bytes "\x7b" ++ ([quote] ++ (first ++ ([quote] ++ (bytes ":" ++ ([quote] ++ (encoder.encode text ++
        ([quote] ++ bytes ",")))))))) (memberStart second ++ (encoder.encode other ++ bytes "\"\x7d")) := by
    refine (passes_of_quote_notMem hBrace _).append ?_
    refine (passes_quote hSecond ⟨_, List.append_assoc _ _ _⟩ hFirst.1 hOther).append ?_
    refine (passes_of_quote_notMem hQuote _).append ?_
    refine (passes_quote hSecond ⟨_, List.append_assoc _ _ _⟩ hColon hSecond.2.1.symm).append ?_
    refine (passes_of_quote_notMem (by decide) _).append ?_
    refine (passes_singleton ?_).append ?_
    · have hNot := not_memberStart_encode hSecond encoder text
        (memberStart second ++ (encoder.encode other ++ bytes "\"\x7d"))
      rw [List.append_assoc]
      exact hNot
    refine (passes_encode hSecond encoder text _).append ?_
    refine (passes_quote hSecond ⟨_, rfl⟩ hComma hSecond.2.2.symm).append ?_
    exact passes_of_quote_notMem (by decide) _
  have hFind := findMember_of_passes hPasses
  rw [← hFind, Encoder.object]
  congr 1
  simp only [memberStart, List.append_assoc, List.cons_append, List.nil_append]
  rfl

end ContainerCP.Json
