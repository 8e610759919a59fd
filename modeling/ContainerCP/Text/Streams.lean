import ContainerCP.Text.Lines

/-! Texts read from the front: up to a byte, up to a pattern, a line or a word at a
time. -/
namespace ContainerCP

/-- The text before the first occurrence of a byte, and the text behind it. -/
def cutAt (separator : UInt8) : Bytes → Option (Bytes × Bytes)
  | [] => none
  | c :: rest => if c = separator then some ([], rest) else (cutAt separator rest).map fun cut => (c :: cut.1, cut.2)

/-- The text before the first occurrence of a pattern, and the text behind it. -/
def cutAtText (pattern : Bytes) : Bytes → Option (Bytes × Bytes)
  | [] => if pattern = [] then some ([], []) else none
  | c :: rest =>
      if pattern.isPrefixOf (c :: rest) then some ([], (c :: rest).drop pattern.length)
      else (cutAtText pattern rest).map fun cut => (c :: cut.1, cut.2)

/-- `std::getline`: a line, and what is left of the stream. -/
def getline (separator : UInt8) (stream : Bytes) : Option (Bytes × Bytes) :=
  if stream = [] then none
  else some (stream.takeWhile (· ≠ separator), (stream.dropWhile (· ≠ separator)).tail)

/-- The operator `>>` for a string: it skips white space, and stops at the next. -/
def word (stream : Bytes) : Bytes × Bytes :=
  ((stream.dropWhile isSpace).takeWhile (!isSpace ·), (stream.dropWhile isSpace).dropWhile (!isSpace ·))

/-- A text that `>>` reads whole. -/
def IsWord (text : Bytes) : Prop := text ≠ [] ∧ ∀ c ∈ text, isSpace c = false

instance (text : Bytes) : Decidable (IsWord text) := inferInstanceAs (Decidable (_ ∧ _))

/-- Nothing, or white space at the front. -/
def StartsBlank (text : Bytes) : Prop := ∀ c ∈ text.head?, isSpace c = true

theorem cutAt_eq_some {separator : UInt8} {text before behind : Bytes} :
    cutAt separator text = some (before, behind) ↔ text = before ++ separator :: behind ∧ separator ∉ before := by
  induction text generalizing before with
  | nil => simp [cutAt]
  | cons c rest ih =>
      rw [cutAt]
      split
      · next hSeparator =>
        subst hSeparator
        constructor
        · intro h
          obtain ⟨rfl, rfl⟩ := Prod.mk.inj (Option.some.inj h)
          exact ⟨rfl, List.not_mem_nil⟩
        · rintro ⟨hText, hNot⟩
          cases before with
          | nil => simp_all
          | cons d before => simp_all
      · next hOther =>
        cases before with
        | nil => simp [hOther]
        | cons d before =>
            simp only [Option.map_eq_some_iff, Prod.exists, Prod.mk.injEq, List.cons.injEq, List.cons_append,
              List.mem_cons, not_or]
            constructor
            · rintro ⟨first, second, hCut, ⟨rfl, rfl⟩, rfl⟩
              obtain ⟨hRest, hNot⟩ := ih.mp hCut
              exact ⟨⟨rfl, hRest⟩, Ne.symm hOther, hNot⟩
            · rintro ⟨⟨rfl, hRest⟩, -, hNot⟩
              exact ⟨before, behind, ih.mpr ⟨hRest, hNot⟩, ⟨rfl, rfl⟩, rfl⟩

theorem cutAt_append {separator : UInt8} {front : Bytes} (h : separator ∉ front) (text : Bytes) :
    cutAt separator (front ++ text) = (cutAt separator text).map fun cut => (front ++ cut.1, cut.2) := by
  induction front with
  | nil => simp
  | cons c rest ih =>
      have hOther : c ≠ separator := fun hEq => h (hEq ▸ List.mem_cons_self)
      rw [List.cons_append, cutAt, if_neg hOther, ih fun hMem => h (List.mem_cons_of_mem _ hMem), Option.map_map]
      rfl

theorem cutAtText_eq_some {pattern text before behind : Bytes} (h : cutAtText pattern text = some (before, behind)) :
    text = before ++ (pattern ++ behind) := by
  induction text generalizing before with
  | nil =>
      rw [cutAtText] at h
      split at h
      · next hPattern =>
        obtain ⟨rfl, rfl⟩ := Prod.mk.inj (Option.some.inj h)
        simp [hPattern]
      · cases h
  | cons c rest ih =>
      rw [cutAtText] at h
      split at h
      · next hPrefix =>
        obtain ⟨rfl, rfl⟩ := Prod.mk.inj (Option.some.inj h)
        exact (List.prefix_iff_eq_append.mp (List.isPrefixOf_iff_prefix.mp hPrefix)).symm
      · obtain ⟨cut, hCut, hEq⟩ := Option.map_eq_some_iff.mp h
        obtain ⟨rfl, rfl⟩ := Prod.mk.inj hEq
        rw [ih hCut, List.cons_append]

theorem cutAtText_self {pattern : Bytes} (h : pattern ≠ []) (rest : Bytes) :
    cutAtText pattern (pattern ++ rest) = some ([], rest) := by
  have hPrefix : pattern.isPrefixOf (pattern ++ rest) = true :=
    List.isPrefixOf_iff_prefix.mpr (List.prefix_append _ _)
  have hDrop : (pattern ++ rest).drop pattern.length = rest := List.drop_left
  obtain ⟨c, tail, rfl⟩ := List.exists_cons_of_ne_nil h
  rw [List.cons_append] at hPrefix hDrop ⊢
  rw [cutAtText, if_pos hPrefix, hDrop]

theorem isSome_cutAtText (pattern front behind : Bytes) : (cutAtText pattern (front ++ (pattern ++ behind))).isSome = true := by
  induction front with
  | nil =>
      by_cases hPattern : pattern = []
      · subst hPattern
        cases behind <;> rfl
      · rw [List.nil_append, cutAtText_self hPattern]
        rfl
  | cons c front ih =>
      rw [List.cons_append, cutAtText]
      split
      · rfl
      · rwa [Option.isSome_map]

theorem cutAtText_eq_none {pattern text : Bytes} {c : UInt8} (hPattern : c ∈ pattern) (hText : c ∉ text) :
    cutAtText pattern text = none := by
  cases hCut : cutAtText pattern text with
  | none => rfl
  | some cut =>
      apply absurd _ hText
      rw [cutAtText_eq_some hCut]
      exact List.mem_append_right _ (List.mem_append_left _ hPattern)

/-- A text without the first byte of the pattern is passed over. -/
theorem cutAtText_append {c : UInt8} {pattern front : Bytes} (h : c ∉ front) (text : Bytes) :
    cutAtText (c :: pattern) (front ++ text) =
      (cutAtText (c :: pattern) text).map fun cut => (front ++ cut.1, cut.2) := by
  induction front with
  | nil => simp
  | cons d front ih =>
      have hOther : ¬c = d := fun hEq => h (hEq ▸ List.mem_cons_self)
      have hPrefix : ¬(c :: pattern).isPrefixOf (d :: (front ++ text)) = true := by
        simp [List.isPrefixOf_iff_prefix, List.cons_prefix_cons, hOther]
      rw [List.cons_append, cutAtText, if_neg hPrefix, ih fun hMem => h (List.mem_cons_of_mem _ hMem), Option.map_map]
      rfl

theorem takeWhile_of_startsBlank {text : Bytes} (h : StartsBlank text) : text.takeWhile (!isSpace ·) = [] := by
  cases text with
  | nil => rfl
  | cons c rest =>
      have hBlank : isSpace c = true := h c rfl
      simp [hBlank]

theorem dropWhile_of_startsBlank {text : Bytes} (h : StartsBlank text) : text.dropWhile (!isSpace ·) = text := by
  cases text with
  | nil => rfl
  | cons c rest =>
      have hBlank : isSpace c = true := h c rfl
      simp [hBlank]

/-- A word is read up to the white space behind it. -/
theorem word_append {text rest : Bytes} (hWord : IsWord text) (hRest : StartsBlank rest) :
    word (text ++ rest) = (text, rest) := by
  have hFront : (text ++ rest).dropWhile isSpace = text ++ rest := by
    obtain ⟨c, tail, rfl⟩ := List.exists_cons_of_ne_nil hWord.1
    exact dropWhile_eq_self_of_head (hWord.2 c List.mem_cons_self)
  have hGraphic : ∀ c ∈ text, (!isSpace c) = true := by
    intro c hc
    rw [hWord.2 c hc]
    rfl
  rw [word, hFront, List.takeWhile_append_of_pos hGraphic, List.dropWhile_append_of_pos hGraphic,
    takeWhile_of_startsBlank hRest, dropWhile_of_startsBlank hRest, List.append_nil]

theorem word_blank {c : UInt8} (h : isSpace c = true) (stream : Bytes) : word (c :: stream) = word stream := by
  rw [word, word, List.dropWhile_cons_of_pos h]

theorem IsWord.newline_notMem {text : Bytes} (h : IsWord text) : newline ∉ text := by
  intro hMem
  exact absurd (h.2 _ hMem) (by decide)

/-- The two words at the front of the first line of a text. -/
theorem getline_words {first second rest : Bytes} (hFirst : IsWord first) (hSecond : IsWord second)
    (hRest : StartsBlank rest) :
    ∃ line behind, getline newline (first ++ ascii ' ' :: (second ++ rest)) = some (line, behind) ∧
      word line = (first, (word line).2) ∧ (word (word line).2).1 = second := by
  have hPlain : ∀ text : Bytes, IsWord text → ∀ c ∈ text, decide (c ≠ newline) = true := by
    intro text hWord c hc
    exact decide_eq_true fun hEq => hWord.newline_notMem (hEq ▸ hc)
  have hBlank : StartsBlank (rest.takeWhile (· ≠ newline)) := by
    cases rest with
    | nil => exact hRest
    | cons c rest =>
        intro d hd
        by_cases hLine : c = newline
        · simp [hLine] at hd
        · rw [List.takeWhile_cons_of_pos (by simpa using hLine), List.head?_cons] at hd
          exact hRest d hd
  have hLine : (first ++ ascii ' ' :: (second ++ rest)).takeWhile (· ≠ newline) =
      first ++ ascii ' ' :: (second ++ rest.takeWhile (· ≠ newline)) := by
    rw [List.takeWhile_append_of_pos (hPlain first hFirst), List.takeWhile_cons_of_pos (by decide),
      List.takeWhile_append_of_pos (hPlain second hSecond)]
  have hSpace : StartsBlank (ascii ' ' :: (second ++ rest.takeWhile (· ≠ newline))) := by
    intro c hc
    obtain rfl : ascii ' ' = c := by simpa using hc
    decide
  have hWord := word_append hFirst hSpace
  refine ⟨_, _, if_neg ?_, ?_, ?_⟩
  · simp
  · rw [hLine, hWord]
  · rw [hLine, hWord, word_blank (by decide), word_append hSecond hBlank]

end ContainerCP
