import ContainerCP.Text.Streams

/-! Search in a text of lines for the end of a line: the pattern is the end of a line with
its newline, so it is found in a line or not at all. -/
namespace ContainerCP

/-- The lines of a text, each with its end. -/
def unlines (lines : List Bytes) : Bytes := lines.flatMap (· ++ [newline])

/-- The text before the last occurrence of a pattern, and the text behind it. -/
def cutAtLastText (pattern text : Bytes) : Option (Bytes × Bytes) :=
  (cutAtText pattern.reverse text.reverse).map fun cut => (cut.2.reverse, cut.1.reverse)

/-- How often a pattern stands in a text. -/
def occurrences (pattern : Bytes) : Bytes → Nat
  | [] => 0
  | c :: rest => (if pattern.isPrefixOf (c :: rest) then 1 else 0) + occurrences pattern rest

theorem unlines_cons (line : Bytes) (lines : List Bytes) : unlines (line :: lines) = line ++ newline :: unlines lines := by
  simp [unlines]

theorem unlines_append (first second : List Bytes) : unlines (first ++ second) = unlines first ++ unlines second :=
  List.flatMap_append

/-- A text of whole lines. -/
theorem exists_lines {text : Bytes} (h : text = [] ∨ text.getLast? = some newline) :
    ∃ lines, text = unlines lines ∧ ∀ line ∈ lines, newline ∉ line := by
  induction text with
  | nil => exact ⟨[], rfl, by simp⟩
  | cons c rest ih =>
      have hLast : (c :: rest).getLast? = some newline := h.resolve_left (List.cons_ne_nil _ _)
      cases rest with
      | nil =>
          obtain rfl : c = newline := by simpa using hLast
          exact ⟨[[]], rfl, by simp⟩
      | cons d rest =>
          rw [List.getLast?_cons_cons] at hLast
          obtain ⟨lines, hText, hLines⟩ := ih (Or.inr hLast)
          by_cases hNewline : c = newline
          · exact ⟨[] :: lines, by rw [unlines_cons, ← hText, hNewline, List.nil_append],
              List.forall_mem_cons.mpr ⟨List.not_mem_nil, hLines⟩⟩
          · cases lines with
            | nil => cases hText
            | cons first lines =>
                obtain ⟨hFirst, hOthers⟩ := List.forall_mem_cons.mp hLines
                refine ⟨(c :: first) :: lines, by rw [hText, unlines_cons, unlines_cons, List.cons_append], ?_⟩
                refine List.forall_mem_cons.mpr ⟨?_, hOthers⟩
                intro hMem
                rcases List.mem_cons.mp hMem with hEq | hMem
                · exact hNewline hEq.symm
                · exact hFirst hMem

section Search

variable {body line : Bytes}

/-- In front of its newline a line starts with the pattern only if it is its whole text. -/
theorem isPrefix_line (hBody : newline ∉ body) (hLine : newline ∉ line) (rest : Bytes) :
    body ++ [newline] <+: line ++ newline :: rest ↔ body = line := by
  constructor
  · intro h
    obtain ⟨behind, hText⟩ := h
    rw [List.append_assoc, List.singleton_append] at hText
    have hBodyCut := cutAt_append hBody (newline :: behind)
    have hLineCut := cutAt_append hLine (newline :: rest)
    rw [hText, hLineCut] at hBodyCut
    simpa [cutAt] using (congrArg (Option.map Prod.fst) hBodyCut).symm
  · rintro rfl
    exact ⟨rest, by simp⟩

theorem isSuffix_cons_iff {c : UInt8} : body <:+ c :: line ↔ body = c :: line ∨ body <:+ line := List.suffix_cons_iff

/-- The search looks at a line, and goes on behind it. -/
theorem cutAtText_line (hBody : newline ∉ body) (hLine : newline ∉ line) (rest : Bytes) :
    cutAtText (body ++ [newline]) (line ++ newline :: rest) =
      if body <:+ line then some (line.take (line.length - body.length), rest)
      else (cutAtText (body ++ [newline]) rest).map fun cut => (line ++ newline :: cut.1, cut.2) := by
  induction line with
  | nil =>
      rw [List.nil_append, cutAtText]
      by_cases hEmpty : body = []
      · subst hEmpty
        simp
      · have hPrefix : ¬(body ++ [newline]).isPrefixOf (newline :: rest) = true := by
          rw [List.isPrefixOf_iff_prefix]
          exact fun hPrefix => hEmpty ((isPrefix_line hBody List.not_mem_nil rest).mp hPrefix)
        rw [if_neg hPrefix, if_neg (by simpa using hEmpty)]
        rfl
  | cons c line ih =>
      have hTail : newline ∉ line := fun hMem => hLine (List.mem_cons_of_mem _ hMem)
      rw [List.cons_append, cutAtText]
      by_cases hWhole : body = c :: line
      · have hPrefix : (body ++ [newline]).isPrefixOf (c :: (line ++ newline :: rest)) = true :=
          List.isPrefixOf_iff_prefix.mpr ((isPrefix_line hBody hLine rest).mpr hWhole)
        rw [if_pos hPrefix, if_pos (isSuffix_cons_iff.mpr (Or.inl hWhole)), hWhole]
        simp
      · have hPrefix : ¬(body ++ [newline]).isPrefixOf (c :: (line ++ newline :: rest)) = true := by
          rw [List.isPrefixOf_iff_prefix]
          exact fun hPrefix => hWhole ((isPrefix_line hBody hLine rest).mp hPrefix)
        rw [if_neg hPrefix, ih hTail]
        by_cases hSuffix : body <:+ line
        · have hLength := hSuffix.length_le
          rw [if_pos hSuffix, if_pos (isSuffix_cons_iff.mpr (Or.inr hSuffix)), Option.map_some, List.length_cons,
            Nat.succ_sub hLength, List.take_succ_cons]
        · have hCons : ¬body <:+ c :: line := fun h => (isSuffix_cons_iff.mp h).elim hWhole hSuffix
          rw [if_neg hSuffix, if_neg hCons, Option.map_map]
          rfl

theorem occurrences_line (hBody : newline ∉ body) (hLine : newline ∉ line) (rest : Bytes) :
    occurrences (body ++ [newline]) (line ++ newline :: rest) =
      (if body <:+ line then 1 else 0) + occurrences (body ++ [newline]) rest := by
  induction line with
  | nil =>
      have hPrefix : (body ++ [newline]).isPrefixOf (newline :: rest) = true ↔ body = [] := by
        rw [List.isPrefixOf_iff_prefix]
        exact isPrefix_line hBody List.not_mem_nil rest
      simp [occurrences, hPrefix]
  | cons c line ih =>
      have hTail : newline ∉ line := fun hMem => hLine (List.mem_cons_of_mem _ hMem)
      have hPrefix : (body ++ [newline]).isPrefixOf (c :: (line ++ newline :: rest)) = true ↔ body = c :: line := by
        rw [List.isPrefixOf_iff_prefix]
        exact isPrefix_line hBody hLine rest
      rw [List.cons_append, occurrences, ih hTail]
      simp only [hPrefix, isSuffix_cons_iff]
      by_cases hWhole : body = c :: line
      · -- the whole line is no end of its own tail
        have hTailSuffix : ¬body <:+ line := fun h => by
          have hLength := h.length_le
          rw [hWhole, List.length_cons] at hLength
          omega
        rw [if_pos hWhole, if_neg hTailSuffix, if_pos (Or.inl hWhole), Nat.zero_add]
      · rw [if_neg hWhole, Nat.zero_add]
        simp only [hWhole, false_or]

variable {lines : List Bytes}

/-- Lines that do not end with the pattern are passed over. -/
theorem cutAtText_unlines (hBody : newline ∉ body) (hLines : ∀ line ∈ lines, newline ∉ line ∧ ¬body <:+ line)
    (rest : Bytes) : cutAtText (body ++ [newline]) (unlines lines ++ rest) =
      (cutAtText (body ++ [newline]) rest).map fun cut => (unlines lines ++ cut.1, cut.2) := by
  induction lines with
  | nil => simp [unlines]
  | cons line lines ih =>
      obtain ⟨hLine, hEnd⟩ := hLines line List.mem_cons_self
      rw [unlines_cons, List.append_assoc, List.cons_append, cutAtText_line hBody hLine, if_neg hEnd,
        ih fun other hOther => hLines other (List.mem_cons_of_mem _ hOther), Option.map_map]
      simp [Function.comp_def]

/-- The occurrences are the lines that end with the pattern. -/
theorem occurrences_unlines (hBody : newline ∉ body) (hLines : ∀ line ∈ lines, newline ∉ line) (rest : Bytes) :
    occurrences (body ++ [newline]) (unlines lines ++ rest) =
      lines.countP (fun line => decide (body <:+ line)) + occurrences (body ++ [newline]) rest := by
  induction lines with
  | nil => simp [unlines]
  | cons line lines ih =>
      rw [unlines_cons, List.append_assoc, List.cons_append, occurrences_line hBody (hLines line List.mem_cons_self),
        ih fun other hOther => hLines other (List.mem_cons_of_mem _ hOther), List.countP_cons]
      simp only [decide_eq_true_eq]
      omega

/-- Where the pattern is not found, no line ends with it. -/
theorem not_suffix_of_cutAtText (hBody : newline ∉ body) (hLines : ∀ line ∈ lines, newline ∉ line) {rest : Bytes}
    (h : cutAtText (body ++ [newline]) (unlines lines ++ rest) = none) : ∀ line ∈ lines, ¬body <:+ line := by
  induction lines with
  | nil => simp
  | cons line lines ih =>
      rw [unlines_cons, List.append_assoc, List.cons_append,
        cutAtText_line hBody (hLines line List.mem_cons_self)] at h
      split at h
      · cases h
      · next hEnd =>
        rw [Option.map_eq_none_iff] at h
        exact List.forall_mem_cons.mpr ⟨hEnd, ih (fun other hOther => hLines other (List.mem_cons_of_mem _ hOther)) h⟩

end Search

/-- The last occurrence of a pattern, where only its own text and a text without its last
byte follow. -/
theorem cutAtLastText_append {c : UInt8} {pattern front behind : Bytes} (h : c ∉ behind) :
    cutAtLastText (pattern ++ [c]) (front ++ (pattern ++ c :: behind)) = some (front, behind) := by
  have hBehind : c ∉ behind.reverse := by simpa using h
  have hText : (front ++ (pattern ++ c :: behind)).reverse =
      behind.reverse ++ ((c :: pattern.reverse) ++ front.reverse) := by
    simp
  have hPattern : (pattern ++ [c]).reverse = c :: pattern.reverse := by simp
  rw [cutAtLastText, hText, hPattern, cutAtText_append hBehind, cutAtText_self (List.cons_ne_nil _ _)]
  simp

end ContainerCP
