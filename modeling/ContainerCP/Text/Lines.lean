import ContainerCP.Text.Bytes
import Mathlib.Algebra.GroupWithZero.Nat

/-! Texts cut at a separator: into all pieces, and into the pieces that repeated
calls of `std::getline` give. -/
namespace ContainerCP

def newline : UInt8 := ascii '\n'

def pipe : UInt8 := ascii '|'

/-- Without the empty piece behind a last separator, which `std::getline` does
not give any more. -/
def dropEmptyLast (pieces : List Bytes) : List Bytes :=
  if pieces.getLast? = some [] then pieces.dropLast else pieces

/-- What `std::getline` gives until the stream is at its end. -/
def getlines (separator : UInt8) (text : Bytes) : List Bytes := dropEmptyLast (text.splitOn separator)

theorem dropEmptyLast_concat_nil (pieces : List Bytes) : dropEmptyLast (pieces ++ [[]]) = pieces := by
  simp [dropEmptyLast]

theorem dropEmptyLast_concat {last : Bytes} (pieces : List Bytes) (h : last ≠ []) :
    dropEmptyLast (pieces ++ [last]) = pieces ++ [last] := by
  simp [dropEmptyLast, h]

theorem dropEmptyLast_cons (first : Bytes) {pieces : List Bytes} (h : pieces ≠ []) :
    dropEmptyLast (first :: pieces) = first :: dropEmptyLast pieces := by
  obtain ⟨second, rest, rfl⟩ := List.exists_cons_of_ne_nil h
  rw [dropEmptyLast, dropEmptyLast, List.getLast?_cons_cons]
  split_ifs <;> rfl

theorem length_le_dropEmptyLast (pieces : List Bytes) : pieces.length ≤ (dropEmptyLast pieces).length + 1 := by
  rw [dropEmptyLast]
  split
  · rw [List.length_dropLast]
    omega
  · omega

theorem length_getlines_le (separator : UInt8) (text : Bytes) :
    (getlines separator text).length ≤ (text.splitOn separator).length := by
  rw [getlines, dropEmptyLast]
  split
  · rw [List.length_dropLast]
    exact Nat.sub_le _ _
  · exact Nat.le_refl _

theorem getlines_intercalate {separator : UInt8} {pieces : List Bytes} (hNe : pieces ≠ [])
    (h : ∀ piece ∈ pieces, separator ∉ piece) :
    getlines separator ([separator].intercalate pieces) = dropEmptyLast pieces := by
  rw [getlines, List.splitOn_intercalate separator h hNe]

theorem notMem_of_mem_splitOn {separator : UInt8} {text piece : Bytes} (h : piece ∈ text.splitOn separator) : separator ∉ piece := by
  induction text generalizing piece with
  | nil =>
      rw [List.splitOn_nil, List.mem_singleton] at h
      rw [h]
      exact List.not_mem_nil
  | cons c rest ih =>
      rw [List.splitOn_cons_eq_if_modifyHead] at h
      split at h
      · rcases List.mem_cons.mp h with rfl | hRest
        · exact List.not_mem_nil
        · exact ih hRest
      · rename_i hOther
        obtain ⟨first, others, hPieces⟩ := List.exists_cons_of_ne_nil (List.splitOn_ne_nil separator rest)
        rw [hPieces, List.modifyHead_cons, List.mem_cons] at h
        rcases h with rfl | hRest
        · have hFirst : separator ∉ first := ih (by rw [hPieces]; exact List.mem_cons_self)
          rw [List.mem_cons, not_or]
          exact ⟨fun hSame => hOther (by rw [hSame, beq_self_eq_true]), hFirst⟩
        · exact ih (by rw [hPieces]; exact List.mem_cons_of_mem _ hRest)

theorem isInfix_of_mem_splitOn {separator : UInt8} {text piece : Bytes} (h : piece ∈ text.splitOn separator) :
    piece <:+: text := by
  obtain ⟨before, behind, hSplit⟩ := List.append_of_mem h
  have hText : [separator].intercalate (before ++ piece :: behind) = text := by
    rw [← hSplit, List.intercalate_splitOn]
  rw [← hText]
  clear hText hSplit h
  induction before with
  | nil =>
      cases behind with
      | nil => simp
      | cons next behind => exact ⟨[], separator :: [separator].intercalate (next :: behind), by simp [List.intercalate]⟩
  | cons first before ih =>
      have hInfix : [separator].intercalate (before ++ piece :: behind) <:+:
          [separator].intercalate (first :: (before ++ piece :: behind)) := by
        obtain ⟨second, others, hRest⟩ := List.exists_cons_of_ne_nil
          (show before ++ piece :: behind ≠ [] by simp)
        rw [hRest]
        exact ⟨first ++ [separator], [], by simp [List.intercalate]⟩
      exact ih.trans hInfix

theorem mem_of_mem_intercalate {separator c : UInt8} {pieces : List Bytes}
    (h : c ∈ [separator].intercalate pieces) : c = separator ∨ ∃ piece ∈ pieces, c ∈ piece := by
  induction pieces with
  | nil => exact absurd h List.not_mem_nil
  | cons first rest ih =>
      cases rest with
      | nil => exact .inr ⟨first, List.mem_cons_self, by simpa using h⟩
      | cons second others =>
          have hSplit : c ∈ first ∨ c = separator ∨ c ∈ [separator].intercalate (second :: others) := by
            simpa [List.intercalate] using h
          rcases hSplit with hFirst | hSeparator | hRest
          · exact .inr ⟨first, List.mem_cons_self, hFirst⟩
          · exact .inl hSeparator
          · exact (ih hRest).imp_right fun ⟨piece, hPiece, hMem⟩ => ⟨piece, List.mem_cons_of_mem _ hPiece, hMem⟩

/-- Counting the separators counts the pieces. -/
theorem length_splitOn (separator : UInt8) (text : Bytes) :
    (text.splitOn separator).length = text.count separator + 1 := by
  induction text with
  | nil => simp
  | cons c rest ih =>
      rw [List.splitOn_cons_eq_if_modifyHead, List.count_cons]
      split <;> simp_all

theorem intercalate_concat (separator : UInt8) (lines : List Bytes) (last : Bytes) :
    [separator].intercalate (lines ++ [last]) = lines.flatMap (· ++ [separator]) ++ last := by
  induction lines with
  | nil => simp [List.intercalate]
  | cons line rest ih =>
      have hNe : rest ++ [last] ≠ [] := by simp
      obtain ⟨first, others, hRest⟩ := List.exists_cons_of_ne_nil hNe
      rw [List.cons_append, List.flatMap_cons, List.append_assoc, ← ih, hRest]
      simp [List.intercalate, List.append_assoc]

theorem flatMap_separator_eq (separator : UInt8) {lines : List Bytes} (h : lines ≠ []) :
    lines.flatMap (· ++ [separator]) = [separator].intercalate lines ++ [separator] := by
  obtain ⟨others, last, rfl⟩ := (List.eq_nil_or_concat' lines).resolve_left h
  rw [intercalate_concat, List.flatMap_append, List.flatMap_singleton, List.append_assoc]

theorem count_flatMap_separator (separator : UInt8) (lines : List Bytes) :
    (lines.flatMap (· ++ [separator])).count separator = (lines.map (List.count separator)).sum + lines.length := by
  induction lines with
  | nil => rfl
  | cons line rest ih =>
      simp only [List.flatMap_cons, List.count_append, ih, List.map_cons, List.sum_cons, List.length_cons, List.count_singleton_self]
      omega

/-- Pieces without the separator are counted by the separators behind them. -/
theorem count_flatMap_of_notMem {separator : UInt8} {lines : List Bytes} (h : ∀ line ∈ lines, separator ∉ line) :
    (lines.flatMap (· ++ [separator])).count separator = lines.length := by
  have hNone : (lines.map (List.count separator)).sum = 0 :=
    List.sum_eq_zero_iff_forall_eq_nat.mpr fun n hn => by
      obtain ⟨line, hLine, rfl⟩ := List.mem_map.mp hn
      exact List.count_eq_zero.mpr (h line hLine)
  rw [count_flatMap_separator, hNone, Nat.zero_add]

/-- Lines that are each ended by the separator are read back. -/
theorem getlines_flatMap {separator : UInt8} {lines : List Bytes} (h : ∀ line ∈ lines, separator ∉ line) :
    getlines separator (lines.flatMap (· ++ [separator])) = lines := by
  rw [← List.append_nil (lines.flatMap _), ← intercalate_concat, getlines_intercalate (by simp), dropEmptyLast_concat_nil]
  intro line hLine
  rcases List.mem_append.mp hLine with hLine | hLine
  · exact h line hLine
  · rw [List.mem_singleton.mp hLine]
    exact List.not_mem_nil

/-- A text that does not end with the separator has no empty last piece. -/
theorem getlines_eq_splitOn {separator c : UInt8} (text : Bytes) (h : c ≠ separator) :
    getlines separator (text ++ [c]) = (text ++ [c]).splitOn separator := by
  rw [getlines, dropEmptyLast, if_neg]
  intro hLast
  obtain ⟨front, hFront⟩ := List.getLast?_eq_some_iff.mp hLast
  have hText : front.flatMap (· ++ [separator]) = text ++ [c] := by
    have hJoined : [separator].intercalate ((text ++ [c]).splitOn separator) = text ++ [c] := List.intercalate_splitOn separator
    rwa [hFront, intercalate_concat, List.append_nil] at hJoined
  rcases List.eq_nil_or_concat front with rfl | ⟨others, last, rfl⟩
  · simp at hText
  · rw [List.concat_eq_append, List.flatMap_append, List.flatMap_singleton, ← List.append_assoc] at hText
    exact h (List.cons.inj (List.append_inj' hText rfl).2).1.symm

/-- A text that does not end with the separator has no empty piece behind it. -/
theorem splitOn_getLast {sep : UInt8} {text : Bytes} (hNe : text ≠ []) (hLast : text.getLast? ≠ some sep) :
    (text.splitOn sep).getLast? ≠ some [] := by
  obtain ⟨front, c, rfl⟩ := (List.eq_nil_or_concat' text).resolve_left hNe
  have hOther : c ≠ sep := by simpa using hLast
  intro hEmpty
  have hSame := getlines_eq_splitOn front hOther
  rw [getlines, dropEmptyLast, if_pos hEmpty] at hSame
  have hLength := congrArg List.length hSame
  have hPos := List.length_pos_of_ne_nil (List.splitOn_ne_nil sep (front ++ [c]))
  rw [List.length_dropLast] at hLength
  omega

/-- When as many pieces come back as were put together, they are the same ones. -/
theorem getlines_of_length {separator c : UInt8} (hc : c ≠ separator) (front : List Bytes) (last : Bytes)
    (h : (getlines separator ([separator].intercalate (front ++ [last]) ++ [c])).length = front.length + 1) :
    getlines separator ([separator].intercalate (front ++ [last]) ++ [c]) = front ++ [last ++ [c]] := by
  have hText : [separator].intercalate (front ++ [last]) ++ [c] = [separator].intercalate (front ++ [last ++ [c]]) := by
    rw [intercalate_concat, intercalate_concat, List.append_assoc]
  rw [getlines_eq_splitOn _ hc, length_splitOn, intercalate_concat, List.count_append, List.count_append,
    count_flatMap_separator] at h
  have hNone : ∀ piece ∈ front ++ [last ++ [c]], separator ∉ piece := by
    intro piece hPiece
    rw [← List.count_eq_zero]
    rcases List.mem_append.mp hPiece with hFront | hLast
    · have hSum : (front.map (List.count separator)).sum = 0 := by omega
      exact List.sum_eq_zero_iff_forall_eq_nat.mp hSum _ (List.mem_map_of_mem hFront)
    · rw [List.mem_singleton.mp hLast, List.count_append]
      omega
  rw [hText, getlines_intercalate (by simp) hNone, dropEmptyLast_concat front (by simp)]

/-- No line that is read holds the separator. -/
theorem notMem_of_mem_getlines {separator : UInt8} {text line : Bytes} (h : line ∈ getlines separator text) : separator ∉ line := by
  rw [getlines, dropEmptyLast] at h
  split at h
  · exact notMem_of_mem_splitOn (List.dropLast_subset _ h)
  · exact notMem_of_mem_splitOn h

end ContainerCP
