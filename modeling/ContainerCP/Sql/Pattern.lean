import ContainerCP.Text.Bytes

/-! The patterns of MariaDB, as it reads them in the database part of a grant: `%` stands
for any text, `_` for any byte, and a byte behind a backslash for itself. -/
namespace ContainerCP.Sql

inductive PatternItem where
  | byte (c : UInt8)
  | one
  | any
  deriving DecidableEq

/-- The items of a pattern. A backslash at the end stands for itself. -/
def readPattern : Bytes → List PatternItem
  | [] => []
  | [c] => [if c = ascii '_' then .one else if c = ascii '%' then .any else .byte c]
  | c :: d :: rest =>
      if c = ascii '\\' then .byte d :: readPattern rest
      else (if c = ascii '_' then .one else if c = ascii '%' then .any else .byte c) :: readPattern (d :: rest)

def matchesItems : List PatternItem → Bytes → Bool
  | [], text => text.isEmpty
  | .byte _ :: _, [] => false
  | .byte c :: items, d :: text => c = d && matchesItems items text
  | .one :: _, [] => false
  | .one :: items, _ :: text => matchesItems items text
  | .any :: items, text => text.tails.any (matchesItems items)

/-- A text is one of those that a pattern stands for. -/
def matchesPattern (pattern text : Bytes) : Bool := matchesItems (readPattern pattern) text

/-- A pattern whose only special byte is the underscore. -/
def Plain (pattern : Bytes) : Prop := ascii '\\' ∉ pattern ∧ ascii '%' ∉ pattern

theorem readPattern_cons {c : UInt8} {rest : Bytes} (h : Plain (c :: rest)) :
    readPattern (c :: rest) = (if c = ascii '_' then .one else .byte c) :: readPattern rest := by
  have hEscape : c ≠ ascii '\\' := fun hEq => h.1 (hEq ▸ List.mem_cons_self)
  have hAny : c ≠ ascii '%' := fun hEq => h.2 (hEq ▸ List.mem_cons_self)
  cases rest with
  | nil => simp only [readPattern, if_neg hAny]
  | cons d rest => simp only [readPattern, if_neg hEscape, if_neg hAny]

theorem Plain.tail {c : UInt8} {rest : Bytes} (h : Plain (c :: rest)) : Plain rest :=
  ⟨fun hMem => h.1 (List.mem_cons_of_mem _ hMem), fun hMem => h.2 (List.mem_cons_of_mem _ hMem)⟩

/-- A plain pattern stands for the texts of its length that have its bytes, but where it
has an underscore. -/
theorem matchesPattern_iff {pattern : Bytes} (h : Plain pattern) (text : Bytes) :
    matchesPattern pattern text = true ↔ pattern.length = text.length ∧
      ∀ (i : Nat) (c d : UInt8), pattern[i]? = some c → text[i]? = some d → c = ascii '_' ∨ c = d := by
  unfold matchesPattern
  induction pattern generalizing text with
  | nil =>
      cases text with
      | nil => simp [readPattern, matchesItems]
      | cons d text => simp [readPattern, matchesItems]
  | cons c pattern ih =>
      rw [readPattern_cons h]
      cases text with
      | nil =>
          split
          · simp [matchesItems]
          · simp [matchesItems]
      | cons d text =>
          have hSplit : (∀ (i : Nat) (c' d' : UInt8), (c :: pattern)[i]? = some c' → (d :: text)[i]? = some d' →
              c' = ascii '_' ∨ c' = d') ↔ (c = ascii '_' ∨ c = d) ∧
                ∀ (i : Nat) (c' d' : UInt8), pattern[i]? = some c' → text[i]? = some d' → c' = ascii '_' ∨ c' = d' := by
            constructor
            · intro hAll
              exact ⟨hAll 0 c d rfl rfl, fun i c' d' hC hD => hAll (i + 1) c' d' hC hD⟩
            · rintro ⟨hHead, hRest⟩ i c' d' hC hD
              cases i with
              | zero =>
                  cases hC
                  cases hD
                  exact hHead
              | succ i => exact hRest i c' d' hC hD
          rw [hSplit, List.length_cons, List.length_cons, Nat.add_right_cancel_iff]
          by_cases hOne : c = ascii '_'
          · rw [if_pos hOne, matchesItems, ih h.tail text]
            simp [hOne]
          · rw [if_neg hOne, matchesItems, Bool.and_eq_true, decide_eq_true_iff, ih h.tail text]
            simp only [hOne, false_or]
            exact and_left_comm

end ContainerCP.Sql
