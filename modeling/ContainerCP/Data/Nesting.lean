import Mathlib.Data.List.Induction

/-! Brackets in a list: some elements open a level and some close one. A reader that keeps a
stack of what it noted at every opening element has one entry for each level that is open. -/
namespace ContainerCP

/-- What an element does to the level. -/
inductive Turn where
  | opens
  | closes
  | stays
  deriving DecidableEq

variable {α β : Type} {turn : α → Turn} {l : List α} {x : α}

/-- The level behind one more element; `none` once a closing element has closed nothing of the list. -/
def levelStep (turn : α → Turn) : Option Nat → α → Option Nat
  | none, _ => none
  | some n, x =>
      match turn x, n with
      | .opens, n => some (n + 1)
      | .closes, 0 => none
      | .closes, n + 1 => some n
      | .stays, n => some n

/-- The levels that the list opens and does not close again. -/
def level (turn : α → Turn) (l : List α) : Option Nat := l.foldl (levelStep turn) (some 0)

/-- What the list closes, it has opened itself. -/
def ClosesOwn (turn : α → Turn) (l : List α) : Prop := level turn l ≠ none

/-- The list closes all that it opens, and nothing else. -/
def Balanced (turn : α → Turn) (l : List α) : Prop := level turn l = some 0

instance : DecidablePred (ClosesOwn turn) := fun l => inferInstanceAs (Decidable (level turn l ≠ none))

instance : DecidablePred (Balanced turn) := fun l => inferInstanceAs (Decidable (level turn l = some 0))

@[simp] theorem level_nil (turn : α → Turn) : level turn [] = some 0 := rfl

theorem level_concat (turn : α → Turn) (l : List α) (x : α) : level turn (l ++ [x]) = levelStep turn (level turn l) x := by
  rw [level, List.foldl_append]
  rfl

theorem level_opens (h : turn x = .opens) : level turn (l ++ [x]) = (level turn l).map (· + 1) := by
  rw [level_concat]
  cases level turn l <;> simp [levelStep, h]

theorem level_stays (h : turn x = .stays) : level turn (l ++ [x]) = level turn l := by
  rw [level_concat]
  cases level turn l <;> simp [levelStep, h]

theorem level_closes {n : Nat} (h : turn x = .closes) : level turn (l ++ [x]) = some n ↔ level turn l = some (n + 1) := by
  rw [level_concat]
  cases hLevel : level turn l with
  | none => simp [levelStep]
  | some m => cases m <;> simp [levelStep, h]

/-- The level for a reader that passes over a closing element when nothing is open. -/
def groundLevel (turn : α → Turn) (l : List α) : Nat :=
  l.foldl (fun n x =>
    match turn x with
    | .opens => n + 1
    | .closes => n - 1
    | .stays => n) 0

@[simp] theorem groundLevel_nil (turn : α → Turn) : groundLevel turn [] = 0 := rfl

theorem groundLevel_concat (turn : α → Turn) (l : List α) (x : α) :
    groundLevel turn (l ++ [x]) =
      match turn x with
      | .opens => groundLevel turn l + 1
      | .closes => groundLevel turn l - 1
      | .stays => groundLevel turn l := by
  rw [groundLevel, List.foldl_append]
  rfl

/-- An element of a list that has grown at its end is the new last one, or one from before. -/
theorem exists_split_concat {P : List α → α → List α → Prop} :
    (∃ a y b, l ++ [x] = a ++ y :: b ∧ P a y b) ↔ P l x [] ∨ ∃ a y b, l = a ++ y :: b ∧ P a y (b ++ [x]) := by
  constructor
  · rintro ⟨a, y, b, hSplit, h⟩
    rcases b.eq_nil_or_concat with rfl | ⟨c, z, rfl⟩
    · obtain ⟨rfl, hLast⟩ := List.append_inj' hSplit rfl
      cases hLast
      exact .inl h
    · rw [List.concat_eq_append, ← List.cons_append, ← List.append_assoc] at hSplit
      obtain ⟨hFront, hLast⟩ := List.append_inj' hSplit rfl
      cases hLast
      rw [List.concat_eq_append] at h
      exact .inr ⟨a, y, c, hFront, h⟩
  · rintro (h | ⟨a, y, b, rfl, h⟩)
    · exact ⟨l, x, [], rfl, h⟩
    · exact ⟨a, y, b ++ [x], by simp, h⟩

theorem forall_split_concat {P : List α → α → List α → Prop} :
    (∀ a y b, l ++ [x] = a ++ y :: b → P a y b) ↔ P l x [] ∧ ∀ a y b, l = a ++ y :: b → P a y (b ++ [x]) := by
  have h := not_congr (exists_split_concat (l := l) (x := x) (P := fun a y b => ¬ P a y b))
  simpa only [not_exists, not_and, not_not, not_or] using h

/-- A stack that notes the value of what has been read whenever a level opens, and forgets the
last note when one closes. -/
structure NotesLevels (turn : α → Turn) (value : List α → β) (stack : List α → List β) : Prop where
  nil : stack [] = []
  opens : ∀ l x, turn x = .opens → stack (l ++ [x]) = value l :: stack l
  closes : ∀ l x, turn x = .closes → stack (l ++ [x]) = (stack l).tail
  stays : ∀ l x, turn x = .stays → stack (l ++ [x]) = stack l

variable {value : List α → β} {stack : List α → List β}

/-- An entry of the stack stands for an opening element, and above it lie as many as are open behind that. -/
theorem NotesLevels.getElem?_eq_some_iff (hNotes : NotesLevels turn value stack) (k : Nat) (v : β) :
    (stack l)[k]? = some v ↔
      ∃ a y b, l = a ++ y :: b ∧ turn y = .opens ∧ value a = v ∧ level turn b = some k := by
  induction l using List.reverseRecOn generalizing k with
  | nil => simp [hNotes.nil]
  | append_singleton l x ih =>
      rw [exists_split_concat]
      cases hTurn : turn x with
      | opens =>
          rw [hNotes.opens l x hTurn]
          cases k with
          | zero => simp [level_opens hTurn]
          | succ k => simp [level_opens hTurn, ih]
      | closes =>
          rw [hNotes.closes l x hTurn, List.getElem?_tail, ih]
          simp [level_closes hTurn]
      | stays =>
          rw [hNotes.stays l x hTurn, ih]
          simp [level_stays hTurn]

theorem NotesLevels.mem_iff (hNotes : NotesLevels turn value stack) {v : β} :
    v ∈ stack l ↔ ∃ a y b, l = a ++ y :: b ∧ turn y = .opens ∧ value a = v ∧ ClosesOwn turn b := by
  simp only [List.mem_iff_getElem?, hNotes.getElem?_eq_some_iff, ClosesOwn, ne_eq, Option.ne_none_iff_exists']
  constructor
  · rintro ⟨k, a, y, b, hSplit, hOpens, hValue, hLevel⟩
    exact ⟨a, y, b, hSplit, hOpens, hValue, k, hLevel⟩
  · rintro ⟨a, y, b, hSplit, hOpens, hValue, k, hLevel⟩
    exact ⟨k, a, y, b, hSplit, hOpens, hValue, hLevel⟩

end ContainerCP
