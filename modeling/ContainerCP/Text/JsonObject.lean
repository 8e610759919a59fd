import ContainerCP.Text.JsonGrammar

/-! Objects of any JSON text: the names of their fields, and their values as they are written. -/
namespace ContainerCP.Json

/-! ## Strings and numbers -/

/-- `\u` and four digits. -/
inductive UnitEscape : Nat → Bytes → Bytes → Prop
  | mk {x y z w : UInt8} {i j k l : Nat} (rest : Bytes) (hX : HexDigit x i) (hY : HexDigit y j) (hZ : HexDigit z k)
      (hW : HexDigit w l) :
      UnitEscape (((i * 16 + j) * 16 + k) * 16 + l) (backslash :: ascii 'u' :: x :: y :: z :: w :: rest) rest

/-- A piece of a string, or the two escapes of one character. -/
inductive Letter : Bytes → Bytes → Bytes → Prop
  | piece {front text rest : Bytes} (h : Piece front text rest) : Letter front text rest
  | pair {c : Char} {high low : Nat} {text middle rest : Bytes} (hHigh : UnitEscape (0xD800 + high) text middle)
      (hLow : UnitEscape (0xDC00 + low) middle rest) (hRange : high < 0x400 ∧ low < 0x400)
      (hCode : c.toNat = 0x10000 + high * 0x400 + low) : Letter (String.utf8EncodeChar c) text rest

/-- A string from behind its opening quote. -/
inductive Letters : Bytes → Bytes → Bytes → Prop
  | close (rest : Bytes) : Letters [] (quote :: rest) rest
  | letter {front back text next rest : Bytes} (h : Letter front text next) (hMore : Letters back next rest) :
      Letters (front ++ back) text rest

def Digits (text : Bytes) : Prop := text ≠ [] ∧ ∀ c ∈ text, isDigit c = true

/-- A number: its whole part, and a fraction and an exponent where it has them. -/
structure IsNumber (text : Bytes) : Prop where
  parts : ∃ sign whole fraction exponent : Bytes, text = sign ++ whole ++ fraction ++ exponent ∧
    (sign = [] ∨ sign = bytes "-") ∧ (∃ n, IsNatural n whole) ∧
    (fraction = [] ∨ ∃ digits, fraction = ascii '.' :: digits ∧ Digits digits) ∧
    (exponent = [] ∨ ∃ mark plus digits, exponent = mark :: (plus ++ digits) ∧ mark ∈ bytes "eE" ∧
      (plus = [] ∨ plus = bytes "+" ∨ plus = bytes "-") ∧ Digits digits)

/-! ## Values and fields -/

/-- A field: its name, and its value as it is written. -/
inductive Field (value : Bytes → Bytes → Bytes → Prop) : Bytes × Bytes → Bytes → Bytes → Prop
  | mk {name written text next behind start rest : Bytes} (hName : Letters name text next)
      (hColon : Blanks next (ascii ':' :: behind)) (hBlanks : Blanks behind start) (hValue : value written start rest) :
      Field value (name, written) (quote :: text) rest

/-- A value as it is written, and what is behind it. -/
inductive Extent : Bytes → Bytes → Bytes → Prop
  | string {s written text rest : Bytes} (h : Letters s text rest) (hText : quote :: text = written ++ rest) :
      Extent written (quote :: text) rest
  | number {written : Bytes} (rest : Bytes) (h : IsNumber written) : Extent written (written ++ rest) rest
  | word {written : Bytes} (rest : Bytes) (h : written ∈ [bytes "true", bytes "false", bytes "null"]) :
      Extent written (written ++ rest) rest
  | array {items : List Bytes} {written text rest : Bytes} (h : Row Extent (ascii ']') true items text rest)
      (hText : ascii '[' :: text = written ++ rest) : Extent written (ascii '[' :: text) rest
  | object {fields : List (Bytes × Bytes)} {written text rest : Bytes}
      (h : Row (Field Extent) (ascii '\x7d') true fields text rest) (hText : ascii '\x7b' :: text = written ++ rest) :
      Extent written (ascii '\x7b' :: text) rest

/-- A text that is one object, between blanks. -/
structure ObjectText where
  text : Bytes
  fields : List (Bytes × Bytes)
  reads : ∃ inner behind, Blanks text (ascii '\x7b' :: inner) ∧ Row (Field Extent) (ascii '\x7d') true fields inner behind ∧
    Blanks behind []

/-! ## Objects without blanks -/

theorem blanks_refl (text : Bytes) : Blanks text text := ⟨[], by simp, rfl⟩

/-- A string without escapes. -/
theorem letters_plain {s : Bytes} (h : ∀ c ∈ s, ¬Special c ∧ 32 ≤ c) (rest : Bytes) : Letters s (s ++ quote :: rest) rest := by
  induction s with
  | nil => exact .close rest
  | cons c s ih =>
      obtain ⟨⟨hSpecial, hControl⟩, hMore⟩ := List.forall_mem_cons.mp h
      exact .letter (.piece (.plain _ hSpecial hControl)) (ih hMore)

theorem isNumber_natural {n : Nat} {digits : Bytes} (h : IsNatural n digits) : IsNumber digits :=
  ⟨[], digits, [], [], by simp, .inl rfl, ⟨n, h⟩, .inl rfl, .inl rfl⟩

/-- A field without escapes, as it is written. -/
def fieldText (field : Bytes × Bytes) : Bytes := quote :: (field.1 ++ quote :: ascii ':' :: field.2)

theorem field_plain {field : Bytes × Bytes} (hName : ∀ c ∈ field.1, ¬Special c ∧ 32 ≤ c) {rest : Bytes}
    (hValue : Extent field.2 (field.2 ++ rest) rest) : Field Extent field (fieldText field ++ rest) rest := by
  rw [fieldText, List.cons_append, List.append_assoc, List.cons_append, List.cons_append]
  exact .mk (letters_plain hName _) (blanks_refl _) (blanks_refl _) hValue

theorem extent_plain {s : Bytes} (h : ∀ c ∈ s, ¬Special c ∧ 32 ≤ c) (rest : Bytes) :
    Extent (quote :: (s ++ [quote])) (quote :: (s ++ [quote]) ++ rest) rest := by
  have hText : quote :: (s ++ [quote]) ++ rest = quote :: (s ++ quote :: rest) := by simp
  rw [hText]
  exact .string (letters_plain h rest) (by simp)

/-- A field whose name has no escapes, and whose value is one whatever follows. -/
structure IsPlain (field : Bytes × Bytes) : Prop where
  name : ∀ c ∈ field.1, ¬Special c ∧ 32 ≤ c
  value : ∀ rest, Extent field.2 (field.2 ++ rest) rest

theorem row_plain {fields : List (Bytes × Bytes)} (h : ∀ field ∈ fields, IsPlain field) (rest : Bytes) :
    Row (Field Extent) (ascii '\x7d') false fields (fields.flatMap (ascii ',' :: fieldText ·) ++ ascii '\x7d' :: rest) rest := by
  induction fields with
  | nil => exact .close (blanks_refl _)
  | cons field fields ih =>
      obtain ⟨hField, hMore⟩ := List.forall_mem_cons.mp h
      rw [List.flatMap_cons, List.append_assoc]
      exact .next (blanks_refl _) (blanks_refl _) (field_plain hField.name (hField.value _)) (ih hMore)

/-- The object with these fields, without blanks. -/
def ObjectText.compact (field : Bytes × Bytes) (fields : List (Bytes × Bytes)) (h : ∀ f ∈ field :: fields, IsPlain f) :
    ObjectText where
  text := ascii '\x7b' :: (fieldText field ++ (fields.flatMap (ascii ',' :: fieldText ·) ++ bytes "\x7d"))
  fields := field :: fields
  reads := by
    obtain ⟨hField, hMore⟩ := List.forall_mem_cons.mp h
    exact ⟨_, [], blanks_refl _, .first (blanks_refl _) (field_plain hField.name (hField.value _)) (row_plain hMore []),
      blanks_refl _⟩

end ContainerCP.Json
