import ContainerCP.Text.Decimal
import ContainerCP.Text.Json
import Mathlib.Data.List.Forall2

/-! JSON texts as a grammar, without null and without fractions. Each relation says that a
text starts with what it stands for, and what is behind it. -/
namespace ContainerCP.Json

inductive Value where
  | string (text : Bytes)
  | int (value : Int)
  | bool (value : Bool)
  | array (items : List Value)
  | object (members : List (Bytes × Value))

def isBlank (c : UInt8) : Bool := c = ascii ' ' || c = ascii '\t' || c = ascii '\n' || c = ascii '\r'

def Blanks (text rest : Bytes) : Prop := ∃ blanks : Bytes, (∀ c ∈ blanks, isBlank c) ∧ text = blanks ++ rest

/-- One hexadecimal digit, in either case. -/
def HexDigit (c : UInt8) (digit : Nat) : Prop := digit < 16 ∧ (c = hexDigit 'a' digit ∨ c = hexDigit 'A' digit)

/-- One character of a string, or one byte of a longer character. -/
inductive Piece : Bytes → Bytes → Bytes → Prop
  | plain {c : UInt8} (rest : Bytes) (hSpecial : ¬Special c) (hControl : 32 ≤ c) : Piece [c] (c :: rest) rest
  | short {c : Char} {letter : UInt8} (rest : Bytes) (h : shortEscape c = some letter) :
      Piece (String.utf8EncodeChar c) (backslash :: letter :: rest) rest
  | unit {c : Char} {x y z w : UInt8} {i j k l : Nat} (rest : Bytes) (hX : HexDigit x i) (hY : HexDigit y j)
      (hZ : HexDigit z k) (hW : HexDigit w l) (hCode : c.toNat = ((i * 16 + j) * 16 + k) * 16 + l) :
      Piece (String.utf8EncodeChar c) (backslash :: ascii 'u' :: x :: y :: z :: w :: rest) rest

/-- A string from behind its opening quote. -/
inductive StringTail : Bytes → Bytes → Bytes → Prop
  | close (rest : Bytes) : StringTail [] (quote :: rest) rest
  | piece {front back text next rest : Bytes} (h : Piece front text next) (hMore : StringTail back next rest) :
      StringTail (front ++ back) text rest

/-- A number is written without zeros in front. -/
structure IsNatural (n : Nat) (digits : Bytes) : Prop where
  nonempty : digits ≠ []
  isDigits : ∀ c ∈ digits, isDigit c = true
  value : digitsValue digits = n
  lead : digits.head? = some (ascii '0') → digits = [ascii '0']

inductive Whole : Int → Bytes → Bytes → Prop
  | natural {n : Nat} {digits : Bytes} (rest : Bytes) (h : IsNatural n digits) : Whole n (digits ++ rest) rest
  | negative {n : Nat} {digits : Bytes} (rest : Bytes) (h : IsNatural n digits) :
      Whole (-n) (ascii '-' :: (digits ++ rest)) rest

/-- A row up to its closing bracket, from the start or from behind one of its items. -/
inductive Row {α : Type} (item : α → Bytes → Bytes → Prop) (bracket : UInt8) : Bool → List α → Bytes → Bytes → Prop
  | close {first : Bool} {text rest : Bytes} (h : Blanks text (bracket :: rest)) : Row item bracket first [] text rest
  | first {a : α} {more : List α} {text start next rest : Bytes} (hBlanks : Blanks text start)
      (hItem : item a start next) (hMore : Row item bracket false more next rest) :
      Row item bracket true (a :: more) text rest
  | next {a : α} {more : List α} {text behind start next rest : Bytes} (hComma : Blanks text (ascii ',' :: behind))
      (hBlanks : Blanks behind start) (hItem : item a start next) (hMore : Row item bracket false more next rest) :
      Row item bracket false (a :: more) text rest

/-- A key, a colon and a value. -/
inductive Member (value : Value → Bytes → Bytes → Prop) : Bytes × Value → Bytes → Bytes → Prop
  | mk {key : Bytes} {v : Value} {text next behind start rest : Bytes} (hKey : StringTail key text next)
      (hColon : Blanks next (ascii ':' :: behind)) (hBlanks : Blanks behind start) (hValue : value v start rest) :
      Member value (key, v) (quote :: text) rest

inductive Reads : Value → Bytes → Bytes → Prop
  | string {s text rest : Bytes} (h : StringTail s text rest) : Reads (.string s) (quote :: text) rest
  | int {n : Int} {text rest : Bytes} (h : Whole n text rest) : Reads (.int n) text rest
  | true (rest : Bytes) : Reads (.bool true) (bytes "true" ++ rest) rest
  | false (rest : Bytes) : Reads (.bool false) (bytes "false" ++ rest) rest
  | array {items : List Value} {text rest : Bytes} (h : Row Reads (ascii ']') true items text rest) :
      Reads (.array items) (ascii '[' :: text) rest
  | object {members : List (Bytes × Value)} {text rest : Bytes}
      (h : Row (Member Reads) (ascii '\x7d') true members text rest) :
      Reads (.object members) (ascii '\x7b' :: text) rest

/-- The whole text is one value, between blanks. -/
def IsDocument (text : Bytes) (value : Value) : Prop :=
  ∃ start behind, Blanks text start ∧ Reads value start behind ∧ Blanks behind []

theorem blanks_dropWhile (text : Bytes) : Blanks text (text.dropWhile isBlank) :=
  ⟨text.takeWhile isBlank, fun _ h => List.mem_takeWhile_imp h, List.takeWhile_append_dropWhile.symm⟩

theorem Blanks.trans {text middle rest : Bytes} (hFront : Blanks text middle)
    (hBack : Blanks middle rest) : Blanks text rest := by
  obtain ⟨front, hFront, rfl⟩ := hFront
  obtain ⟨back, hBack, rfl⟩ := hBack
  refine ⟨front ++ back, ?_, (List.append_assoc ..).symm⟩
  intro c hMem
  exact (List.mem_append.mp hMem).elim (hFront c) (hBack c)

/-! ## String literals, a character at a time -/

/-- The escape of one UTF-16 unit, with digits in either case. -/
inductive UnitForm (unit : Nat) : Bytes → Prop
  | mk {x y z w : UInt8} {i j k l : Nat} (hX : HexDigit x i) (hY : HexDigit y j) (hZ : HexDigit z k) (hW : HexDigit w l)
      (hUnit : unit = ((i * 16 + j) * 16 + k) * 16 + l) : UnitForm unit [backslash, ascii 'u', x, y, z, w]

/-- What may stand in a literal for a character. -/
inductive CharForm (c : Char) : Bytes → Prop
  | plain (h : ¬MustEscape c) : CharForm c (String.utf8EncodeChar c)
  | short {letter : UInt8} (h : shortEscape c = some letter) : CharForm c [backslash, letter]
  | unicode {forms : List Bytes} (h : List.Forall₂ UnitForm (utf16 c) forms) : CharForm c forms.flatten

/-- A literal that decodes to a text. -/
def IsLiteral (text : List Char) (literal : Bytes) : Prop :=
  ∃ forms, List.Forall₂ CharForm text forms ∧ literal = quote :: (forms.flatten ++ [quote])

theorem exists_of_forall₂_mem {α β : Type*} {R : α → β → Prop} {first : List α} {second : List β}
    (h : List.Forall₂ R first second) {b : β} (hMem : b ∈ second) : ∃ a ∈ first, R a b := by
  induction h with
  | nil => cases hMem
  | @cons a d first second hHead hTail ih =>
      rcases List.mem_cons.mp hMem with rfl | hMore
      · exact ⟨a, List.mem_cons_self, hHead⟩
      · obtain ⟨e, hFirst, hRelated⟩ := ih hMore
        exact ⟨e, List.mem_cons_of_mem _ hFirst, hRelated⟩

/-- A byte of a character is the character itself, or it is beyond ASCII. -/
theorem mem_utf8EncodeChar {c : Char} {byte : UInt8} (h : byte ∈ String.utf8EncodeChar c) :
    byte.toNat = c.toNat ∧ String.utf8EncodeChar c = [byte] ∨ 128 ≤ byte.toNat ∧ 128 ≤ c.toNat := by
  have hNat : ∀ n < 256, (UInt8.ofNat n).toNat = n := fun n hn => UInt8.toNat_ofNat_of_lt' hn
  have hCode : c.toNat = c.val.toNat := rfl
  rw [hCode]
  have hForm := h
  simp only [String.utf8EncodeChar] at hForm
  split at hForm
  · next hAscii =>
    obtain rfl := List.mem_singleton.mp hForm
    refine .inl ⟨hNat _ (by omega), ?_⟩
    simp only [String.utf8EncodeChar]
    rw [if_pos hAscii]
  · next hHigh =>
    refine .inr ⟨?_, by omega⟩
    split at hForm
    · simp only [List.mem_cons, List.not_mem_nil, or_false] at hForm
      rcases hForm with rfl | rfl
      · rw [hNat _ (by omega)]; omega
      · rw [hNat _ (by omega)]; omega
    · split at hForm
      · simp only [List.mem_cons, List.not_mem_nil, or_false] at hForm
        rcases hForm with rfl | rfl | rfl
        · rw [hNat _ (by omega)]; omega
        · rw [hNat _ (by omega)]; omega
        · rw [hNat _ (by omega)]; omega
      · simp only [List.mem_cons, List.not_mem_nil, or_false] at hForm
        rcases hForm with rfl | rfl | rfl | rfl
        · rw [hNat _ (by omega)]; omega
        · rw [hNat _ (by omega)]; omega
        · rw [hNat _ (by omega)]; omega
        · rw [hNat _ (by omega)]; omega

/-- There is no control character in a literal. -/
theorem CharForm.le_of_mem {c : Char} {form : Bytes} {byte : UInt8} (h : CharForm c form) (hMem : byte ∈ form) :
    32 ≤ byte := by
  have hBackslash : (32 : UInt8) ≤ backslash := by decide
  cases h with
  | plain hPlain =>
      rw [MustEscape, not_or, not_or] at hPlain
      have hControl : 32 ≤ c.toNat := Nat.not_lt.mp fun hLt => hPlain.2.2 hLt
      rw [UInt8.le_iff_toNat_le]
      rcases mem_utf8EncodeChar hMem with ⟨hByte, -⟩ | ⟨hByte, -⟩
      · exact hByte ▸ hControl
      · exact le_trans (by decide) hByte
  | @short letter hShort =>
      have hTable : ∀ entry ∈ shortEscapes, 32 ≤ entry.2 := by decide
      obtain ⟨entry, hFind, rfl⟩ := Option.map_eq_some_iff.mp hShort
      simp only [List.mem_cons, List.not_mem_nil, or_false] at hMem
      rcases hMem with rfl | rfl
      · exact hBackslash
      · exact hTable entry (List.mem_of_find?_eq_some hFind)
  | @unicode forms hForms =>
      have hDigit : ∀ {x : UInt8} {i : Nat}, HexDigit x i → 32 ≤ x := by
        have hTable : ∀ i < 16, 32 ≤ hexDigit 'a' i ∧ 32 ≤ hexDigit 'A' i := by decide
        rintro x i ⟨hLt, rfl | rfl⟩
        · exact (hTable i hLt).1
        · exact (hTable i hLt).2
      obtain ⟨form, hForm, hByte⟩ := List.mem_flatten.mp hMem
      obtain ⟨unit, -, ⟨hX, hY, hZ, hW, -⟩⟩ := exists_of_forall₂_mem hForms hForm
      simp only [List.mem_cons, List.not_mem_nil, or_false] at hByte
      rcases hByte with rfl | rfl | rfl | rfl | rfl | rfl
      · exact hBackslash
      · decide
      · exact hDigit hX
      · exact hDigit hY
      · exact hDigit hZ
      · exact hDigit hW

theorem IsLiteral.le_of_mem {text : List Char} {literal : Bytes} {byte : UInt8} (h : IsLiteral text literal)
    (hMem : byte ∈ literal) : 32 ≤ byte := by
  have hQuote : (32 : UInt8) ≤ quote := by decide
  obtain ⟨forms, hForms, rfl⟩ := h
  rw [List.mem_cons, List.mem_append, List.mem_singleton, List.mem_flatten] at hMem
  rcases hMem with rfl | ⟨form, hForm, hByte⟩ | rfl
  · exact hQuote
  · obtain ⟨c, -, hChar⟩ := exists_of_forall₂_mem hForms hForm
    exact hChar.le_of_mem hByte
  · exact hQuote

end ContainerCP.Json
