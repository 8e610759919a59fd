import Mathlib.Algebra.Group.Nat.Defs
import Mathlib.Data.List.DropRight

/-! Byte strings as the C++ standard library sees them. A `std::string` is a
list of bytes; the character classes are those of the "C" locale, so no byte
above 127 is a letter, a digit or a space. -/
namespace ContainerCP

abbrev Bytes := List UInt8

instance instLawfulBEqBytes : LawfulBEq Bytes := List.instLawfulBEq

/-- The byte of an ASCII character literal. -/
def ascii (c : Char) : UInt8 := UInt8.ofNat c.toNat

/-- The bytes of an ASCII string literal. -/
def bytes (s : String) : Bytes := s.toList.map ascii

/-- The bytes of a literal from its characters: the kernel is slow in finding these. -/
theorem bytes_ofList (chars : List Char) : bytes (String.ofList chars) = chars.map ascii := by
  rw [bytes, String.toList_ofList]

theorem notMem_bytes {c : UInt8} {chars : List Char} (h : c ∉ chars.map ascii) : c ∉ bytes (String.ofList chars) := by
  rwa [bytes_ofList]

/-- What holds of every byte of a text is decided along the text. -/
instance instDecidableForallMemBytes (text : Bytes) (p : UInt8 → Prop) [DecidablePred p] :
    Decidable (∀ c ∈ text, p c) := List.decidableBAll p text

/-- `std::isspace`: space, and the five controls from tab to carriage return. -/
def isSpace (c : UInt8) : Bool := c == 32 || (9 ≤ c && c ≤ 13)

/-- `std::isdigit`. -/
def isDigit (c : UInt8) : Bool := 48 ≤ c && c ≤ 57

/-- `std::isalpha`. -/
def isAlpha (c : UInt8) : Bool := (65 ≤ c && c ≤ 90) || (97 ≤ c && c ≤ 122)

/-- `std::isalnum`. -/
def isAlnum (c : UInt8) : Bool := isAlpha c || isDigit c

/-- Drop the spaces at both ends. -/
def trim (value : Bytes) : Bytes := (value.dropWhile isSpace).rdropWhile isSpace

theorem dropWhile_eq_self_of_head {p : UInt8 → Bool} {c : UInt8} {rest : Bytes} (h : p c = false) :
    (c :: rest).dropWhile p = c :: rest := by
  simp [h]

theorem trim_spaces_append {spaces value : Bytes} (h : ∀ c ∈ spaces, isSpace c = true) :
    trim (spaces ++ value) = trim value := by
  induction spaces with
  | nil => rfl
  | cons c rest ih =>
      have hRest := ih fun d hd => h d (List.mem_cons_of_mem _ hd)
      simpa [trim, h c List.mem_cons_self] using hRest

theorem rdropWhile_append_spaces {spaces value : Bytes} (h : ∀ c ∈ spaces, isSpace c = true) :
    (value ++ spaces).rdropWhile isSpace = value.rdropWhile isSpace := by
  induction spaces using List.reverseRecOn with
  | nil => simp
  | append_singleton rest c ih =>
      rw [← List.append_assoc, List.rdropWhile_concat_pos _ _ _ (h c (by simp))]
      exact ih fun d hd => h d (by simp [hd])

/-- Splitting off the trailing spaces: what trimming drops on the right. -/
theorem exists_trailing_spaces (value : Bytes) :
    ∃ spaces, value = value.rdropWhile isSpace ++ spaces ∧ ∀ c ∈ spaces, isSpace c = true := by
  refine ⟨value.rtakeWhile isSpace, ?_, ?_⟩
  · simp [List.rdropWhile, List.rtakeWhile, ← List.reverse_append]
  · intro c hc
    exact List.mem_rtakeWhile_imp hc

/-- Splitting off the leading spaces: what trimming drops on the left. -/
theorem exists_leading_spaces (value : Bytes) :
    ∃ spaces, value = spaces ++ value.dropWhile isSpace ∧ ∀ c ∈ spaces, isSpace c = true :=
  ⟨value.takeWhile isSpace, List.takeWhile_append_dropWhile.symm, fun _ hc => List.mem_takeWhile_imp hc⟩

end ContainerCP
