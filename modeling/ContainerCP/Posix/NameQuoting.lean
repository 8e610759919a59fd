import ContainerCP.Posix.LexicalPath
import ContainerCP.Text.Lines

/-! How a program prints file names: as they are, or with escapes for what would not be
readable. The components of a path are not touched by it. -/
namespace ContainerCP.Posix

/-- A way to print names. It prints no line break, prints each component of a path by itself,
and has no way to print a name as the parent directory or as nothing. -/
structure NameQuoting where
  quote : Bytes → Bytes
  newline_notMem : ∀ name, newline ∉ quote name
  splitOn_quote : ∀ name, (quote name).splitOn slash = (name.splitOn slash).map quote
  quote_eq_nil : ∀ name, quote name = [] ↔ name = []
  quote_eq_parent : ∀ name, quote name = parent ↔ name = parent

/-- A path from the root. -/
def IsAbsolute (path : Bytes) : Prop := path.head? = some slash

/-- A path that goes through a parent directory. -/
def HasParent (path : Bytes) : Prop := parent ∈ path.splitOn slash

instance (path : Bytes) : Decidable (IsAbsolute path) := inferInstanceAs (Decidable (_ = _))

instance (path : Bytes) : Decidable (HasParent path) := inferInstanceAs (Decidable (_ ∈ _))

theorem isAbsolute_iff_splitOn (path : Bytes) :
    IsAbsolute path ↔ (path.splitOn slash).head? = some [] ∧ path ≠ [] := by
  cases path with
  | nil => simp [IsAbsolute]
  | cons c rest =>
      obtain ⟨first, others, hPieces⟩ := List.exists_cons_of_ne_nil (List.splitOn_ne_nil slash rest)
      rw [List.splitOn_cons_eq_if_modifyHead, IsAbsolute, hPieces]
      split
      · next hSlash => simpa using hSlash
      · next hOther => simpa using hOther

namespace NameQuoting

variable (quoting : NameQuoting)

theorem isAbsolute_quote (path : Bytes) : IsAbsolute (quoting.quote path) ↔ IsAbsolute path := by
  rw [isAbsolute_iff_splitOn, isAbsolute_iff_splitOn, quoting.splitOn_quote, List.head?_map, ne_eq, quoting.quote_eq_nil]
  simp [Option.map_eq_some_iff, quoting.quote_eq_nil]

theorem hasParent_quote (path : Bytes) : HasParent (quoting.quote path) ↔ HasParent path := by
  rw [HasParent, quoting.splitOn_quote, List.mem_map]
  simp only [quoting.quote_eq_parent, exists_eq_right]
  rfl

end NameQuoting

/-! ## Escapes, byte by byte -/

section Escapes

variable {e : UInt8 → Bytes}

theorem splitOn_append_of_notMem {front : Bytes} (h : slash ∉ front) (text : Bytes) :
    (front ++ text).splitOn slash = (text.splitOn slash).modifyHead (front ++ ·) := by
  induction front with
  | nil =>
      rw [List.nil_append]
      cases text.splitOn slash <;> rfl
  | cons c front ih =>
      rw [List.mem_cons, not_or] at h
      rw [List.cons_append, List.splitOn_cons_eq_if_modifyHead, if_neg (by simpa using Ne.symm h.1), ih h.2,
        List.modifyHead_modifyHead]
      rfl

theorem splitOn_flatMap (hSlash : e slash = [slash]) (hOther : ∀ c, c ≠ slash → slash ∉ e c) (text : Bytes) :
    (text.flatMap e).splitOn slash = (text.splitOn slash).map (List.flatMap e) := by
  induction text with
  | nil => simp
  | cons c rest ih =>
      rw [List.flatMap_cons, List.splitOn_cons_eq_if_modifyHead]
      split
      · next hEq =>
        obtain rfl : c = slash := by simpa using hEq
        rw [hSlash, List.singleton_append, List.splitOn_cons_eq_if_modifyHead, if_pos (by simp), ih]
        rfl
      · next hEq =>
        obtain ⟨first, others, hPieces⟩ := List.exists_cons_of_ne_nil (List.splitOn_ne_nil slash rest)
        rw [splitOn_append_of_notMem (hOther c (by simpa using hEq)), ih, hPieces]
        rfl

/-- A text of bytes that only stand for themselves is printed for itself only. -/
theorem flatMap_eq_iff {plain : UInt8 → Prop} (hSelf : ∀ c, plain c → e c = [c]) (hHead : ∀ c d, plain d → (e c).head? = some d → c = d)
    (hNe : ∀ c, e c ≠ []) (text out : Bytes) (hOut : ∀ c ∈ out, plain c) : text.flatMap e = out ↔ text = out := by
  induction text generalizing out with
  | nil => simp [eq_comm]
  | cons c rest ih =>
      obtain ⟨d, more, hPrinted⟩ := List.exists_cons_of_ne_nil (hNe c)
      cases out with
      | nil => simp [hPrinted]
      | cons o out =>
          have hPlain := hOut o List.mem_cons_self
          have hRest := ih out fun c hMem => hOut c (List.mem_cons_of_mem _ hMem)
          constructor
          · intro hEq
            rw [List.flatMap_cons, hPrinted, List.cons_append] at hEq
            obtain rfl : d = o := (List.cons.inj hEq).1
            obtain rfl : c = d := hHead c d hPlain (by rw [hPrinted]; rfl)
            rw [hSelf c hPlain] at hPrinted
            rw [← (List.cons.inj hPrinted).2, List.nil_append] at hEq
            rw [hRest.mp (List.cons.inj hEq).2]
          · intro hEq
            obtain ⟨rfl, rfl⟩ := List.cons.inj hEq
            rw [List.flatMap_cons, hSelf c hPlain, hRest.mpr rfl]
            rfl

end Escapes

/-- The letters of the control characters from 7 to 13. -/
def controlLetters : Bytes := bytes "abtnvfr"

def octal (c : UInt8) : Bytes := [48 + c / 64, 48 + c / 8 % 8, 48 + c % 8]

/-- A byte with the escapes of C, where it is no printable character of ASCII. -/
def escapeByte (c : UInt8) : Bytes :=
  if c = ascii '\\' then [c, c]
  else if 32 ≤ c ∧ c < 127 then [c]
  else if 7 ≤ c ∧ c ≤ 13 then [ascii '\\', controlLetters.getD (c - 7).toNat 0]
  else ascii '\\' :: octal c

set_option maxRecDepth 20000 in
theorem escapeByte_table : ∀ n < 256, newline ∉ escapeByte (UInt8.ofNat n) ∧ escapeByte (UInt8.ofNat n) ≠ [] ∧
    (UInt8.ofNat n ≠ slash → slash ∉ escapeByte (UInt8.ofNat n)) ∧
    ((escapeByte (UInt8.ofNat n)).head? = some (ascii '.') → UInt8.ofNat n = ascii '.') := by
  decide

theorem escapeByte_spec (c : UInt8) : newline ∉ escapeByte c ∧ escapeByte c ≠ [] ∧ (c ≠ slash → slash ∉ escapeByte c) ∧
    ((escapeByte c).head? = some (ascii '.') → c = ascii '.') := by
  have h := escapeByte_table c.toNat c.toNat_lt
  rwa [UInt8.ofNat_toNat] at h

/-- The escapes in a locale that knows ASCII only. -/
def asciiEscapes : NameQuoting where
  quote := List.flatMap escapeByte
  newline_notMem := by
    intro name hMem
    obtain ⟨c, -, hNewline⟩ := List.mem_flatMap.mp hMem
    exact (escapeByte_spec c).1 hNewline
  splitOn_quote := splitOn_flatMap (by decide) fun c => (escapeByte_spec c).2.2.1
  quote_eq_nil := by
    intro name
    rw [List.flatMap_eq_nil_iff]
    constructor
    · intro h
      by_contra hNe
      obtain ⟨c, rest, rfl⟩ := List.exists_cons_of_ne_nil hNe
      exact (escapeByte_spec c).2.1 (h c List.mem_cons_self)
    · rintro rfl
      simp
  quote_eq_parent := by
    intro name
    refine @flatMap_eq_iff _ (· = ascii '.') ?_ ?_ (fun c => (escapeByte_spec c).2.1) name parent (by decide)
    · rintro c rfl
      decide
    · rintro c d rfl hHead
      exact (escapeByte_spec c).2.2.2 hHead

end ContainerCP.Posix
