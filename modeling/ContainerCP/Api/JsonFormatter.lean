import ContainerCP.Text.JsonGrammar

/-! How the API writes a text into a JSON string. -/
namespace ContainerCP.Api

open Json (quote utf8 MustEscape IsLiteral CharForm)

/-- What `JsonFormatter::escape` writes for one byte. -/
def escapeByte (c : UInt8) : Bytes :=
  if c = quote then [Json.backslash, quote]
  else if c = Json.backslash then [Json.backslash, Json.backslash]
  else if c = ascii '\n' then bytes "\\n"
  else if c = ascii '\r' then bytes "\\r"
  else if c = ascii '\t' then bytes "\\t"
  else [c]

/-- `JsonFormatter::escape`. -/
def escape (s : Bytes) : Bytes := s.flatMap escapeByte

/-- A control character that is written as it is. -/
def IsRaw (c : Char) : Prop := c.toNat < 32 ∧ c ≠ '\n' ∧ c ≠ '\r' ∧ c ≠ '\t'

instance (c : Char) : Decidable (IsRaw c) := inferInstanceAs (Decidable (_ ∧ _))

theorem escapeByte_of_notMem {byte : UInt8} (h : byte ∉ [quote, Json.backslash, ascii '\n', ascii '\r', ascii '\t']) :
    escapeByte byte = [byte] := by
  simp only [List.mem_cons, List.not_mem_nil, or_false, not_or] at h
  rw [escapeByte, if_neg h.1, if_neg h.2.1, if_neg h.2.2.1, if_neg h.2.2.2.1, if_neg h.2.2.2.2]

/-- A byte with an escape is no part of a longer character. -/
theorem escape_utf8EncodeChar_plain {c : Char} (h : c ∉ ['"', '\\', '\n', '\r', '\t']) :
    escape (String.utf8EncodeChar c) = String.utf8EncodeChar c := by
  have hByte : ∀ byte ∈ String.utf8EncodeChar c, escapeByte byte = [byte] := by
    intro byte hMem
    refine escapeByte_of_notMem fun hSpecial => h ?_
    rcases Json.mem_utf8EncodeChar hMem with ⟨hCode, -⟩ | ⟨hHigh, -⟩
    · have hChar : ∀ d : Char, byte.toNat = d.toNat → c = d := fun d hEq =>
        Char.ext (UInt32.toNat_inj.mp (hCode.symm.trans hEq))
      simp only [List.mem_cons, List.not_mem_nil, or_false] at hSpecial ⊢
      rcases hSpecial with rfl | rfl | rfl | rfl | rfl
      · exact .inl (hChar '"' rfl)
      · exact .inr (.inl (hChar '\\' rfl))
      · exact .inr (.inr (.inl (hChar '\n' rfl)))
      · exact .inr (.inr (.inr (.inl (hChar '\r' rfl))))
      · exact .inr (.inr (.inr (.inr (hChar '\t' rfl))))
    · have hLow : ∀ special ∈ [quote, Json.backslash, ascii '\n', ascii '\r', ascii '\t'], special.toNat < 128 := by decide
      exact absurd (hLow byte hSpecial) (Nat.not_lt.mpr hHigh)
  rw [escape, List.flatMap_congr hByte]
  exact List.flatMap_singleton' _

theorem charForm_escape {c : Char} (h : ¬IsRaw c) : CharForm c (escape (String.utf8EncodeChar c)) := by
  by_cases hSpecial : c ∈ ['"', '\\', '\n', '\r', '\t']
  · simp only [List.mem_cons, List.not_mem_nil, or_false] at hSpecial
    rcases hSpecial with rfl | rfl | rfl | rfl | rfl
    · exact .short (show Json.shortEscape '"' = some quote by decide)
    · exact .short (show Json.shortEscape '\\' = some Json.backslash by decide)
    · exact .short (show Json.shortEscape '\n' = some (ascii 'n') by decide)
    · exact .short (show Json.shortEscape '\r' = some (ascii 'r') by decide)
    · exact .short (show Json.shortEscape '\t' = some (ascii 't') by decide)
  · rw [escape_utf8EncodeChar_plain hSpecial]
    refine .plain ?_
    simp only [List.mem_cons, List.not_mem_nil, or_false, not_or] at hSpecial
    rintro (hQuote | hBackslash | hControl)
    · exact hSpecial.1 hQuote
    · exact hSpecial.2.1 hBackslash
    · exact h ⟨hControl, hSpecial.2.2.1, hSpecial.2.2.2.1, hSpecial.2.2.2.2⟩

/-- The output is a literal that decodes to the text if no control character is written as it
is. -/
theorem isLiteral_escape (text : List Char) :
    IsLiteral text (quote :: (escape (utf8 text) ++ [quote])) ↔ ∀ c ∈ text, ¬IsRaw c := by
  constructor
  · rintro hLiteral c hMem hRaw
    have hPlain : c ∉ ['"', '\\', '\n', '\r', '\t'] := by
      have hHigh : ¬('"').toNat < 32 ∧ ¬('\\').toNat < 32 := by decide
      simp only [List.mem_cons, List.not_mem_nil, or_false]
      rintro (rfl | rfl | hEq | hEq | hEq)
      · exact hHigh.1 hRaw.1
      · exact hHigh.2 hRaw.1
      · exact hRaw.2.1 hEq
      · exact hRaw.2.2.1 hEq
      · exact hRaw.2.2.2 hEq
    obtain ⟨byte, hByte⟩ := List.exists_mem_of_ne_nil _ (String.utf8EncodeChar_ne_nil (c := c))
    have hWritten : byte ∈ escape (utf8 text) := by
      rw [escape, utf8, List.flatMap_assoc]
      refine List.mem_flatMap.mpr ⟨c, hMem, ?_⟩
      rwa [← escape, escape_utf8EncodeChar_plain hPlain]
    have hLow := hLiteral.le_of_mem (List.mem_cons_of_mem _ (List.mem_append_left _ hWritten))
    rw [UInt8.le_iff_toNat_le, show (32 : UInt8).toNat = 32 from rfl] at hLow
    rcases Json.mem_utf8EncodeChar hByte with ⟨hCode, -⟩ | ⟨-, hHigh⟩
    · have := hRaw.1
      omega
    · have := hRaw.1
      omega
  · intro hPlain
    refine ⟨text.map fun c => escape (String.utf8EncodeChar c), ?_, ?_⟩
    · rw [List.forall₂_map_right_iff, List.forall₂_same]
      exact fun c hMem => charForm_escape (hPlain c hMem)
    · rw [escape, utf8, List.flatMap_assoc, ← List.flatMap_def]
      rfl

theorem isLiteral_escape_bell : ¬IsLiteral ['\x07'] (quote :: (escape (utf8 ['\x07']) ++ [quote])) := by
  intro h
  exact absurd (h.le_of_mem (show (7 : UInt8) ∈ _ by decide)) (by decide)

end ContainerCP.Api
