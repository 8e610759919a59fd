import ContainerCP.Text.Bytes
import Mathlib.Data.List.Basic

/-! JSON strings as encoders write them between two quotes. -/
namespace ContainerCP.Json

def quote : UInt8 := ascii '"'

def backslash : UInt8 := ascii '\\'

/-- The UTF-8 form of a text. -/
def utf8 (text : List Char) : Bytes := text.flatMap String.utf8EncodeChar

/-- The characters that may not stand in a string as they are. -/
def MustEscape (c : Char) : Prop := c = '"' ∨ c = '\\' ∨ c.val < 32

instance (c : Char) : Decidable (MustEscape c) := inferInstanceAs (Decidable (_ ∨ _))

/-- The characters with an escape of one letter, and the letter. -/
def shortEscapes : List (Char × UInt8) :=
  [('"', quote), ('\\', backslash), ('/', ascii '/'), ('\x08', ascii 'b'), ('\t', ascii 't'), ('\n', ascii 'n'),
    ('\x0c', ascii 'f'), ('\r', ascii 'r')]

def shortEscape (c : Char) : Option UInt8 := (shortEscapes.find? (·.1 = c)).map Prod.snd

/-- A hexadecimal digit, with the letters from the one given. -/
def hexDigit (letter : Char) (digit : Nat) : UInt8 :=
  UInt8.ofNat (if digit < 10 then 48 + digit else letter.toNat + (digit - 10))

/-- The escape of one UTF-16 unit. -/
def unitEscape (letter : Char) (unit : Nat) : Bytes :=
  [backslash, ascii 'u', hexDigit letter (unit / 4096 % 16), hexDigit letter (unit / 256 % 16),
    hexDigit letter (unit / 16 % 16), hexDigit letter (unit % 16)]

def utf16 (c : Char) : List Nat :=
  if c.toNat < 0x10000 then [c.toNat]
  else [0xD800 + (c.toNat - 0x10000) / 0x400, 0xDC00 + (c.toNat - 0x10000) % 0x400]

def unicodeEscape (letter : Char) (c : Char) : Bytes := (utf16 c).flatMap (unitEscape letter)

/-- The ways to write a character. -/
inductive Writes (c : Char) : Bytes → Prop
  | plain (h : ¬MustEscape c) : Writes c (String.utf8EncodeChar c)
  | short (letter : UInt8) (h : shortEscape c = some letter) : Writes c [backslash, letter]
  | unicode (letter : Char) (h : letter = 'a' ∨ letter = 'A') : Writes c (unicodeEscape letter c)

/-- An encoder writes each character in one of the ways. -/
structure Encoder where
  write : Char → Bytes
  writes : ∀ c, Writes c (write c)

def Encoder.encode (encoder : Encoder) (text : List Char) : Bytes := text.flatMap encoder.write

/-- The encoder writes a text as it is. -/
def Encoder.Plain (encoder : Encoder) (text : List Char) : Prop := ∀ c ∈ text, encoder.write c = String.utf8EncodeChar c

instance (encoder : Encoder) (text : List Char) : Decidable (encoder.Plain text) := List.decidableBAll _ text

/-- `JSON.stringify`: an escape only where there must be one, and the short one if there is. -/
def stringifyChar (c : Char) : Bytes :=
  if MustEscape c then
    match shortEscape c with
    | some letter => [backslash, letter]
    | none => unicodeEscape 'a' c
  else String.utf8EncodeChar c

theorem writes_stringifyChar (c : Char) : Writes c (stringifyChar c) := by
  rw [stringifyChar]
  split
  · split
    · next letter hLetter => exact .short letter hLetter
    · exact .unicode 'a' (.inl rfl)
  · next hPlain => exact .plain hPlain

def stringify : Encoder := ⟨stringifyChar, writes_stringifyChar⟩

/-! ## What is written -/

/-- A byte that ends a string or starts an escape. -/
def Special (byte : UInt8) : Prop := byte = quote ∨ byte = backslash

instance (byte : UInt8) : Decidable (Special byte) := inferInstanceAs (Decidable (_ ∨ _))

theorem ofNat_not_special {n : Nat} (hLow : 128 ≤ n) (hHigh : n < 256) : ¬Special (UInt8.ofNat n) := by
  have hNat : (UInt8.ofNat n).toNat = n := UInt8.toNat_ofNat_of_lt' hHigh
  rintro (h | h)
  · have := congrArg UInt8.toNat h
    simp only [hNat, quote, show (ascii '"').toNat = 34 from rfl] at this
    omega
  · have := congrArg UInt8.toNat h
    simp only [hNat, backslash, show (ascii '\\').toNat = 92 from rfl] at this
    omega

/-- UTF-8 uses the bytes of the ASCII characters for these only. -/
theorem not_special_of_mem_utf8EncodeChar {c : Char} {byte : UInt8} (hQuote : c ≠ '"') (hBackslash : c ≠ '\\')
    (h : byte ∈ String.utf8EncodeChar c) : ¬Special byte := by
  have hVal : ∀ d : Char, c.val.toNat = d.val.toNat → c = d := fun d hEq =>
    Char.ext (UInt32.toNat_inj.mp hEq)
  simp only [String.utf8EncodeChar] at h
  split at h
  · next hAscii =>
    obtain rfl := List.mem_singleton.mp h
    have hNat : (UInt8.ofNat c.val.toNat).toNat = c.val.toNat := UInt8.toNat_ofNat_of_lt' (show _ < 256 by omega)
    rintro (h | h)
    · exact hQuote (hVal '"' (by rw [← hNat, h]; rfl))
    · exact hBackslash (hVal '\\' (by rw [← hNat, h]; rfl))
  · split at h
    · simp only [List.mem_cons, List.not_mem_nil, or_false] at h
      rcases h with rfl | rfl
      · exact ofNat_not_special (by omega) (by omega)
      · exact ofNat_not_special (by omega) (by omega)
    · split at h
      · simp only [List.mem_cons, List.not_mem_nil, or_false] at h
        rcases h with rfl | rfl | rfl
        · exact ofNat_not_special (by omega) (by omega)
        · exact ofNat_not_special (by omega) (by omega)
        · exact ofNat_not_special (by omega) (by omega)
      · simp only [List.mem_cons, List.not_mem_nil, or_false] at h
        rcases h with rfl | rfl | rfl | rfl
        · exact ofNat_not_special (by omega) (by omega)
        · exact ofNat_not_special (by omega) (by omega)
        · exact ofNat_not_special (by omega) (by omega)
        · exact ofNat_not_special (by omega) (by omega)

/-- An escape is longer than the character, and has a quote in it for a quote only, and
behind the backslash. -/
structure IsEscape (c : Char) (written : Bytes) : Prop where
  starts : written.head? = some backslash
  longer : (String.utf8EncodeChar c).length < written.length
  quoted : quote ∈ written → c = '"' ∧ written = [backslash, quote]

/-- The short escapes are for ASCII characters. -/
theorem shortEscape_some {c : Char} {letter : UInt8} (h : shortEscape c = some letter) :
    c.val ≤ 127 ∧ (letter = quote → c = '"') := by
  have hTable : ∀ entry ∈ shortEscapes, entry.1.val ≤ 127 ∧ (entry.2 = quote → entry.1 = '"') := by decide
  obtain ⟨entry, hFind, rfl⟩ := Option.map_eq_some_iff.mp h
  obtain rfl : entry.1 = c := by simpa using List.find?_some hFind
  exact hTable entry (List.mem_of_find?_eq_some hFind)

theorem isEscape_short {c : Char} {letter : UInt8} (h : shortEscape c = some letter) :
    IsEscape c [backslash, letter] := by
  obtain ⟨hAscii, hQuote⟩ := shortEscape_some h
  have hSize : c.utf8Size = 1 := Char.utf8Size_eq_one_iff.mpr hAscii
  refine ⟨rfl, by simp [hSize], ?_⟩
  intro hMem
  simp only [List.mem_cons, List.not_mem_nil, or_false] at hMem
  rcases hMem with hBackslash | hLetter
  · exact absurd hBackslash (by decide)
  · exact ⟨hQuote hLetter.symm, by rw [hLetter]⟩

theorem hexDigit_ne_quote {letter : Char} (hLetter : letter = 'a' ∨ letter = 'A') {digit : Nat} (h : digit < 16) :
    hexDigit letter digit ≠ quote := by
  revert digit
  rcases hLetter with rfl | rfl
  · decide
  · decide

theorem quote_notMem_unitEscape {letter : Char} (hLetter : letter = 'a' ∨ letter = 'A') (unit : Nat) :
    quote ∉ unitEscape letter unit := by
  have hDigit : ∀ n, quote ≠ hexDigit letter (n % 16) := fun n =>
    (hexDigit_ne_quote hLetter (Nat.mod_lt n (by decide))).symm
  have hFront : quote ≠ backslash ∧ quote ≠ ascii 'u' := by decide
  simp [unitEscape, hFront, hDigit]

theorem isEscape_unicode {letter : Char} (hLetter : letter = 'a' ∨ letter = 'A') (c : Char) :
    IsEscape c (unicodeEscape letter c) := by
  have hSize := Char.utf8Size_le_four c
  constructor
  · rw [unicodeEscape, utf16]
    split <;> rfl
  · rw [String.length_utf8EncodeChar, unicodeEscape, utf16]
    split
    · simp only [List.flatMap_cons, List.flatMap_nil, List.append_nil, unitEscape, List.length_cons, List.length_nil]
      omega
    · simp only [List.flatMap_cons, List.flatMap_nil, List.append_nil, unitEscape, List.length_cons, List.length_nil,
        List.length_append]
      omega
  · intro hQuote
    obtain ⟨unit, -, hMem⟩ := List.mem_flatMap.mp hQuote
    exact absurd hMem (quote_notMem_unitEscape hLetter unit)

/-- A character is written as it is, without a special byte, or as an escape. -/
theorem Encoder.write_cases (encoder : Encoder) (c : Char) :
    (encoder.write c = String.utf8EncodeChar c ∧ ∀ byte ∈ encoder.write c, ¬Special byte) ∨
      IsEscape c (encoder.write c) := by
  have hWrites := encoder.writes c
  generalize encoder.write c = written at hWrites ⊢
  cases hWrites with
  | plain hPlain =>
      have hQuote : c ≠ '"' := fun hEq => hPlain (.inl hEq)
      have hBackslash : c ≠ '\\' := fun hEq => hPlain (.inr (.inl hEq))
      exact .inl ⟨rfl, fun byte hByte => not_special_of_mem_utf8EncodeChar hQuote hBackslash hByte⟩
  | short letter hLetter => exact .inr (isEscape_short hLetter)
  | unicode letter hLetter => exact .inr (isEscape_unicode hLetter c)

theorem Encoder.encode_cons (encoder : Encoder) (c : Char) (text : List Char) :
    encoder.encode (c :: text) = encoder.write c ++ encoder.encode text := List.flatMap_cons

theorem utf8_cons (c : Char) (text : List Char) : utf8 (c :: text) = String.utf8EncodeChar c ++ utf8 text :=
  List.flatMap_cons

theorem utf8_injective : Function.Injective utf8 := by
  intro first second h
  have hBytes : (String.ofList first).toByteArray = (String.ofList second).toByteArray := congrArg List.toByteArray h
  exact String.ofList_injective (String.toByteArray_inj.mp hBytes)

theorem Encoder.encode_of_plain {encoder : Encoder} {text : List Char} (h : encoder.Plain text) :
    encoder.encode text = utf8 text := List.flatMap_congr h

theorem Encoder.not_special_of_plain {encoder : Encoder} {text : List Char} (h : encoder.Plain text) {byte : UInt8}
    (hByte : byte ∈ utf8 text) : ¬Special byte := by
  obtain ⟨c, hc, hMem⟩ := List.mem_flatMap.mp hByte
  rw [← h c hc] at hMem
  rcases encoder.write_cases c with ⟨-, hPlain⟩ | hEscape
  · exact hPlain byte hMem
  · have hLonger := hEscape.longer
    rw [h c hc] at hLonger
    exact absurd hLonger (Nat.lt_irrefl _)

theorem Encoder.length_utf8EncodeChar_le (encoder : Encoder) (c : Char) :
    (String.utf8EncodeChar c).length ≤ (encoder.write c).length := by
  rcases encoder.write_cases c with ⟨hPlain, -⟩ | hEscape
  · rw [hPlain]
  · exact hEscape.longer.le

theorem Encoder.length_utf8_le (encoder : Encoder) (text : List Char) :
    (utf8 text).length ≤ (encoder.encode text).length := by
  induction text with
  | nil => exact Nat.le_refl _
  | cons c text ih =>
      rw [utf8_cons, encode_cons, List.length_append, List.length_append]
      exact Nat.add_le_add (encoder.length_utf8EncodeChar_le c) ih

/-- Only a text without escapes is as long as its UTF-8 form. -/
theorem Encoder.plain_of_length {encoder : Encoder} {text : List Char}
    (h : (encoder.encode text).length = (utf8 text).length) : encoder.Plain text := by
  induction text with
  | nil => exact fun c hc => absurd hc List.not_mem_nil
  | cons c text ih =>
      rw [utf8_cons, encode_cons, List.length_append, List.length_append] at h
      have hHead := encoder.length_utf8EncodeChar_le c
      have hTail := encoder.length_utf8_le text
      rcases encoder.write_cases c with ⟨hPlain, -⟩ | hEscape
      · have hRest := ih (by omega)
        exact List.forall_mem_cons.mpr ⟨hPlain, hRest⟩
      · have hLonger := hEscape.longer
        omega

/-! ## Up to the next quote -/

/-- What stands before the first quote of the written text. -/
def Encoder.upToQuote (encoder : Encoder) (text : List Char) : Bytes := (encoder.encode text).takeWhile (· ≠ quote)

theorem Encoder.upToQuote_of_plain {encoder : Encoder} {text : List Char} (h : encoder.Plain text) :
    encoder.upToQuote text = utf8 text := by
  rw [upToQuote, encode_of_plain h, List.takeWhile_eq_self_iff]
  intro byte hByte
  exact decide_eq_true fun hQuote => not_special_of_plain h hByte (.inl hQuote)

theorem Encoder.mem_of_quote_mem_encode {encoder : Encoder} {text : List Char} (h : quote ∈ encoder.encode text) :
    '"' ∈ text := by
  obtain ⟨c, hc, hMem⟩ := List.mem_flatMap.mp h
  rcases encoder.write_cases c with ⟨-, hPlain⟩ | hEscape
  · exact absurd (.inl rfl) (hPlain quote hMem)
  · exact (hEscape.quoted hMem).1 ▸ hc

/-- The text before the first quote is the whole text only where nothing is escaped. -/
theorem Encoder.upToQuote_eq_utf8_iff (encoder : Encoder) (text : List Char) :
    encoder.upToQuote text = utf8 text ↔ encoder.Plain text := by
  refine ⟨fun h => ?_, upToQuote_of_plain⟩
  have hNoQuote : quote ∉ encoder.encode text := by
    intro hMem
    have hUtf8 : quote ∈ utf8 text := List.mem_flatMap.mpr ⟨'"', mem_of_quote_mem_encode hMem, by decide⟩
    rw [← h] at hUtf8
    simpa using List.mem_takeWhile_imp hUtf8
  have hWhole : encoder.upToQuote text = encoder.encode text := by
    rw [upToQuote, List.takeWhile_eq_self_iff]
    intro byte hByte
    exact decide_eq_true fun hQuote => hNoQuote (hQuote ▸ hByte)
  exact plain_of_length (by rw [← hWhole, h])

/-- Where something is escaped the backslash stands before the first quote. -/
theorem Encoder.backslash_mem_upToQuote {encoder : Encoder} {text : List Char} (h : ¬encoder.Plain text) :
    backslash ∈ encoder.upToQuote text := by
  induction text with
  | nil => exact absurd (fun c hc => absurd hc List.not_mem_nil) h
  | cons c text ih =>
      rw [upToQuote, encode_cons]
      rcases encoder.write_cases c with ⟨hWrite, hPlain⟩ | hEscape
      · have hRest : ¬encoder.Plain text := fun hText => h (List.forall_mem_cons.mpr ⟨hWrite, hText⟩)
        have hNoQuote : ∀ byte ∈ encoder.write c, decide (byte ≠ quote) = true := fun byte hByte =>
          decide_eq_true fun hQuote => hPlain byte hByte (.inl hQuote)
        rw [List.takeWhile_append_of_pos hNoQuote]
        exact List.mem_append_right _ (ih hRest)
      · obtain ⟨tail, hTail⟩ := List.head?_eq_some_iff.mp hEscape.starts
        rw [hTail, List.cons_append, List.takeWhile_cons_of_pos (by decide)]
        exact List.mem_cons_self

/-- No other text is read as one that has no escapes. -/
theorem Encoder.upToQuote_eq_iff {encoder : Encoder} {text other : List Char} (h : encoder.Plain text) :
    encoder.upToQuote other = encoder.upToQuote text ↔ other = text := by
  refine ⟨fun hRead => ?_, fun hEq => hEq ▸ rfl⟩
  rw [upToQuote_of_plain h] at hRead
  have hOther : encoder.Plain other := by
    by_contra hNot
    have hMem := backslash_mem_upToQuote hNot
    rw [hRead] at hMem
    exact not_special_of_plain h hMem (.inr rfl)
  rw [upToQuote_of_plain hOther] at hRead
  exact utf8_injective hRead

theorem Encoder.upToQuote_ne_nil (encoder : Encoder) {text : List Char} (h : text ≠ []) :
    encoder.upToQuote text ≠ [] := by
  obtain ⟨c, rest, rfl⟩ := List.exists_cons_of_ne_nil h
  rw [upToQuote, encode_cons]
  have hHead : ∃ byte tail, encoder.write c = byte :: tail ∧ byte ≠ quote := by
    rcases encoder.write_cases c with ⟨hWrite, hPlain⟩ | hEscape
    · obtain ⟨byte, tail, hCons⟩ := List.exists_cons_of_ne_nil (hWrite ▸ String.utf8EncodeChar_ne_nil)
      exact ⟨byte, tail, hCons, fun hQuote => hPlain byte (hCons ▸ List.mem_cons_self) (.inl hQuote)⟩
    · obtain ⟨tail, hTail⟩ := List.head?_eq_some_iff.mp hEscape.starts
      exact ⟨backslash, tail, hTail, by decide⟩
  obtain ⟨byte, tail, hCons, hQuote⟩ := hHead
  rw [hCons, List.cons_append, List.takeWhile_cons_of_pos (by simpa using hQuote)]
  simp

end ContainerCP.Json
