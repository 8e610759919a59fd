import ContainerCP.Api.JsonText
import ContainerCP.Text.JsonSearch

/-! What the API finds in a flat JSON object that an encoder has written. -/
namespace ContainerCP.Api

open Json (Encoder utf8 Special Escaped IsKey Follows keyPattern objectText tailText behindKey)

/-- `json_extract_string_value`: a value that is a string. -/
def jsonExtractStringValue (json key : Bytes) : Bytes :=
  match cutAtText (jsonKey key) json with
  | none => []
  | some (_, behind) =>
      match behind.dropWhile isSpace with
      | [] => []
      | c :: rest => if c = quoteMark then unquote rest else []

/-! ## Flat objects -/

/-- A number as JSON has it, or any other text of these characters. -/
structure NumberText where
  text : Bytes
  nonempty : text ≠ []
  plain : ∀ c ∈ text, c ∈ bytes "0123456789+-.eE"

inductive FieldValue where
  | text (value : List Char)
  | number (value : NumberText)
  | bool (value : Bool)
  | null

def FieldValue.written (encoder : Encoder) : FieldValue → Bytes
  | text value => quoteMark :: (encoder.encode value ++ [quoteMark])
  | number value => value.text
  | bool value => if value then bytes "true" else bytes "false"
  | null => bytes "null"

def FieldValue.decoded : FieldValue → Bytes
  | text value => utf8 value
  | number value => value.text
  | bool value => if value then bytes "true" else bytes "false"
  | null => bytes "null"

/-- What a value is where a string is asked for. -/
def FieldValue.string : FieldValue → Bytes
  | text value => utf8 value
  | _ => []

/-- The encoder writes each character of a text as it is or with a letter behind a backslash. -/
def Brief (encoder : Encoder) (text : List Char) : Prop :=
  ∀ c ∈ text, encoder.write c = String.utf8EncodeChar c ∨
    ∃ letter, Json.shortEscape c = some letter ∧ encoder.write c = [backslash, letter]

instance instDecidableBrief (encoder : Encoder) (text : List Char) : Decidable (Brief encoder text) :=
  List.decidableBAll _ text

/-- An object without objects and rows in it, whose strings need no other escapes. -/
structure FlatObject (encoder : Encoder) where
  members : List (List Char × FieldValue)
  brief : ∀ name value, (name, FieldValue.text value) ∈ members → Brief encoder value

/-- What a value of a flat object must meet. -/
def FieldValue.Flat (encoder : Encoder) : FieldValue → Prop
  | text value => Brief encoder value
  | _ => True

instance (encoder : Encoder) (value : FieldValue) : Decidable (value.Flat encoder) :=
  match value with
  | .text value => inferInstanceAs (Decidable (Brief encoder value))
  | .number _ => isTrue trivial
  | .bool _ => isTrue trivial
  | .null => isTrue trivial

def FlatObject.ofMembers {encoder : Encoder} (members : List (List Char × FieldValue))
    (h : ∀ member ∈ members, member.2.Flat encoder) : FlatObject encoder where
  members := members
  brief _ _ hMember := h _ hMember

namespace FlatObject

variable {encoder : Encoder} (object : FlatObject encoder)

def text : Bytes := objectText (object.members.map fun member => (encoder.encode member.1, member.2.written encoder))

/-- The value of the first member with a name. -/
def find (key : Bytes) : Option FieldValue :=
  (object.members.find? fun member => utf8 member.1 = key).map Prod.snd

/-- A key with no quote and no backslash, which is not punctuation between two members. The
encoder writes it as it is, and no name in the object ends with a quote and the key. -/
structure Searchable (key : Bytes) : Prop where
  isKey : IsKey key
  written : ∀ member ∈ object.members, utf8 member.1 = key → encoder.Plain member.1
  others : ∀ member ∈ object.members, ¬(quoteMark :: key) <:+ utf8 member.1

end FlatObject

/-! ## Strings -/

section Strings

variable {encoder : Encoder}

theorem unquote_quoteMark (rest : Bytes) : unquote (quoteMark :: rest) = [] := by
  cases rest <;> rfl

theorem unquote_plain {front rest : Bytes} (hPlain : ∀ c ∈ front, ¬Special c) (hRest : rest ≠ []) :
    unquote (front ++ rest) = front ++ unquote rest := by
  induction front with
  | nil => rfl
  | cons c front ih =>
      obtain ⟨next, more, hMore⟩ := List.exists_cons_of_ne_nil (List.append_ne_nil_of_right_ne_nil front hRest)
      have hOther := hPlain c List.mem_cons_self
      have hQuote : ¬c = quoteMark := fun hEq => hOther (.inl hEq)
      have hBackslash : ¬c = backslash := fun hEq => hOther (.inr hEq)
      rw [List.cons_append, hMore, unquote, if_neg hQuote, if_neg hBackslash, ← hMore,
        ih fun d hMem => hPlain d (List.mem_cons_of_mem _ hMem), List.cons_append]

/-- What an encoder writes without `\u` is read back. -/
theorem unquote_encode {text : List Char} (h : Brief encoder text) (rest : Bytes) :
    unquote (encoder.encode text ++ quoteMark :: rest) = utf8 text := by
  induction text with
  | nil => exact unquote_quoteMark rest
  | cons c text ih =>
      have hTail := ih fun d hMem => h d (List.mem_cons_of_mem _ hMem)
      rw [Json.Encoder.encode_cons, Json.utf8_cons, List.append_assoc]
      rcases h c List.mem_cons_self with hPlain | ⟨letter, hLetter, hWrite⟩
      · have hBytes : ∀ byte ∈ encoder.write c, ¬Special byte := by
          rcases encoder.write_cases c with ⟨-, hBytes⟩ | hEscape
          · exact hBytes
          · exact absurd hEscape.longer (by rw [hPlain]; exact Nat.lt_irrefl _)
        rw [unquote_plain hBytes (by simp), hTail, hPlain]
      · have hTable : ∀ entry ∈ Json.shortEscapes, String.utf8EncodeChar entry.1 = [escaped entry.2] := by decide
        obtain ⟨entry, hFind, rfl⟩ := Option.map_eq_some_iff.mp hLetter
        obtain rfl : entry.1 = c := by simpa using List.find?_some hFind
        rw [hWrite, hTable entry (List.mem_of_find?_eq_some hFind), List.cons_append, List.cons_append, unquote,
          if_neg (by decide), if_pos rfl, List.nil_append, hTail]
        rfl

theorem plain_of_encode {text : List Char} (h : ∀ byte ∈ encoder.encode text, ¬Special byte) : encoder.Plain text := by
  intro c hMem
  rcases encoder.write_cases c with ⟨hPlain, -⟩ | hEscape
  · exact hPlain
  · have hBackslash : Json.backslash ∈ encoder.encode text :=
      List.mem_flatMap.mpr ⟨c, hMem, List.mem_of_head? hEscape.starts⟩
    exact absurd (.inr rfl) (h _ hBackslash)

theorem encode_eq_iff {text : List Char} {key : Bytes} (hKey : ∀ c ∈ key, ¬Special c)
    (hWritten : utf8 text = key → encoder.Plain text) : encoder.encode text = key ↔ utf8 text = key := by
  constructor
  · rintro rfl
    exact (Json.Encoder.encode_of_plain (plain_of_encode hKey)).symm
  · exact fun h => (Json.Encoder.encode_of_plain (hWritten h)).trans h

/-- An escaped quote with the key behind it comes from a quote with the key behind it. -/
theorem suffix_utf8 {text : List Char} {key : Bytes} (hKey : ∀ c ∈ key, ¬Special c)
    (h : (Json.backslash :: Json.quote :: key) <:+ encoder.encode text) : (Json.quote :: key) <:+ utf8 text := by
  induction text with
  | nil =>
      have hLength := h.length_le
      simp [Json.Encoder.encode] at hLength
  | cons c text ih =>
      obtain ⟨front, hFront⟩ := h
      rw [Json.Encoder.encode_cons, List.append_eq_append_iff] at hFront
      rw [Json.utf8_cons]
      rcases hFront with ⟨a, hWrite, hRest⟩ | ⟨b, -, hRest⟩
      · match a, hRest with
        | [], hRest => exact (ih ⟨[], hRest⟩).trans (List.suffix_append _ _)
        | [x], hRest =>
            -- A written text does not start with a quote.
            have hEscaped := encoder.escaped text
            rw [← show Json.quote :: key = encoder.encode text from (List.cons.inj hRest).2] at hEscaped
            cases hEscaped with
            | plain hQuote _ => exact absurd (.inl rfl) hQuote
        | x :: y :: a, hRest =>
            obtain ⟨rfl, hMore⟩ := List.cons.inj hRest
            obtain ⟨rfl, hEnd⟩ := List.cons.inj hMore
            have hText : key = a ++ encoder.encode text := hEnd
            have hQuote : Json.quote ∈ encoder.write c := by simp [hWrite]
            rcases encoder.write_cases c with ⟨-, hPlain⟩ | hEscape
            · exact absurd (.inl rfl) (hPlain _ hQuote)
            · obtain ⟨rfl, hPair⟩ := hEscape.quoted hQuote
              have hLength := congrArg List.length (hWrite.symm.trans hPair)
              simp only [List.length_append, List.length_cons, List.length_nil] at hLength
              obtain rfl : a = [] := List.eq_nil_of_length_eq_zero (by omega)
              rw [List.nil_append] at hText
              have hPlain : encoder.Plain text := plain_of_encode (by simpa [hText] using hKey)
              rw [hText, Json.Encoder.encode_of_plain hPlain]
              exact List.suffix_refl _
      · exact (ih ⟨b, hRest.symm⟩).trans (List.suffix_append _ _)

end Strings

/-! ## The search -/

section Extraction

variable {encoder : Encoder} (object : FlatObject encoder)

theorem skips_written {key : Bytes} (hKey : IsKey key) (value : FieldValue) : Json.Skips key (value.written encoder) := by
  cases value with
  | text value => exact Json.skips_string hKey (encoder.escaped value)
  | number value =>
      refine Json.skips_bare hKey fun hQuote => absurd (value.plain _ hQuote) ?_
      decide
  | bool value =>
      cases value with
      | true => exact Json.skips_bare hKey (show Json.quote ∉ bytes "true" by decide)
      | false => exact Json.skips_bare hKey (show Json.quote ∉ bytes "false" by decide)
  | null => exact Json.skips_bare hKey (show Json.quote ∉ bytes "null" by decide)

/-- The members are searched for the name that has been asked for. -/
theorem behindKey_written {key : Bytes} (hKey : ∀ c ∈ key, ¬Special c) {members : List (List Char × FieldValue)}
    (hWritten : ∀ member ∈ members, utf8 member.1 = key → encoder.Plain member.1) :
    (members.find? (fun member => utf8 member.1 = key) = none ∧
        behindKey key (members.map fun member => (encoder.encode member.1, member.2.written encoder)) = none) ∨
      ∃ member rest, members.find? (fun member => utf8 member.1 = key) = some member ∧ Follows rest ∧
        behindKey key (members.map fun member => (encoder.encode member.1, member.2.written encoder)) =
          some (member.2.written encoder ++ rest) := by
  induction members with
  | nil => exact .inl ⟨rfl, rfl⟩
  | cons member members ih =>
      obtain ⟨hHead, hTail⟩ := List.forall_mem_cons.mp hWritten
      have hName := encode_eq_iff hKey hHead
      rw [List.map_cons, behindKey]
      by_cases hSame : utf8 member.1 = key
      · rw [if_pos (hName.mpr hSame), List.find?_cons_of_pos (by simpa using hSame)]
        exact .inr ⟨member, _, rfl, Json.follows_tailText _, rfl⟩
      · rw [if_neg (mt hName.mp hSame), List.find?_cons_of_neg (by simpa using hSame)]
        exact ih hTail

/-- Behind the key stand the value of the first member with that name, and more. -/
theorem cutAtText_flat {key : Bytes} (h : object.Searchable key) :
    (object.find key = none ∧ cutAtText (jsonKey key) object.text = none) ∨
      ∃ member ∈ object.members, object.find key = some member.2 ∧ ∃ front rest, Follows rest ∧
        cutAtText (jsonKey key) object.text = some (front, member.2.written encoder ++ rest) := by
  have hPattern : jsonKey key = keyPattern key := rfl
  have hMembers : ∀ written ∈ object.members.map fun member => (encoder.encode member.1, member.2.written encoder),
      Escaped written.1 ∧ ¬(Json.backslash :: Json.quote :: key) <:+ written.1 ∧ Json.Skips key written.2 := by
    intro written hWritten
    obtain ⟨member, hMember, rfl⟩ := List.mem_map.mp hWritten
    exact ⟨encoder.escaped member.1, mt (suffix_utf8 h.isKey.plain) (h.others member hMember), skips_written h.isKey member.2⟩
  have hSearch := Json.cutAtText_objectText h.isKey hMembers
  rw [hPattern, FlatObject.find, FlatObject.text]
  rcases behindKey_written h.isKey.plain h.written with ⟨hFind, hBehind⟩ | ⟨member, rest, hFind, hFollows, hBehind⟩
  · rw [hBehind, Option.map_eq_none_iff] at hSearch
    exact .inl ⟨by rw [hFind]; rfl, hSearch⟩
  · rw [hBehind] at hSearch
    obtain ⟨⟨front, behind⟩, hCut, rfl⟩ := Option.map_eq_some_iff.mp hSearch
    exact .inr ⟨member, List.mem_of_find?_eq_some hFind, by rw [hFind]; rfl, front, rest, hFollows, hCut⟩

end Extraction

section Values

variable {encoder : Encoder} {json front rest key : Bytes}

theorem jsonExtract_text {text : List Char} (hBrief : Brief encoder text)
    (hCut : cutAtText (jsonKey key) json = some (front, (FieldValue.text text).written encoder ++ rest)) :
    jsonExtract json key = utf8 text ∧ jsonExtractStringValue json key = utf8 text := by
  have hBehind : ((FieldValue.text text).written encoder ++ rest).dropWhile isSpace =
      quoteMark :: (encoder.encode text ++ quoteMark :: rest) := by
    rw [FieldValue.written, List.cons_append, List.append_assoc]
    exact List.dropWhile_cons_of_neg (by decide)
  have hRead := unquote_encode hBrief rest
  rw [jsonExtract, jsonExtractStringValue, hCut]
  simp only [hBehind, if_true, hRead, and_self]

/-- A value without quotes is read up to the punctuation behind it. -/
theorem jsonExtract_bare {word : Bytes} (hNonempty : word ≠ [])
    (hPlain : ∀ c ∈ word, c ≠ quoteMark ∧ isSpace c = false ∧ c ≠ ascii ',' ∧ c ≠ ascii '\x7d') (hFollows : Follows rest)
    (hCut : cutAtText (jsonKey key) json = some (front, word ++ rest)) :
    jsonExtract json key = word ∧ jsonExtractStringValue json key = [] := by
  obtain ⟨c, more, rfl⟩ := List.exists_cons_of_ne_nil hNonempty
  obtain ⟨hQuote, hSpace, -⟩ := hPlain c List.mem_cons_self
  have hBehind : (c :: more ++ rest).dropWhile isSpace = c :: (more ++ rest) :=
    List.dropWhile_cons_of_neg (by simp [hSpace])
  have hEnd : rest.takeWhile (fun d => d ≠ ascii ',' && d ≠ ascii '\x7d') = [] := by
    rcases hFollows with rfl | ⟨_, rfl⟩
    · rfl
    · exact List.takeWhile_cons_of_neg (by decide)
  have hWord : (c :: (more ++ rest)).takeWhile (fun d => d ≠ ascii ',' && d ≠ ascii '\x7d') = c :: more := by
    rw [← List.cons_append, List.takeWhile_append_of_pos, hEnd, List.append_nil]
    intro d hMem
    simpa using (hPlain d hMem).2.2
  have hTrim : (c :: more).rdropWhile isSpace = c :: more := by
    rw [List.rdropWhile_eq_self_iff]
    intro hNonempty
    rw [(hPlain _ (List.getLast_mem hNonempty)).2.1]
    exact Bool.false_ne_true
  rw [jsonExtract, jsonExtractStringValue, hCut]
  simp only [hBehind, if_neg hQuote, hWord, hTrim, and_self]

theorem jsonExtract_written {value : FieldValue} (hBrief : ∀ text, value = .text text → Brief encoder text)
    (hFollows : Follows rest) (hCut : cutAtText (jsonKey key) json = some (front, value.written encoder ++ rest)) :
    jsonExtract json key = value.decoded ∧ jsonExtractStringValue json key = value.string := by
  cases value with
  | text text => exact jsonExtract_text (hBrief text rfl) hCut
  | number number =>
      have hDigits : ∀ c ∈ bytes "0123456789+-.eE",
          c ≠ quoteMark ∧ isSpace c = false ∧ c ≠ ascii ',' ∧ c ≠ ascii '\x7d' := by decide
      exact jsonExtract_bare number.nonempty (fun c hMem => hDigits c (number.plain c hMem)) hFollows hCut
  | bool value =>
      cases value with
      | true => exact jsonExtract_bare (show bytes "true" ≠ [] by decide) (by decide) hFollows hCut
      | false => exact jsonExtract_bare (show bytes "false" ≠ [] by decide) (by decide) hFollows hCut
  | null => exact jsonExtract_bare (show bytes "null" ≠ [] by decide) (by decide) hFollows hCut

end Values

/-- What is found is the value of the first member with that name, whatever the values hold. -/
theorem jsonExtract_flat {encoder : Encoder} (object : FlatObject encoder) {key : Bytes} (h : object.Searchable key) :
    jsonExtract object.text key = (object.find key).elim [] FieldValue.decoded ∧
      jsonExtractStringValue object.text key = (object.find key).elim [] FieldValue.string := by
  rcases cutAtText_flat object h with ⟨hFind, hCut⟩ | ⟨member, hMember, hFind, front, rest, hFollows, hCut⟩
  · rw [hFind, jsonExtract, jsonExtractStringValue, hCut]
    exact ⟨rfl, rfl⟩
  · rw [hFind]
    exact jsonExtract_written (fun text hText => object.brief member.1 text (by rw [← hText]; exact hMember)) hFollows hCut

/-- Two members, the first of which has the text of the second key in its value. -/
def siteObject : FlatObject Json.stringify :=
  .ofMembers [("note".toList, .text "\"domain\":\"a\"".toList), ("domain".toList, .text "b".toList)] (by decide)

theorem jsonExtract_flat_site :
    jsonExtract siteObject.text (bytes "domain") = (siteObject.find (bytes "domain")).elim [] FieldValue.decoded ∧
      jsonExtractStringValue siteObject.text (bytes "domain") =
        (siteObject.find (bytes "domain")).elim [] FieldValue.string :=
  jsonExtract_flat siteObject ⟨⟨by decide, by decide, by decide⟩, by decide, by decide⟩

/-! ## What is not found as it is -/

/-- An encoder that writes every other character with `\u`. -/
def asciiOnly : Encoder where
  write c := if c.toNat < 128 then Json.stringify.write c else Json.unicodeEscape 'a' c
  writes c := by
    split
    · exact Json.stringify.writes c
    · exact .unicode 'a' (.inl rfl)

/-- A name that ends with a quote and the key is found for it, and so is the punctuation between
two members. A key that is not written as it is is not found, nor is one with a quote in it, and
a `\u` in a value is not decoded. -/
theorem jsonExtract_quotedName :
    (∃ object : FlatObject Json.stringify, object.find (bytes "b") = none ∧
        jsonExtract object.text (bytes "b") = bytes "true") ∧
      (∀ key ∈ [bytes ",", bytes ":", bytes ":true,"], ∃ object : FlatObject Json.stringify,
        object.find key = none ∧ jsonExtract object.text key ≠ []) ∧
      (∀ name ∈ ["a\"b".toList, "a\\b".toList], ∃ object : FlatObject Json.stringify,
        (object.find (utf8 name)).isSome = true ∧ jsonExtract object.text (utf8 name) = []) ∧
      (∃ object : FlatObject asciiOnly, (object.find (utf8 ['é'])).isSome = true ∧
        jsonExtract object.text (utf8 ['é']) = []) ∧
      jsonExtract (objectText [(bytes "a", (FieldValue.text ['é']).written asciiOnly)]) (bytes "a") ≠ utf8 ['é'] := by
  refine ⟨⟨.ofMembers [("a\"b".toList, .bool true)] (by decide), by decide⟩, fun key hKey => ?_, fun name hName => ?_,
    ⟨.ofMembers [(['é'], .bool true)] (by decide), by decide⟩, by decide⟩
  · refine ⟨.ofMembers [("a".toList, .text [':']), ("b".toList, .bool true), (":c".toList, .text ['x']), (":d".toList, .null)]
      (by decide), ?_⟩
    revert key
    decide
  · refine ⟨.ofMembers [(name, .bool true)] (by simp [FieldValue.Flat]), ?_⟩
    revert name
    decide

end ContainerCP.Api
