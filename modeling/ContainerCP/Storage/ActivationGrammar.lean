import ContainerCP.Storage.ActivationHandover
import ContainerCP.Storage.ManifestParser
import Mathlib.Data.List.Perm.Subperm
import Mathlib.Algebra.Group.Int.Defs

/-! What the two readers of the archive take: the strings that the writer escapes, and the
texts that are an activation state. -/
namespace ContainerCP.Storage

open Json

/-! ## The strings of the writer -/

/-- What both parsers are to read behind an escaped text. -/
def ReadsBack (text : Bytes) : Prop :=
  ∀ rest, ManifestParser.parseString (quote :: (jsonEscape text ++ quote :: rest)) = some (text, rest) ∧
    ActivationState.parseString (quote :: (jsonEscape text ++ quote :: rest)) = some (text, rest)

namespace ManifestParser

/-- The escape of a byte below 128 is read by the parser of the manifest too. -/
theorem readEscape_jsonEscapeByte : ∀ c : UInt8, c < 128 →
    (jsonEscapeByte c = [c] ∧ 32 ≤ c ∧ c ≠ quote ∧ c ≠ backslash) ∨
      ((jsonEscapeByte c).head? = some backslash ∧ readEscape (jsonEscapeByte c).tail = some ([c], [])) :=
  forall_byte (by decide +kernel)

theorem readEscape_append {text out behind : Bytes} (h : readEscape text = some (out, behind)) (rest : Bytes) :
    readEscape (text ++ rest) = some (out, behind ++ rest) := by
  cases text with
  | nil => cases h
  | cons c text =>
      by_cases hUnit : c = ascii 'u'
      · subst hUnit
        exact readUnit_append h rest
      · simp only [readEscape, List.cons_append, if_neg hUnit] at h ⊢
        split_ifs at h ⊢ with h1 h2 h3 h4
        all_goals
          obtain ⟨rfl, rfl⟩ := Prod.mk.inj (Option.some.inj h)
          rfl

/-- The loop takes what stands for a byte in one turn. -/
theorem readString_byte {c : UInt8} (hAscii : c < 128) (fuel : Nat) (out rest : Bytes) :
    readString (fuel + 1) out (jsonEscapeByte c ++ rest) = readString fuel (out ++ [c]) rest := by
  rcases readEscape_jsonEscapeByte c hAscii with ⟨hEscape, hControl, hQuote, hBackslash⟩ | ⟨hHead, hRead⟩
  · have hZero : c ≠ 0 := by
      rintro rfl
      exact absurd hControl (by decide)
    have hPlain : ¬(decide (c < 32) || decide (128 ≤ c)) = true := by
      simpa using And.intro hControl hAscii
    rw [hEscape, List.singleton_append, readString, if_neg hQuote, if_neg hZero, if_neg hBackslash, if_neg hPlain]
  · obtain ⟨tail, hEscape⟩ := List.head?_eq_some_iff.mp hHead
    rw [hEscape, List.tail_cons] at hRead
    have hMore := readEscape_append hRead rest
    rw [List.nil_append] at hMore
    rw [hEscape, List.cons_append, readString, if_neg (by decide), if_neg (by decide), if_pos rfl, hMore]

theorem readString_jsonEscape {text : Bytes} (h : ∀ c ∈ text, c < 128) (fuel : Nat) (out rest : Bytes) :
    readString (fuel + text.length + 1) out (jsonEscape text ++ quote :: rest) = some (out ++ text, rest) := by
  induction text generalizing out with
  | nil => simp [jsonEscape, readString]
  | cons c text ih =>
      obtain ⟨hAscii, hMore⟩ := List.forall_mem_cons.mp h
      have hSplit : jsonEscape (c :: text) = jsonEscapeByte c ++ jsonEscape text := List.flatMap_cons
      have hFuel : fuel + (c :: text).length + 1 = fuel + text.length + 1 + 1 := by
        rw [List.length_cons]
        omega
      rw [hSplit, List.append_assoc, hFuel, readString_byte hAscii, ih hMore, List.append_assoc, List.singleton_append]

theorem length_le_jsonEscape {text : Bytes} (h : ∀ c ∈ text, c < 128) : text.length ≤ (jsonEscape text).length := by
  induction text with
  | nil => exact Nat.le_refl 0
  | cons c text ih =>
      obtain ⟨hAscii, hMore⟩ := List.forall_mem_cons.mp h
      have hSplit : jsonEscape (c :: text) = jsonEscapeByte c ++ jsonEscape text := List.flatMap_cons
      have hByte : 1 ≤ (jsonEscapeByte c).length := by
        rcases readEscape_jsonEscapeByte c hAscii with ⟨hEscape, -⟩ | ⟨hHead, -⟩
        · simp [hEscape]
        · obtain ⟨tail, hEscape⟩ := List.head?_eq_some_iff.mp hHead
          simp [hEscape]
      have hRest := ih hMore
      rw [hSplit, List.length_append, List.length_cons]
      omega

theorem parseString_jsonEscape {text : Bytes} (h : ∀ c ∈ text, c < 128) (rest : Bytes) :
    parseString (quote :: (jsonEscape text ++ quote :: rest)) = some (text, rest) := by
  have hLength := length_le_jsonEscape h
  obtain ⟨fuel, hFuel⟩ : ∃ fuel, (jsonEscape text ++ quote :: rest).length + 1 = fuel + text.length + 1 := by
    refine ⟨(jsonEscape text ++ quote :: rest).length - text.length, ?_⟩
    rw [List.length_append]
    omega
  rw [parseString, if_pos rfl, hFuel, readString_jsonEscape h, List.nil_append]

end ManifestParser

theorem readsBack_iff (text : Bytes) : ReadsBack text ↔ ∀ c ∈ text, c < 128 := by
  constructor
  · intro h
    have hState := (h []).2
    rw [parseString_jsonEscape] at hState
    exact ascii_of_readBack_eq (Prod.mk.inj (Option.some.inj hState)).1
  · intro h rest
    refine ⟨ManifestParser.parseString_jsonEscape h rest, ?_⟩
    rw [parseString_jsonEscape]
    have hBack : text.flatMap readBack = text := by
      have hByte : ∀ c ∈ text, readBack c = [c] := fun c hc => if_pos (h c hc)
      rw [List.flatMap_congr hByte, List.flatMap_singleton']
    rw [hBack]

/-- The escape of a byte above 127 is that of a negative number, and cut. -/
theorem not_forall_readsBack : ¬∀ text, ReadsBack text := by
  intro h
  exact absurd (h [0xE9] []).1 (by decide +kernel)

namespace ActivationState

open ManifestParser (cons_of_peek skipByte_some blanks_skipWs hexDigit_of_hexValue encodeUnit_eq readUnit_sound isNatural_zero)

/-! ## Strings -/

theorem hexValue_of_hexDigit {c : UInt8} {digit : Nat} (h : HexDigit c digit) : hexValue c = some digit := by
  have hTable : ∀ n < 16, hexValue (hexDigit 'a' n) = some n ∧ hexValue (hexDigit 'A' n) = some n := by decide +kernel
  obtain ⟨hDigit, rfl | rfl⟩ := h
  · exact (hTable digit hDigit).1
  · exact (hTable digit hDigit).2

theorem readUnit_complete {c : Char} {x y z w : UInt8} {i j k l : Nat} (hX : HexDigit x i) (hY : HexDigit y j)
    (hZ : HexDigit z k) (hW : HexDigit w l) (hCode : c.toNat = ((i * 16 + j) * 16 + k) * 16 + l) (rest : Bytes) :
    readUnit (x :: y :: z :: w :: rest) = some (String.utf8EncodeChar c, rest) := by
  have hBounds := And.intro (And.intro hX.1 hY.1) (And.intro hZ.1 hW.1)
  have hValid := c.valid
  have hPlain : ¬(decide (0xD800 ≤ c.toNat) && decide (c.toNat ≤ 0xDFFF)) = true := by
    simp only [Bool.and_eq_true, decide_eq_true_eq]
    have hNat : c.toNat.isValidChar := hValid
    rw [Nat.isValidChar] at hNat
    omega
  rw [readUnit, hexValue_of_hexDigit hX, hexValue_of_hexDigit hY, hexValue_of_hexDigit hZ, hexValue_of_hexDigit hW]
  simp only
  rw [← hCode, if_neg hPlain, encodeUnit_eq (by omega)]

/-- The letters behind a backslash. -/
theorem readEscape_short {c : Char} {letter : UInt8} (h : shortEscape c = some letter) (rest : Bytes) :
    readEscape (letter :: rest) = some (String.utf8EncodeChar c, rest) := by
  have hTable : ∀ entry ∈ shortEscapes, readEscape [entry.2] = some (String.utf8EncodeChar entry.1, []) := by
    decide +kernel
  obtain ⟨entry, hFind, rfl⟩ := Option.map_eq_some_iff.mp h
  obtain rfl : entry.1 = c := by simpa using List.find?_some hFind
  exact readEscape_append (hTable entry (List.mem_of_find?_eq_some hFind)) rest

theorem readEscape_sound {text decoded rest : Bytes} (h : readEscape text = some (decoded, rest)) :
    Piece decoded (backslash :: text) rest := by
  cases text with
  | nil => cases h
  | cons letter behind =>
      by_cases hUnit : letter = ascii 'u'
      · subst hUnit
        exact readUnit_sound h
      · obtain ⟨c, hShort⟩ : ∃ c, shortEscape c = some letter := by
          simp only [readEscape, if_neg hUnit] at h
          split_ifs at h with hSelf hB hF hN hR hT
          · simp only [Bool.or_eq_true, decide_eq_true_eq] at hSelf
            rcases hSelf with (rfl | rfl) | rfl
            · exact ⟨'"', by decide⟩
            · exact ⟨'\\', by decide⟩
            · exact ⟨'/', by decide⟩
          · exact ⟨Char.ofNat 8, by rw [hB]; decide⟩
          · exact ⟨Char.ofNat 12, by rw [hF]; decide⟩
          · exact ⟨'\n', by rw [hN]; decide⟩
          · exact ⟨'\r', by rw [hR]; decide⟩
          · exact ⟨'\t', by rw [hT]; decide⟩
        rw [readEscape_short hShort] at h
        obtain ⟨rfl, rfl⟩ := Prod.mk.inj (Option.some.inj h)
        exact .short _ hShort

/-- One turn of the loop takes one piece of a string. -/
theorem readString_piece {front text next : Bytes} (h : Piece front text next) (fuel : Nat) (out : Bytes) :
    readString (fuel + 1) out text = readString fuel (out ++ front) next ∧ next.length < text.length := by
  cases h with
  | @plain c _ hSpecial hControl =>
      have hQuote : c ≠ quote := fun hEq => hSpecial (.inl hEq)
      have hBackslash : c ≠ backslash := fun hEq => hSpecial (.inr hEq)
      have hZero : c ≠ 0 := by
        rintro rfl
        exact absurd hControl (by decide)
      rw [readString, if_neg hQuote, if_neg hZero, if_neg hBackslash, if_neg (UInt8.not_lt.mpr hControl)]
      exact ⟨rfl, by simp⟩
  | @short c letter _ hShort =>
      rw [readString, if_neg (by decide), if_neg (by decide), if_pos rfl, readEscape_short hShort]
      refine ⟨rfl, ?_⟩
      simp only [List.length_cons]
      omega
  | @unit c x y z w i j k l _ hX hY hZ hW hCode =>
      have hRead : readEscape (ascii 'u' :: x :: y :: z :: w :: next) = some (String.utf8EncodeChar c, next) :=
        readUnit_complete hX hY hZ hW hCode next
      rw [readString, if_neg (by decide), if_neg (by decide), if_pos rfl, hRead]
      refine ⟨rfl, ?_⟩
      simp only [List.length_cons]
      omega

theorem readString_complete {s text rest : Bytes} (h : StringTail s text rest) {fuel : Nat} (hFuel : text.length < fuel)
    (out : Bytes) : readString fuel out text = some (out ++ s, rest) := by
  induction h generalizing fuel out with
  | close rest =>
      obtain ⟨fuel, rfl⟩ := Nat.exists_eq_add_of_lt hFuel
      rw [readString, if_pos rfl, List.append_nil]
  | @piece front back text next rest hPiece _ ih =>
      cases fuel with
      | zero => omega
      | succ fuel =>
          obtain ⟨hTurn, hLess⟩ := readString_piece hPiece fuel out
          rw [hTurn, ih (by omega), List.append_assoc]

theorem readString_sound (fuel : Nat) (front text : Bytes) {out rest : Bytes}
    (h : readString fuel front text = some (out, rest)) :
    ∃ decoded, out = front ++ decoded ∧ StringTail decoded text rest := by
  induction fuel generalizing front text with
  | zero => cases h
  | succ fuel ih =>
      cases text with
      | nil => cases h
      | cons c behind =>
          rw [readString] at h
          by_cases hQuote : c = quote
          · rw [if_pos hQuote] at h
            obtain ⟨rfl, rfl⟩ := Prod.mk.inj (Option.some.inj h)
            exact ⟨[], (List.append_nil _).symm, hQuote ▸ .close _⟩
          rw [if_neg hQuote] at h
          by_cases hZero : c = 0
          · rw [if_pos hZero] at h
            cases h
          rw [if_neg hZero] at h
          by_cases hBackslash : c = backslash
          · rw [if_pos hBackslash] at h
            cases hEscape : readEscape behind with
            | none =>
                simp only [hEscape] at h
                cases h
            | some read =>
                obtain ⟨decoded, next⟩ := read
                simp only [hEscape] at h
                obtain ⟨more, rfl, hMore⟩ := ih _ _ h
                refine ⟨decoded ++ more, List.append_assoc .., ?_⟩
                rw [hBackslash]
                exact .piece (readEscape_sound hEscape) hMore
          · rw [if_neg hBackslash] at h
            by_cases hControl : c < 32
            · rw [if_pos hControl] at h
              cases h
            · rw [if_neg hControl] at h
              obtain ⟨more, rfl, hMore⟩ := ih _ _ h
              refine ⟨[c] ++ more, List.append_assoc .., ?_⟩
              exact .piece (.plain behind (not_or.mpr ⟨hQuote, hBackslash⟩) (UInt8.not_lt.mp hControl)) hMore

theorem parseString_iff {text out rest : Bytes} :
    parseString text = some (out, rest) ↔ ∃ behind, text = quote :: behind ∧ StringTail out behind rest := by
  constructor
  · intro h
    cases text with
    | nil => cases h
    | cons c behind =>
        rw [parseString] at h
        by_cases hQuote : c = quote
        · rw [if_pos hQuote] at h
          obtain ⟨decoded, rfl, hTail⟩ := readString_sound _ _ _ h
          exact ⟨behind, by rw [hQuote], hTail⟩
        · rw [if_neg hQuote] at h
          cases h
  · rintro ⟨behind, rfl, hTail⟩
    rw [parseString, if_pos rfl, readString_complete hTail (Nat.lt_succ_self _), List.nil_append]

/-- A string that may be a value: it is not empty and has no control character. -/
def IsRequired (s : Bytes) : Prop := s ≠ [] ∧ ∀ c ∈ s, ¬c < 32

theorem parseRequiredString_iff {text out rest : Bytes} :
    parseRequiredString text = some (out, rest) ↔ Reads (.string out) text rest ∧ IsRequired out := by
  have hReads : Reads (.string out) text rest ↔ parseString text = some (out, rest) := by
    rw [parseString_iff]
    constructor
    · rintro ⟨hTail⟩
      exact ⟨_, rfl, hTail⟩
    · rintro ⟨behind, rfl, hTail⟩
      exact .string hTail
  have hRefused (s : Bytes) : (s = [] || s.any (· < 32)) = true ↔ ¬IsRequired s := by
    simp only [IsRequired, Bool.or_eq_true, decide_eq_true_eq, List.any_eq_true, not_and_or, not_not, not_forall]
    simp
  rw [hReads, parseRequiredString]
  cases hParse : parseString text with
  | none => simp
  | some read =>
      obtain ⟨s, behind⟩ := read
      simp only
      by_cases hOk : IsRequired s
      · rw [if_neg fun h => (hRefused s).mp h hOk]
        constructor
        · intro h
          obtain ⟨rfl, rfl⟩ := Prod.mk.inj (Option.some.inj h)
          exact ⟨rfl, hOk⟩
        · exact fun h => h.1
      · rw [if_pos ((hRefused s).mpr hOk)]
        refine iff_of_false (by simp) ?_
        rintro ⟨h, hOut⟩
        obtain ⟨rfl, rfl⟩ := Prod.mk.inj (Option.some.inj h)
        exact hOk hOut

/-! ## Numbers -/

theorem le_foldl_digits (digits : Bytes) (value : Nat) : value ≤ digits.foldl (fun n c => 10 * n + (c.toNat - 48)) value := by
  induction digits generalizing value with
  | nil => exact Nat.le_refl value
  | cons c digits ih =>
      have hNext := ih (10 * value + (c.toNat - 48))
      rw [List.foldl_cons]
      omega

/-- The loop takes all digits, and gives up where their value passes the limit. -/
theorem readDigits_iff {limit value : Nat} (hValue : value ≤ limit) (text : Bytes) {n : Nat} {rest : Bytes} :
    readDigits limit value text = some (n, rest) ↔
      ∃ digits, text = digits ++ rest ∧ (∀ c ∈ digits, isDigit c = true) ∧
        digits.foldl (fun n c => 10 * n + (c.toNat - 48)) value = n ∧ n ≤ limit ∧ isDigit (peek rest) = false := by
  induction text generalizing value with
  | nil =>
      rw [readDigits, Option.some_inj, Prod.mk.injEq]
      constructor
      · rintro ⟨rfl, rfl⟩
        exact ⟨[], rfl, by simp, rfl, hValue, rfl⟩
      · rintro ⟨digits, hText, -, hFold, -, -⟩
        obtain ⟨rfl, rfl⟩ := List.append_eq_nil_iff.mp hText.symm
        exact ⟨hFold, rfl⟩
  | cons c behind ih =>
      rw [readDigits]
      by_cases hDigit : isDigit c = true
      · rw [if_pos hDigit]
        have hFirst {digits : Bytes} (hText : c :: behind = digits ++ rest) (hRest : isDigit (peek rest) = false) :
            ∃ more, digits = c :: more ∧ behind = more ++ rest := by
          cases digits with
          | nil =>
              rw [List.nil_append] at hText
              rw [← hText] at hRest
              exact absurd hDigit (by simpa [peek] using hRest)
          | cons d more =>
              obtain ⟨rfl, rfl⟩ := List.cons.inj hText
              exact ⟨more, rfl, rfl⟩
        have hSwap : value * 10 + (c.toNat - 48) = 10 * value + (c.toNat - 48) := by omega
        rw [hSwap]
        by_cases hOver : limit < 10 * value + (c.toNat - 48)
        · rw [if_pos (by simp [hOver])]
          refine iff_of_false (by simp) ?_
          rintro ⟨digits, hText, -, hFold, hLimit, hRest⟩
          obtain ⟨more, rfl, -⟩ := hFirst hText hRest
          have hMore := le_foldl_digits more (10 * value + (c.toNat - 48))
          rw [List.foldl_cons] at hFold
          omega
        · have hSmall : ¬limit / 10 < value := by omega
          rw [if_neg (by simp [hOver, hSmall]), ih (by omega)]
          constructor
          · rintro ⟨digits, rfl, hDigits, hFold, hLimit, hRest⟩
            exact ⟨c :: digits, rfl, List.forall_mem_cons.mpr ⟨hDigit, hDigits⟩, hFold, hLimit, hRest⟩
          · rintro ⟨digits, hText, hDigits, hFold, hLimit, hRest⟩
            obtain ⟨more, rfl, hBehind⟩ := hFirst hText hRest
            exact ⟨more, hBehind, (List.forall_mem_cons.mp hDigits).2, hFold, hLimit, hRest⟩
      · rw [if_neg hDigit, Option.some_inj, Prod.mk.injEq]
        constructor
        · rintro ⟨rfl, rfl⟩
          exact ⟨[], rfl, by simp, rfl, hValue, by simpa [peek] using hDigit⟩
        · rintro ⟨digits, hText, hDigits, hFold, -, -⟩
          cases digits with
          | nil => exact ⟨hFold, hText⟩
          | cons d more =>
              obtain ⟨rfl, -⟩ := List.cons.inj hText
              exact absurd (hDigits c List.mem_cons_self) hDigit

/-- What `parse_int` reads behind the sign. -/
def readMagnitude (limit : Nat) (text : Bytes) : Option (Nat × Bytes) :=
  if !isDigit (peek text) then none
  else
    match if peek text = ascii '0' then some (0, text.tail) else readDigits limit 0 text with
    | none => none
    | some (value, rest) => if isDigit (peek rest) then none else some (value, rest)

theorem parseInt_eq (text : Bytes) :
    parseInt text =
      if peek text = ascii '-' then (readMagnitude (2 ^ 63) text.tail).map fun read => (-(read.1 : Int), read.2)
      else (readMagnitude (2 ^ 63 - 1) text).map fun read => ((read.1 : Int), read.2) := by
  have hRead (limit : Nat) (digits : Bytes) (sign : Nat → Int) :
      (if !isDigit (peek digits) then none
        else
          match if peek digits = ascii '0' then some (0, digits.tail) else readDigits limit 0 digits with
          | none => none
          | some (value, rest) => if isDigit (peek rest) then none else some (sign value, rest)) =
        (readMagnitude limit digits).map fun read => (sign read.1, read.2) := by
    unfold readMagnitude
    by_cases hDigit : (!isDigit (peek digits)) = true
    · rw [if_pos hDigit, if_pos hDigit]
      rfl
    · rw [if_neg hDigit, if_neg hDigit]
      cases if peek digits = ascii '0' then some (0, digits.tail) else readDigits limit 0 digits with
      | none => rfl
      | some read =>
          obtain ⟨value, rest⟩ := read
          by_cases hMore : isDigit (peek rest) = true
          · simp [hMore]
          · simp [hMore]
  by_cases hMinus : peek text = ascii '-'
  · rw [if_pos hMinus]
    simp only [parseInt, hMinus, if_true]
    exact hRead (2 ^ 63) text.tail fun value => -(value : Int)
  · rw [if_neg hMinus]
    simp only [parseInt, hMinus, if_false]
    exact hRead (2 ^ 63 - 1) text fun value => (value : Int)

theorem isDigit_peek_of_isNatural {n : Nat} {digits : Bytes} (h : IsNatural n digits) (rest : Bytes) :
    isDigit (peek (digits ++ rest)) = true := by
  obtain ⟨c, more, rfl⟩ := List.exists_cons_of_ne_nil h.nonempty
  exact h.isDigits c List.mem_cons_self

theorem readMagnitude_iff {limit : Nat} {text rest : Bytes} {n : Nat} :
    readMagnitude limit text = some (n, rest) ↔
      ∃ digits, text = digits ++ rest ∧ IsNatural n digits ∧ n ≤ limit ∧ isDigit (peek rest) = false := by
  constructor
  · intro h
    unfold readMagnitude at h
    by_cases hDigit : (!isDigit (peek text)) = true
    · rw [if_pos hDigit] at h
      cases h
    rw [if_neg hDigit] at h
    by_cases hZero : peek text = ascii '0'
    · rw [if_pos hZero] at h
      simp only at h
      by_cases hMore : isDigit (peek text.tail) = true
      · rw [if_pos hMore] at h
        cases h
      · rw [if_neg hMore] at h
        obtain ⟨rfl, rfl⟩ := Prod.mk.inj (Option.some.inj h)
        exact ⟨[ascii '0'], cons_of_peek (by decide) hZero, isNatural_zero, Nat.zero_le _, Bool.eq_false_iff.mpr hMore⟩
    · rw [if_neg hZero] at h
      cases hRead : readDigits limit 0 text with
      | none =>
          rw [hRead] at h
          cases h
      | some read =>
          obtain ⟨value, behind⟩ := read
          rw [hRead] at h
          simp only at h
          obtain ⟨digits, rfl, hDigits, hFold, hLimit, hRest⟩ := (readDigits_iff (Nat.zero_le limit) text).mp hRead
          rw [if_neg (by simp [hRest])] at h
          obtain ⟨rfl, rfl⟩ := Prod.mk.inj (Option.some.inj h)
          refine ⟨digits, rfl, ⟨?_, hDigits, hFold, ?_⟩, hLimit, hRest⟩
          · rintro rfl
            rw [List.nil_append, hRest] at hDigit
            exact hDigit rfl
          · intro hHead
            obtain ⟨more, rfl⟩ := List.head?_eq_some_iff.mp hHead
            exact absurd rfl hZero
  · rintro ⟨digits, rfl, hNatural, hLimit, hRest⟩
    have hDigit := isDigit_peek_of_isNatural hNatural rest
    rw [readMagnitude, if_neg (by simp [hDigit])]
    by_cases hZero : peek (digits ++ rest) = ascii '0'
    · obtain rfl : digits = [ascii '0'] := by
        refine hNatural.lead ?_
        obtain ⟨c, more, rfl⟩ := List.exists_cons_of_ne_nil hNatural.nonempty
        exact congrArg some hZero
      obtain rfl : n = 0 := hNatural.value.symm
      rw [if_pos hZero]
      simp [hRest]
    · have hRead := (readDigits_iff (Nat.zero_le limit) (digits ++ rest)).mpr
        ⟨digits, rfl, hNatural.isDigits, hNatural.value, hLimit, hRest⟩
      rw [if_neg hZero, hRead]
      simp [hRest]

/-- A number is taken when it has its place in 64 bits and no digit is left behind it. -/
theorem parseInt_iff {text rest : Bytes} {n : Int} :
    parseInt text = some (n, rest) ↔ Whole n text rest ∧ (-2 ^ 63 ≤ n ∧ n < 2 ^ 63) ∧ isDigit (peek rest) = false := by
  rw [parseInt_eq]
  constructor
  · intro h
    by_cases hMinus : peek text = ascii '-'
    · rw [if_pos hMinus] at h
      obtain ⟨⟨value, behind⟩, hRead, hEq⟩ := Option.map_eq_some_iff.mp h
      obtain ⟨rfl, rfl⟩ := Prod.mk.inj hEq
      obtain ⟨digits, hDigits, hNatural, hLimit, hRest⟩ := readMagnitude_iff.mp hRead
      refine ⟨?_, by omega, hRest⟩
      rw [cons_of_peek (by decide) hMinus, hDigits]
      exact .negative _ hNatural
    · rw [if_neg hMinus] at h
      obtain ⟨⟨value, behind⟩, hRead, hEq⟩ := Option.map_eq_some_iff.mp h
      obtain ⟨rfl, rfl⟩ := Prod.mk.inj hEq
      obtain ⟨digits, rfl, hNatural, hLimit, hRest⟩ := readMagnitude_iff.mp hRead
      exact ⟨.natural _ hNatural, by omega, hRest⟩
  · rintro ⟨hWhole, ⟨hLow, hHigh⟩, hRest⟩
    cases hWhole with
    | @natural value digits _ hNatural =>
        have hMinus : ¬peek (digits ++ rest) = ascii '-' := by
          intro hEq
          have hDigit := isDigit_peek_of_isNatural hNatural rest
          rw [hEq] at hDigit
          exact absurd hDigit (by decide)
        rw [if_neg hMinus, readMagnitude_iff.mpr ⟨digits, rfl, hNatural, by omega, hRest⟩]
        rfl
    | @negative value digits _ hNatural =>
        rw [if_pos (show peek (ascii '-' :: (digits ++ rest)) = ascii '-' from rfl), List.tail_cons, readMagnitude_iff.mpr ⟨digits, rfl, hNatural, by omega, hRest⟩]
        rfl

/-! ## Members -/

/-- The members that are strings, with the check of each. -/
def textRules : List (Bytes × (Bytes → Bool)) :=
  [(bytes "active_backend", (· = bytes "sqlite")), (bytes "migration_id", fun _ => true), (bytes "database_path", fun _ => true),
    (bytes "archive_path", fun _ => true), (bytes "source_version", safeVersion), (bytes "target_version", safeVersion),
    (bytes "activation_timestamp", validTimestamp), (bytes "verification_result", (· = bytes "success"))]

/-- The values that the members of an activation state may have. -/
inductive WellTyped : Bytes → Value → Prop
  | stateVersion : WellTyped (bytes "state_version") (.int 1)
  | schemaVersion {n : Int} (hLow : 1 ≤ n) (hHigh : n < 2 ^ 63) : WellTyped (bytes "schema_version") (.int n)
  | text {key s : Bytes} {rule : Bytes → Bool} (hRule : (key, rule) ∈ textRules) (hRequired : IsRequired s)
      (hValid : rule s = true) : WellTyped key (.string s)

theorem intMember_some {text rest : Bytes} {valid : Int → Bool} {set : Int → ActivationState} {next : ActivationState}
    (h : intMember text valid set = some (next, rest)) : ∃ n, parseInt text = some (n, rest) ∧ valid n = true := by
  unfold intMember at h
  cases hRead : parseInt text with
  | none =>
      rw [hRead] at h
      cases h
  | some read =>
      obtain ⟨n, behind⟩ := read
      rw [hRead] at h
      simp only at h
      by_cases hValid : valid n = true
      · rw [if_pos hValid] at h
        obtain ⟨-, rfl⟩ := Prod.mk.inj (Option.some.inj h)
        exact ⟨n, rfl, hValid⟩
      · rw [if_neg hValid] at h
        cases h

theorem stringMember_some {text rest : Bytes} {valid : Bytes → Bool} {set : Bytes → ActivationState} {next : ActivationState}
    (h : stringMember text valid set = some (next, rest)) : ∃ s, parseRequiredString text = some (s, rest) ∧ valid s = true := by
  unfold stringMember at h
  cases hRead : parseRequiredString text with
  | none =>
      rw [hRead] at h
      cases h
  | some read =>
      obtain ⟨s, behind⟩ := read
      rw [hRead] at h
      simp only at h
      by_cases hValid : valid s = true
      · rw [if_pos hValid] at h
        obtain ⟨-, rfl⟩ := Prod.mk.inj (Option.some.inj h)
        exact ⟨s, rfl, hValid⟩
      · rw [if_neg hValid] at h
        cases h

/-- A string member takes a text that its check lets pass. -/
theorem wellTyped_of_stringMember {key text rest : Bytes} {rule : Bytes → Bool} (hRule : (key, rule) ∈ textRules)
    {set : Bytes → ActivationState} {next : ActivationState} (h : stringMember text rule set = some (next, rest)) :
    ∃ v, WellTyped key v ∧ Reads v text rest := by
  obtain ⟨s, hRead, hValid⟩ := stringMember_some h
  obtain ⟨hReads, hRequired⟩ := parseRequiredString_iff.mp hRead
  exact ⟨.string s, .text hRule hRequired hValid, hReads⟩

theorem parseMember_sound {key text rest : Bytes} {state next : ActivationState}
    (h : parseMember key state text = some (next, rest)) : ∃ v, WellTyped key v ∧ Reads v text rest := by
  unfold parseMember at h
  by_cases hState : key = bytes "state_version"
  · rw [if_pos hState] at h
    obtain ⟨n, hRead, hValid⟩ := intMember_some h
    obtain rfl : n = 1 := of_decide_eq_true hValid
    exact ⟨.int 1, hState ▸ .stateVersion, .int (parseInt_iff.mp hRead).1⟩
  rw [if_neg hState] at h
  by_cases hSchema : key = bytes "schema_version"
  · rw [if_pos hSchema] at h
    obtain ⟨n, hRead, hValid⟩ := intMember_some h
    obtain ⟨hWhole, ⟨-, hHigh⟩, -⟩ := parseInt_iff.mp hRead
    exact ⟨.int n, hSchema ▸ .schemaVersion (of_decide_eq_true hValid) hHigh, .int hWhole⟩
  rw [if_neg hSchema] at h
  by_cases hBackend : key = bytes "active_backend"
  · rw [if_pos hBackend] at h
    exact wellTyped_of_stringMember (hBackend ▸ .head _) h
  rw [if_neg hBackend] at h
  by_cases hId : key = bytes "migration_id"
  · rw [if_pos hId] at h
    exact wellTyped_of_stringMember (hId ▸ .tail _ (.head _)) h
  rw [if_neg hId] at h
  by_cases hDatabase : key = bytes "database_path"
  · rw [if_pos hDatabase] at h
    exact wellTyped_of_stringMember (hDatabase ▸ .tail _ (.tail _ (.head _))) h
  rw [if_neg hDatabase] at h
  by_cases hArchive : key = bytes "archive_path"
  · rw [if_pos hArchive] at h
    exact wellTyped_of_stringMember (hArchive ▸ .tail _ (.tail _ (.tail _ (.head _)))) h
  rw [if_neg hArchive] at h
  by_cases hSource : key = bytes "source_version"
  · rw [if_pos hSource] at h
    exact wellTyped_of_stringMember (hSource ▸ .tail _ (.tail _ (.tail _ (.tail _ (.head _))))) h
  rw [if_neg hSource] at h
  by_cases hTarget : key = bytes "target_version"
  · rw [if_pos hTarget] at h
    exact wellTyped_of_stringMember (hTarget ▸ .tail _ (.tail _ (.tail _ (.tail _ (.tail _ (.head _)))))) h
  rw [if_neg hTarget] at h
  by_cases hTime : key = bytes "activation_timestamp"
  · rw [if_pos hTime] at h
    exact wellTyped_of_stringMember (hTime ▸ .tail _ (.tail _ (.tail _ (.tail _ (.tail _ (.tail _ (.head _))))))) h
  rw [if_neg hTime] at h
  by_cases hResult : key = bytes "verification_result"
  · rw [if_pos hResult] at h
    exact wellTyped_of_stringMember (hResult ▸ .tail _ (.tail _ (.tail _ (.tail _ (.tail _ (.tail _ (.tail _ (.head _)))))))) h
  rw [if_neg hResult] at h
  cases h

/-- The member of each string key. -/
theorem parseMember_text {key : Bytes} {rule : Bytes → Bool} (h : (key, rule) ∈ textRules) :
    ∃ set : ActivationState → Bytes → ActivationState,
      ∀ state text, parseMember key state text = stringMember text rule (set state) := by
  simp only [textRules, List.mem_cons, Prod.mk.injEq, List.not_mem_nil, or_false] at h
  rcases h with ⟨rfl, rfl⟩ | ⟨rfl, rfl⟩ | ⟨rfl, rfl⟩ | ⟨rfl, rfl⟩ | ⟨rfl, rfl⟩ | ⟨rfl, rfl⟩ | ⟨rfl, rfl⟩ | ⟨rfl, rfl⟩
  · exact ⟨_, fun state text => rfl⟩
  · exact ⟨_, fun state text => rfl⟩
  · exact ⟨_, fun state text => rfl⟩
  · exact ⟨_, fun state text => rfl⟩
  · exact ⟨_, fun state text => rfl⟩
  · exact ⟨_, fun state text => rfl⟩
  · exact ⟨_, fun state text => rfl⟩
  · exact ⟨_, fun state text => rfl⟩

theorem parseMember_complete {key text rest : Bytes} {v : Value} (hTyped : WellTyped key v) (hReads : Reads v text rest)
    (hRest : isDigit (peek rest) = false) (state : ActivationState) : ∃ next, parseMember key state text = some (next, rest) := by
  have hInt {n : Int} (hBounds : -2 ^ 63 ≤ n ∧ n < 2 ^ 63) (hReads : Reads (.int n) text rest) :
      parseInt text = some (n, rest) := by
    cases hReads with
    | int hWhole => exact parseInt_iff.mpr ⟨hWhole, hBounds, hRest⟩
  cases hTyped with
  | stateVersion =>
      have hRead := hInt (by omega) hReads
      refine ⟨{ state with stateVersion := 1 }, ?_⟩
      rw [parseMember, if_pos rfl, intMember, hRead]
      rfl
  | @schemaVersion n hLow hHigh =>
      have hRead := hInt (by omega) hReads
      refine ⟨{ state with schemaVersion := n }, ?_⟩
      rw [parseMember, if_neg (by decide), if_pos rfl, intMember, hRead]
      exact if_pos (decide_eq_true hLow)
  | @text _ s rule hRule hRequired hValid =>
      obtain ⟨set, hMember⟩ := parseMember_text hRule
      refine ⟨set state s, ?_⟩
      rw [hMember, stringMember, parseRequiredString_iff.mpr ⟨hReads, hRequired⟩]
      exact if_pos hValid

/-! ## Rows of members -/

theorem skipWs_of_blanks {text start : Bytes} (h : Blanks text start) (hHead : isWs (peek start) = false) :
    skipWs text = start := by
  obtain ⟨blanks, hBlanks, rfl⟩ := h
  have hWs : ∀ c ∈ blanks, isWs c = true := hBlanks
  rw [skipWs, List.dropWhile_append_of_pos hWs]
  cases start with
  | nil => rfl
  | cons c rest => exact dropWhile_eq_self_of_head hHead

theorem length_lt_of_stringTail {s text rest : Bytes} (h : StringTail s text rest) : rest.length < text.length := by
  induction h with
  | close rest => simp
  | piece hPiece _ ih => exact ih.trans (readString_piece hPiece 0 []).2

/-- A value starts at its first byte, which is no blank, and takes that byte at least. -/
theorem WellTyped.starts {key text rest : Bytes} {v : Value} (hTyped : WellTyped key v) (hReads : Reads v text rest) :
    isWs (peek text) = false ∧ rest.length < text.length := by
  have hNotWs {c : UInt8} (h : isDigit c = true) : isWs c = false := by
    cases hWs : isWs c with
    | false => rfl
    | true =>
        simp only [isWs, Bool.or_eq_true, decide_eq_true_eq] at hWs
        rcases hWs with ((rfl | rfl) | rfl) | rfl <;> exact absurd h (by decide)
  have hInt {n : Int} (h : Whole n text rest) : isWs (peek text) = false ∧ rest.length < text.length := by
    cases h with
    | @natural n digits _ hNatural =>
        have hLength := List.length_pos_of_ne_nil hNatural.nonempty
        exact ⟨hNotWs (isDigit_peek_of_isNatural hNatural rest), by rw [List.length_append]; omega⟩
    | @negative n digits _ hNatural =>
        refine ⟨rfl, ?_⟩
        rw [List.length_cons, List.length_append]
        omega
  cases hReads with
  | string hTail => exact ⟨rfl, (length_lt_of_stringTail hTail).trans (by simp)⟩
  | int hWhole => exact hInt hWhole
  | true rest => cases hTyped
  | false rest => cases hTyped
  | array hRow => cases hTyped
  | object hRow => cases hTyped

/-- Behind a member stands a comma or the closing bracket. -/
theorem peek_of_row {members : List (Bytes × Value)} {text rest : Bytes}
    (h : Json.Row (Member Reads) (ascii '\x7d') false members text rest) : isDigit (peek text) = false := by
  have hBlank {c : UInt8} {more : Bytes} (hBlanks : Blanks text (c :: more)) (hDigit : isDigit c = false) :
      isDigit (peek text) = false := by
    obtain ⟨blanks, hAll, rfl⟩ := hBlanks
    cases blanks with
    | nil => exact hDigit
    | cons d blanks =>
        have hWs := hAll d List.mem_cons_self
        simp only [isBlank, Bool.or_eq_true, decide_eq_true_eq] at hWs
        rcases hWs with ((rfl | rfl) | rfl) | rfl <;> rfl
  cases h with
  | close hClose => exact hBlank hClose (by decide)
  | next hComma _ _ _ => exact hBlank hComma (by decide)

/-- What a turn of the loop does with a member that is new. -/
theorem parseMembers_turn {first : Bool} {text start next : Bytes} {key : Bytes} {v : Value} {seen : List Bytes}
    (hOpen : peek (skipWs text) ≠ ascii '\x7d')
    (hStart : (if first then some (skipWs text) else separator (skipWs text)) = some start)
    (hMember : Member Reads (key, v) start next) (hTyped : WellTyped key v) (hNew : key ∉ seen)
    (hNext : isDigit (peek next) = false) (fuel : Nat) (state : ActivationState) :
    ∃ state', parseMembers (fuel + 1) first seen state text = parseMembers fuel false (key :: seen) state' next := by
  obtain ⟨hKey, hColon, hBlanks, hValue⟩ := hMember
  obtain ⟨state', hRead⟩ := parseMember_complete hTyped hValue hNext state
  refine ⟨state', ?_⟩
  have hString := parseString_iff.mpr ⟨_, rfl, hKey⟩
  rw [parseMembers]
  simp only [if_neg hOpen, hStart, hString, if_neg hNew, skipWs_of_blanks hColon rfl]
  rw [skipByte, if_pos rfl]
  simp only [skipWs_of_blanks hBlanks (hTyped.starts hValue).1, hRead]

theorem length_lt_of_member {key : Bytes} {v : Value} {text rest : Bytes} (hTyped : WellTyped key v)
    (h : Member Reads (key, v) text rest) : rest.length < text.length ∧ peek text = quote := by
  have hBlank {text rest : Bytes} (h : Blanks text rest) : rest.length ≤ text.length := by
    obtain ⟨blanks, -, rfl⟩ := h
    rw [List.length_append]
    omega
  obtain ⟨hKey, hColon, hBlanks, hValue⟩ := h
  have hKeyLength := length_lt_of_stringTail hKey
  have hColonLength := hBlank hColon
  have hBlanksLength := hBlank hBlanks
  have hValueLength := (hTyped.starts hValue).2
  simp only [List.length_cons] at hColonLength ⊢
  exact ⟨by omega, rfl⟩

theorem notMem_seen_cons {key : Bytes} {more : List (Bytes × Value)} {seen : List Bytes} (hKey : key ∉ more.map Prod.fst)
    (hSeen : ∀ m ∈ more, m.1 ∉ seen) : ∀ m ∈ more, m.1 ∉ key :: seen := by
  intro m hm hMem
  rcases List.mem_cons.mp hMem with rfl | hMem
  · exact hKey (List.mem_map_of_mem hm)
  · exact hSeen m hm hMem

/-- The loop takes every row of new members. -/
theorem parseMembers_complete {first : Bool} {members : List (Bytes × Value)} {text behind : Bytes}
    (h : Json.Row (Member Reads) (ascii '\x7d') first members text behind) (hTyped : ∀ m ∈ members, WellTyped m.1 m.2)
    {seen : List Bytes} (hDistinct : (members.map Prod.fst).Nodup) (hSeen : ∀ m ∈ members, m.1 ∉ seen) {fuel : Nat}
    (hFuel : text.length < fuel) (state : ActivationState) :
    ∃ last, parseMembers fuel first seen state text = some ((members.map Prod.fst).reverse ++ seen, last, behind) := by
  induction h generalizing seen fuel state with
  | @close first text rest hClose =>
      obtain ⟨fuel, rfl⟩ : ∃ more, fuel = more + 1 := ⟨fuel - 1, by omega⟩
      refine ⟨state, ?_⟩
      rw [parseMembers, skipWs_of_blanks hClose rfl]
      rfl
  | @first member more text start next rest hBlanks hItem hMore ih =>
      obtain ⟨key, v⟩ := member
      obtain ⟨fuel, rfl⟩ : ∃ more, fuel = more + 1 := ⟨fuel - 1, by omega⟩
      obtain ⟨hHere, hOthers⟩ := List.forall_mem_cons.mp hTyped
      obtain ⟨hNew, hRest⟩ := List.forall_mem_cons.mp hSeen
      obtain ⟨hKey, hNodup⟩ := List.nodup_cons.mp hDistinct
      obtain ⟨hLess, hQuote⟩ := length_lt_of_member hHere hItem
      have hSkip : skipWs text = start := skipWs_of_blanks hBlanks (by rw [hQuote]; rfl)
      obtain ⟨state', hTurn⟩ := @parseMembers_turn true _ _ _ _ _ _ (by rw [hSkip, hQuote]; decide) (by rw [hSkip]; rfl) hItem hHere
        hNew (peek_of_row hMore) fuel state
      have hSize : start.length ≤ text.length := by
        obtain ⟨blanks, -, rfl⟩ := hBlanks
        rw [List.length_append]
        omega
      have hLength : next.length < fuel := by omega
      obtain ⟨last, hLast⟩ := ih hOthers hNodup (notMem_seen_cons hKey hRest) hLength state'
      refine ⟨last, ?_⟩
      rw [hTurn, hLast, List.map_cons, List.reverse_cons, List.append_assoc, List.singleton_append]
  | @next member more text comma start next rest hComma hBlanks hItem hMore ih =>
      obtain ⟨key, v⟩ := member
      obtain ⟨fuel, rfl⟩ : ∃ more, fuel = more + 1 := ⟨fuel - 1, by omega⟩
      obtain ⟨hHere, hOthers⟩ := List.forall_mem_cons.mp hTyped
      obtain ⟨hNew, hRest⟩ := List.forall_mem_cons.mp hSeen
      obtain ⟨hKey, hNodup⟩ := List.nodup_cons.mp hDistinct
      obtain ⟨hLess, hQuote⟩ := length_lt_of_member hHere hItem
      have hSkip : skipWs text = ascii ',' :: comma := skipWs_of_blanks hComma rfl
      have hStart : skipWs comma = start := skipWs_of_blanks hBlanks (by rw [hQuote]; rfl)
      have hMark : ascii ',' ≠ ascii '\x7d' := by decide
      have hSeparator : separator (skipWs text) = some start := by
        have hComma : ¬peek (ascii ',' :: comma) ≠ ascii ',' := not_not_intro rfl
        have hOpen : peek start ≠ ascii '\x7d' := by
          rw [hQuote]
          decide
        rw [hSkip, separator, if_neg hComma]
        simp only [List.tail_cons, hStart, if_neg hOpen]
      obtain ⟨state', hTurn⟩ := @parseMembers_turn false _ _ _ _ _ _ (by rw [hSkip]; exact hMark) hSeparator hItem hHere
        hNew (peek_of_row hMore) fuel state
      have hSize : start.length ≤ text.length := by
        obtain ⟨front, -, rfl⟩ := hComma
        obtain ⟨blanks, -, rfl⟩ := hBlanks
        simp only [List.length_append, List.length_cons]
        omega
      have hLength : next.length < fuel := by omega
      obtain ⟨last, hLast⟩ := ih hOthers hNodup (notMem_seen_cons hKey hRest) hLength state'
      refine ⟨last, ?_⟩
      rw [hTurn, hLast, List.map_cons, List.reverse_cons, List.append_assoc, List.singleton_append]

theorem separator_some {text start : Bytes} (h : separator text = some start) :
    ∃ behind, text = ascii ',' :: behind ∧ start = skipWs behind := by
  unfold separator at h
  by_cases hComma : peek text = ascii ','
  · rw [if_neg (not_not_intro hComma)] at h
    refine ⟨text.tail, cons_of_peek (by decide) hComma, ?_⟩
    by_cases hClose : peek (skipWs text.tail) = ascii '\x7d'
    · rw [if_pos hClose] at h
      cases h
    · rw [if_neg hClose] at h
      exact (Option.some.inj h).symm
  · rw [if_pos hComma] at h
    cases h

/-- The loop takes nothing but rows of new members. -/
theorem parseMembers_sound (fuel : Nat) {first : Bool} {seen found : List Bytes} {state last : ActivationState}
    {text behind : Bytes} (hSeen : seen.Nodup) (h : parseMembers fuel first seen state text = some (found, last, behind)) :
    ∃ members, Json.Row (Member Reads) (ascii '\x7d') first members text behind ∧
      (∀ m ∈ members, WellTyped m.1 m.2) ∧ found = (members.map Prod.fst).reverse ++ seen ∧ found.Nodup := by
  induction fuel generalizing first seen state text with
  | zero => cases h
  | succ fuel ih =>
      rw [parseMembers] at h
      by_cases hClose : peek (skipWs text) = ascii '\x7d'
      · simp only [if_pos hClose] at h
        obtain ⟨rfl, hRest⟩ := Prod.mk.inj (Option.some.inj h)
        obtain ⟨-, rfl⟩ := Prod.mk.inj hRest
        refine ⟨[], .close ?_, by simp, rfl, hSeen⟩
        rw [← cons_of_peek (by decide) hClose]
        exact blanks_skipWs text
      simp only [if_neg hClose] at h
      cases hStart : if first = true then some (skipWs text) else separator (skipWs text) with
      | none =>
          simp only [hStart] at h
          cases h
      | some start =>
          simp only [hStart] at h
          cases hKey : parseString start with
          | none =>
              simp only [hKey] at h
              cases h
          | some read =>
              obtain ⟨key, colon⟩ := read
              simp only [hKey] at h
              by_cases hMem : key ∈ seen
              · rw [if_pos hMem] at h
                cases h
              rw [if_neg hMem] at h
              cases hColon : skipByte (ascii ':') (skipWs colon) with
              | none =>
                  simp only [hColon] at h
                  cases h
              | some value =>
                  simp only [hColon] at h
                  cases hRead : parseMember key state (skipWs value) with
                  | none =>
                      simp only [hRead] at h
                      cases h
                  | some read =>
                      obtain ⟨next, rest⟩ := read
                      simp only [hRead] at h
                      obtain ⟨members, hRow, hTyped, hFound, hNodup⟩ := ih (List.nodup_cons.mpr ⟨hMem, hSeen⟩) h
                      obtain ⟨v, hValue, hReads⟩ := parseMember_sound hRead
                      obtain ⟨tail, rfl, hTail⟩ := parseString_iff.mp hKey
                      have hMember : Member Reads (key, v) (quote :: tail) rest := by
                        refine .mk hTail ?_ (blanks_skipWs value) hReads
                        rw [← skipByte_some hColon]
                        exact blanks_skipWs colon
                      refine ⟨(key, v) :: members, ?_, List.forall_mem_cons.mpr ⟨hValue, hTyped⟩, ?_, hNodup⟩
                      · cases first with
                        | true =>
                            obtain hText : skipWs text = quote :: tail := Option.some.inj hStart
                            exact .first (hText ▸ blanks_skipWs text) hMember hRow
                        | false =>
                            obtain ⟨comma, hComma, hSkip⟩ := separator_some hStart
                            exact .next (hComma ▸ blanks_skipWs text) (hSkip ▸ blanks_skipWs comma) hMember hRow
                      · rw [hFound, List.map_cons, List.reverse_cons, List.append_assoc, List.singleton_append]

/-! ## Whole texts -/

/-- Each of the ten keys, once, with a value that it may have. -/
structure IsStateOf (members : List (Bytes × Value)) : Prop where
  keys : (members.map Prod.fst).Perm required
  typed : ∀ m ∈ members, WellTyped m.1 m.2

/-- The texts that are an activation state up to their end. -/
def IsState (content : Bytes) : Prop := ∃ members, IsDocument content (.object members) ∧ IsStateOf members

/-- A state behind blanks, and the text behind it. -/
def StartsWithState (content behind : Bytes) : Prop :=
  ∃ members start, Blanks content start ∧ Reads (.object members) start behind ∧ IsStateOf members

/-- A NUL byte behind the state hides the text behind it. -/
def HidesText (content : Bytes) : Prop := ∃ behind more, StartsWithState content behind ∧ Blanks behind (0 :: more)

/-- The parser of a text and the grammar agree. -/
def AcceptsExactly (content : Bytes) : Prop := (∃ state, parse content = some state) ↔ IsState content

theorem required_nodup : required.Nodup := by decide

/-- The count of the keys and the search for each one say that the keys are the required ones. -/
theorem required_iff {seen : List Bytes} :
    (seen.length = required.length && required.all (seen.contains ·)) = true ↔ seen.Perm required := by
  simp only [Bool.and_eq_true, decide_eq_true_eq, List.all_eq_true, List.contains_iff_mem]
  constructor
  · rintro ⟨hLength, hAll⟩
    exact ((List.subperm_of_subset required_nodup hAll).perm_of_length_le hLength.le).symm
  · intro h
    exact ⟨h.length_eq, fun key hKey => h.mem_iff.mpr hKey⟩

/-- The loop over the members finds the state in front of a text. -/
theorem startsWithState_iff {content behind : Bytes} :
    StartsWithState content behind ↔
      ∃ rest seen last, skipByte (ascii '\x7b') (skipWs content) = some rest ∧
        parseMembers (rest.length + 1) true [] {} rest = some (seen, last, behind) ∧ seen.Perm required := by
  constructor
  · rintro ⟨members, start, hBlanks, hReads, hKeys, hTyped⟩
    cases hReads with
    | @object _ text _ hRow =>
        have hDistinct := hKeys.nodup_iff.mpr required_nodup
        have hNew : ∀ m ∈ members, m.1 ∉ ([] : List Bytes) := fun _ _ => List.not_mem_nil
        obtain ⟨last, hParse⟩ := parseMembers_complete hRow hTyped hDistinct hNew (Nat.lt_succ_self _) {}
        refine ⟨text, _, last, ?_, hParse, ?_⟩
        · rw [skipWs_of_blanks hBlanks rfl]
          rfl
        · rw [List.append_nil]
          exact (List.reverse_perm _).trans hKeys
  · rintro ⟨rest, seen, last, hOpen, hParse, hKeys⟩
    obtain ⟨members, hRow, hTyped, hSeen, -⟩ := parseMembers_sound _ List.nodup_nil hParse
    rw [List.append_nil] at hSeen
    refine ⟨members, skipWs content, blanks_skipWs content, ?_, ?_, hTyped⟩
    · rw [skipByte_some hOpen]
      exact .object hRow
    · exact ((List.reverse_perm _).symm.trans (hSeen ▸ hKeys))

theorem parse_isSome_iff (content : Bytes) :
    (∃ state, parse content = some state) ↔ ∃ behind, StartsWithState content behind ∧ peek (skipWs behind) = 0 := by
  constructor
  · rintro ⟨state, h⟩
    unfold parse at h
    cases hOpen : skipByte (ascii '\x7b') (skipWs content) with
    | none =>
        simp only [hOpen] at h
        cases h
    | some rest =>
        simp only [hOpen] at h
        cases hParse : parseMembers (rest.length + 1) true [] {} rest with
        | none =>
            simp only [hParse] at h
            cases h
        | some read =>
            obtain ⟨seen, last, behind⟩ := read
            simp only [hParse] at h
            by_cases hEnd : peek (skipWs behind) = 0
            · rw [if_neg (not_not_intro hEnd)] at h
              by_cases hKeys : (seen.length = required.length && required.all (seen.contains ·)) = true
              · exact ⟨behind, startsWithState_iff.mpr ⟨rest, seen, last, hOpen, hParse, required_iff.mp hKeys⟩, hEnd⟩
              · rw [if_neg hKeys] at h
                cases h
            · rw [if_pos hEnd] at h
              cases h
  · rintro ⟨behind, hStarts, hEnd⟩
    obtain ⟨rest, seen, last, hOpen, hParse, hKeys⟩ := startsWithState_iff.mp hStarts
    refine ⟨last, ?_⟩
    rw [parse]
    simp only [hOpen, hParse]
    rw [if_neg (not_not_intro hEnd), if_pos (required_iff.mpr hKeys)]

theorem startsWithState_unique {content first second : Bytes} (hFirst : StartsWithState content first)
    (hSecond : StartsWithState content second) : first = second := by
  obtain ⟨rest, seen, last, hOpen, hParse, -⟩ := startsWithState_iff.mp hFirst
  obtain ⟨rest', seen', last', hOpen', hParse', -⟩ := startsWithState_iff.mp hSecond
  rw [hOpen, Option.some_inj] at hOpen'
  subst hOpen'
  rw [hParse] at hParse'
  exact (Prod.mk.inj (Prod.mk.inj (Option.some.inj hParse')).2).2

theorem isState_iff {content : Bytes} : IsState content ↔ ∃ behind, StartsWithState content behind ∧ skipWs behind = [] := by
  constructor
  · rintro ⟨members, ⟨start, behind, hBlanks, hReads, hEnd⟩, hState⟩
    exact ⟨behind, ⟨members, start, hBlanks, hReads, hState⟩, skipWs_of_blanks hEnd rfl⟩
  · rintro ⟨behind, ⟨members, start, hBlanks, hReads, hState⟩, hEnd⟩
    exact ⟨members, ⟨start, behind, hBlanks, hReads, hEnd ▸ blanks_skipWs behind⟩, hState⟩

/-- The parser takes the end of the text and a NUL byte for the same. -/
theorem acceptsExactly_iff (content : Bytes) : AcceptsExactly content ↔ ¬HidesText content := by
  unfold AcceptsExactly
  rw [parse_isSome_iff, isState_iff]
  constructor
  · rintro h ⟨behind, more, hStarts, hBlanks⟩
    have hNul : skipWs behind = 0 :: more := skipWs_of_blanks hBlanks rfl
    obtain ⟨other, hOther, hEnd⟩ := h.mp ⟨behind, hStarts, by rw [hNul]; rfl⟩
    rw [startsWithState_unique hStarts hOther, hEnd] at hNul
    cases hNul
  · intro h
    constructor
    · rintro ⟨behind, hStarts, hEnd⟩
      refine ⟨behind, hStarts, ?_⟩
      cases hRest : skipWs behind with
      | nil => rfl
      | cons c more =>
          rw [hRest] at hEnd
          obtain rfl : c = 0 := hEnd
          exact absurd ⟨behind, more, hStarts, hRest ▸ blanks_skipWs behind⟩ h
    · rintro ⟨behind, hStarts, hEnd⟩
      exact ⟨behind, hStarts, by rw [hEnd]; rfl⟩

/-- The members of a state, with a NUL byte and a byte more behind them. -/
def hiddenMembers : Bytes :=
  bytes "\"state_version\":1,\"active_backend\":\"sqlite\",\"migration_id\":\"a\",\"database_path\":\"/d\"," ++
    bytes "\"archive_path\":\"/a\",\"source_version\":\"v1.0.0\",\"target_version\":\"v1.0.1\"," ++
    bytes "\"activation_timestamp\":\"20240101T000000Z\",\"schema_version\":1,\"verification_result\":\"success\"\x7d" ++
    [0, ascii 'x']

def hiddenText : Bytes := ascii '\x7b' :: hiddenMembers

theorem not_forall_acceptsExactly : ¬∀ content, AcceptsExactly content := by
  intro h
  have hRead : (parseMembers (hiddenMembers.length + 1) true [] {} hiddenMembers).map (fun read => (read.1, read.2.2)) =
      some (required.reverse, [0, ascii 'x']) := by
    unfold hiddenMembers
    repeat rw [bytes_ofList]
    decide +kernel
  obtain ⟨⟨seen, last, behind⟩, hMembers, hEq⟩ := Option.map_eq_some_iff.mp hRead
  obtain ⟨rfl, rfl⟩ := Prod.mk.inj hEq
  have hStarts : StartsWithState hiddenText [0, ascii 'x'] :=
    startsWithState_iff.mpr ⟨hiddenMembers, _, last, rfl, hMembers, List.reverse_perm _⟩
  have hParse := (parse_isSome_iff hiddenText).mpr ⟨_, hStarts, rfl⟩
  obtain ⟨behind, hState, hEnd⟩ := isState_iff.mp ((h hiddenText).mp hParse)
  rw [startsWithState_unique hState hStarts] at hEnd
  exact absurd hEnd (by decide)

end ActivationState

end ContainerCP.Storage
