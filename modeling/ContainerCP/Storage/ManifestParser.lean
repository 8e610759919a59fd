import ContainerCP.Storage.ActivationState
import ContainerCP.Text.JsonGrammar
import Mathlib.Data.List.Forall2
import Mathlib.Data.List.Nodup

/-! The parser of an archive's manifest, which reads its members by hand, and what the
grammar says about the texts that it takes. -/
namespace ContainerCP.Storage

open Json

structure ParsedFileEntry where
  filename : Bytes := []
  size : Nat := 0
  sha256 : Bytes := []
  recordCount : Nat := 0
  optional : Bool := false
  present : Bool := false
  valid : Bool := false
  deriving DecidableEq

/-- The four containers that `parse_manifest` fills. -/
structure ParsedManifest where
  strings : List (Bytes × Bytes) := []
  ints : List (Bytes × Int) := []
  bools : List (Bytes × Bool) := []
  fileEntries : List ParsedFileEntry := []
  deriving DecidableEq

namespace ManifestParser

open ActivationState (peek isWs skipWs hexValue encodeUnit readUnit)

/-- What a backslash starts. -/
def readEscape : Bytes → Option (Bytes × Bytes)
  | [] => none
  | c :: rest =>
      if c = quote || c = backslash || c = ascii '/' then some ([c], rest)
      else if c = ascii 'n' then some ([10], rest)
      else if c = ascii 'r' then some ([13], rest)
      else if c = ascii 't' then some ([9], rest)
      else if c = ascii 'u' then readUnit rest
      else none

/-- The loop of `parse_string`. Every turn takes a byte at least. A `char` is signed, so
that a byte above 127 is below the blank too. -/
def readString : Nat → Bytes → Bytes → Option (Bytes × Bytes)
  | 0, _, _ => none
  | _ + 1, _, [] => none
  | fuel + 1, out, c :: rest =>
      if c = quote then some (out, rest)
      else if c = 0 then none
      else if c = backslash then
        match readEscape rest with
        | none => none
        | some (decoded, rest) => readString fuel (out ++ decoded) rest
      else if c < 32 || 128 ≤ c then none
      else readString fuel (out ++ [c]) rest

def parseString : Bytes → Option (Bytes × Bytes)
  | [] => none
  | c :: rest => if c = quote then readString (rest.length + 1) [] rest else none

/-- The digits of `parse_int`, in 64 bits. -/
def readDigits (limit : Nat) : Nat → Bytes → Option (Nat × Bytes)
  | value, [] => some (value, [])
  | value, c :: rest =>
      if isDigit c then
        let next := (value * 10 + (c.toNat - 48)) % 2 ^ 64
        if (2 ^ 64 - 1) / 10 < value then none
        else if next < value then none
        else if limit < next then none
        else readDigits limit next rest
      else some (value, c :: rest)

/-- `parse_int`. A zero ends the number. -/
def parseInt (text : Bytes) : Option (Int × Bytes) :=
  let text := skipWs text
  let negative := peek text = ascii '-'
  let digits := if negative then text.tail else text
  let limit := if negative then 2 ^ 63 else 2 ^ 63 - 1
  if !isDigit (peek digits) then none
  else if peek digits = ascii '0' then some (0, digits.tail)
  else
    match readDigits limit 0 digits with
    | none => none
    | some (value, rest) => some (if negative then -(value : Int) else value, rest)

def parseBool (text : Bytes) : Option (Bool × Bytes) :=
  let text := skipWs text
  if text.take 4 = bytes "true" then some (true, text.drop 4)
  else if text.take 5 = bytes "false" then some (false, text.drop 5)
  else none

section
variable {σ : Type}

/-- The loop over what stands between two brackets. Every turn takes a byte at least. -/
def parseRow (bracket : UInt8) (item : σ → Bytes → Option (σ × Bytes)) : Nat → Bool → σ → Bytes → Option (σ × Bytes)
  | 0, _, _, _ => none
  | fuel + 1, first, state, text =>
      let text := skipWs text
      if peek text = bracket then some (state, text.tail)
      else
        match if first then some text else (skipByte (ascii ',') text).map skipWs with
        | none => none
        | some text =>
            match item state text with
            | none => none
            | some (state, rest) => parseRow bracket item fuel false state rest

/-- A key that was not seen, a colon and the value. -/
def parseMember (value : Bytes → σ → Bytes → Option (σ × Bytes)) (state : List Bytes × σ) (text : Bytes) :
    Option ((List Bytes × σ) × Bytes) :=
  match parseString text with
  | none => none
  | some (key, rest) =>
      if key ∈ state.1 then none
      else
        match skipByte (ascii ':') (skipWs rest) with
        | none => none
        | some rest =>
            match value key state.2 (skipWs rest) with
            | none => none
            | some (next, rest) => some ((key :: state.1, next), rest)

end

/-- A member of a file entry. -/
def entryValue (key : Bytes) (pfe : ParsedFileEntry) (text : Bytes) : Option (ParsedFileEntry × Bytes) :=
  if key = bytes "filename" then
    (parseString text).map fun (value, rest) => ({ pfe with filename := value }, rest)
  else if key = bytes "sha256" then
    (parseString text).map fun (value, rest) => ({ pfe with sha256 := value }, rest)
  else if key = bytes "size" || key = bytes "record_count" then
    if peek text = quote then none
    else
      match parseInt text with
      | none => none
      | some (n, rest) =>
          if n < 0 then none
          else if key = bytes "size" then some ({ pfe with size := n.toNat }, rest)
          else some ({ pfe with recordCount := n.toNat }, rest)
  else if key = bytes "optional" then
    (parseBool text).map fun (value, rest) => ({ pfe with optional := value }, rest)
  else if key = bytes "present" then
    (parseBool text).map fun (value, rest) => ({ pfe with present := value }, rest)
  else none

/-- `kRequired`. -/
def required : List Bytes :=
  [bytes "filename", bytes "sha256", bytes "size", bytes "record_count", bytes "optional", bytes "present"]

/-- One entry of the files. -/
def parseEntry (entries : List ParsedFileEntry) (text : Bytes) : Option (List ParsedFileEntry × Bytes) :=
  match skipByte (ascii '\x7b') text with
  | none => none
  | some rest =>
      match parseRow (ascii '\x7d') (parseMember entryValue) (rest.length + 1) true ([], {}) rest with
      | none => none
      | some ((seen, pfe), rest) =>
          if seen.length = required.length && required.all (seen.contains ·) then
            some (entries ++ [{ pfe with valid := true }], rest)
          else none

/-- `kStr`. -/
def stringKeys : List Bytes :=
  [bytes "manifest_version", bytes "migration_id", bytes "source_version", bytes "target_version",
    bytes "migration_timestamp", bytes "source_directory", bytes "archive_directory", bytes "verification_result",
    bytes "initial_integrity_check", bytes "reopened_integrity_check"]

/-- A member of the manifest. -/
def manifestValue (key : Bytes) (manifest : ParsedManifest) (text : Bytes) : Option (ParsedManifest × Bytes) :=
  if key = bytes "files" then
    match skipByte (ascii '[') text with
    | none => none
    | some rest =>
        (parseRow (ascii ']') parseEntry (rest.length + 1) true manifest.fileEntries rest).map fun (entries, rest) =>
          ({ manifest with fileEntries := entries }, rest)
  else if peek text = quote then
    match parseString text with
    | none => none
    | some (value, rest) =>
        if key ∈ stringKeys then some ({ manifest with strings := (key, value) :: manifest.strings }, rest) else none
  else if peek text = ascii 't' || peek text = ascii 'f' then
    match parseBool text with
    | none => none
    | some (value, rest) =>
        if key = bytes "checksum_match" then some ({ manifest with bools := (key, value) :: manifest.bools }, rest)
        else none
  else
    match parseInt text with
    | none => none
    | some (value, rest) =>
        if key = bytes "initial_fk_violations" || key = bytes "reopened_fk_violations" then
          some ({ manifest with ints := (key, value) :: manifest.ints }, rest)
        else none

/-- `parse_manifest`. -/
def parseManifest (json : Bytes) : Option ParsedManifest :=
  match skipByte (ascii '\x7b') (skipWs json) with
  | none => none
  | some rest =>
      match parseRow (ascii '\x7d') (parseMember manifestValue) (rest.length + 1) true ([], {}) rest with
      | none => none
      | some ((_, manifest), rest) => if skipWs rest = [] then some manifest else none

/-! ## What the parser takes -/

theorem blanks_skipWs (text : Bytes) : Blanks text (skipWs text) := blanks_dropWhile text

/-- A byte that is found in front stands there. -/
theorem cons_of_peek {text : Bytes} {c : UInt8} (hNe : c ≠ 0) (h : peek text = c) : text = c :: text.tail := by
  cases text with
  | nil => exact absurd h.symm hNe
  | cons d rest =>
      obtain rfl : d = c := h
      rfl

theorem skipByte_some {byte : UInt8} {text rest : Bytes} (h : skipByte byte text = some rest) :
    text = byte :: rest := by
  cases text with
  | nil => exact absurd h (by simp [skipByte])
  | cons c more =>
      rw [skipByte] at h
      split at h
      · next hByte => rw [hByte, Option.some.inj h]
      · exact absurd h (by simp)

theorem hexDigit_of_hexValue {c : UInt8} {digit : Nat} (h : hexValue c = some digit) : HexDigit c digit := by
  have hDigit (letter : Char) (front : Nat) (hFront : front = digit + (if digit < 10 then 48 else letter.toNat - 10))
      (hLetter : 10 ≤ letter.toNat) (hByte : c.toNat = front) : c = hexDigit letter digit := by
    rw [← UInt8.ofNat_toNat (x := c), hByte, hFront, hexDigit]
    split <;> congr 1 <;> omega
  simp only [hexValue, isDigit, Bool.and_eq_true, decide_eq_true_eq, UInt8.le_iff_toNat_le] at h
  split at h
  · next hRange =>
    obtain rfl := Option.some.inj h
    have hSmall : c.toNat - 48 < 10 := by simp at hRange; omega
    exact ⟨by omega, .inl (hDigit 'a' c.toNat (by rw [if_pos hSmall]; simp at hRange; omega) (by decide) rfl)⟩
  · split at h
    · next hRange =>
      obtain rfl := Option.some.inj h
      have hBounds : 97 ≤ c.toNat ∧ c.toNat ≤ 102 := by simpa using hRange
      refine ⟨by omega, .inl (hDigit 'a' c.toNat ?_ (by decide) rfl)⟩
      rw [if_neg (by omega), show 'a'.toNat = 97 from rfl]
      omega
    · split at h
      · next hRange =>
        obtain rfl := Option.some.inj h
        have hBounds : 65 ≤ c.toNat ∧ c.toNat ≤ 70 := by simpa using hRange
        refine ⟨by omega, .inr (hDigit 'A' c.toNat ?_ (by decide) rfl)⟩
        rw [if_neg (by omega), show 'A'.toNat = 65 from rfl]
        omega
      · exact absurd h (by simp)

/-- The three forms of `parse_string` are those of UTF-8. -/
theorem encodeUnit_eq {c : Char} (h : c.toNat ≤ 0xFFFF) : encodeUnit c.toNat = String.utf8EncodeChar c := by
  have hMask (n : Nat) : 0x80 ||| (n &&& 0x3F) = n % 64 + 128 := by
    rw [show 0x3F = 2 ^ 6 - 1 from rfl, Nat.and_two_pow_sub_one_eq_mod,
      ← Nat.two_pow_add_eq_or_of_lt (i := 6) (Nat.mod_lt n (by decide)) 2]
    omega
  have hTwo (n : Nat) (hSmall : n < 32) : 0xC0 ||| n = n % 32 + 192 := by
    rw [← Nat.two_pow_add_eq_or_of_lt (i := 5) hSmall 6]
    omega
  have hThree (n : Nat) (hSmall : n < 16) : 0xE0 ||| n = n % 16 + 224 := by
    rw [← Nat.two_pow_add_eq_or_of_lt (i := 4) hSmall 14]
    omega
  simp only [encodeUnit, String.utf8EncodeChar, hMask, show c.val.toNat = c.toNat from rfl, if_pos h]
  split
  · rfl
  · split
    · rw [Nat.shiftRight_eq_div_pow, hTwo _ (by omega)]
    · rw [Nat.shiftRight_eq_div_pow, Nat.shiftRight_eq_div_pow, hThree _ (by omega)]

theorem readUnit_sound {text decoded rest : Bytes} (h : readUnit text = some (decoded, rest)) :
    Piece decoded (backslash :: ascii 'u' :: text) rest := by
  unfold readUnit at h
  split at h
  · next x y z w behind =>
    split at h
    · next i j k l hI hJ hK hL =>
      have hX := hexDigit_of_hexValue hI
      have hY := hexDigit_of_hexValue hJ
      have hZ := hexDigit_of_hexValue hK
      have hW := hexDigit_of_hexValue hL
      simp only at h
      split at h
      · exact absurd h (by simp)
      · next hPlain =>
        obtain ⟨rfl, rfl⟩ := Prod.mk.inj (Option.some.inj h)
        have hBounds := And.intro (And.intro hX.1 hY.1) (And.intro hZ.1 hW.1)
        simp only [Bool.and_eq_true, decide_eq_true_eq] at hPlain
        have hValid : (((i * 16 + j) * 16 + k) * 16 + l).isValidChar := by
          rw [Nat.isValidChar]
          omega
        obtain ⟨c, hCode⟩ : ∃ c : Char, c.toNat = ((i * 16 + j) * 16 + k) * 16 + l := ⟨.ofNatAux _ hValid, rfl⟩
        rw [← hCode, encodeUnit_eq (by omega)]
        exact .unit _ hX hY hZ hW hCode
    · exact absurd h (by simp)
  · exact absurd h (by simp)

theorem readEscape_sound {text decoded rest : Bytes} (h : readEscape text = some (decoded, rest)) :
    Piece decoded (backslash :: text) rest := by
  have hShort (c : Char) (letter : UInt8) (hLetter : shortEscape c = some letter)
      (hUtf8 : String.utf8EncodeChar c = decoded) : Piece decoded (backslash :: letter :: rest) rest := by
    rw [← hUtf8]
    exact .short rest hLetter
  cases text with
  | nil => exact absurd h (by simp [readEscape])
  | cons c behind =>
      rw [readEscape] at h
      split at h
      · next hSelf =>
        obtain ⟨rfl, rfl⟩ := Prod.mk.inj (Option.some.inj h)
        simp only [Bool.or_eq_true, decide_eq_true_eq] at hSelf
        rcases hSelf with (rfl | rfl) | rfl
        · exact hShort '"' quote (by decide) (by decide)
        · exact hShort '\\' backslash (by decide) (by decide)
        · exact hShort '/' (ascii '/') (by decide) (by decide)
      · split at h
        · next hLetter =>
          obtain ⟨rfl, rfl⟩ := Prod.mk.inj (Option.some.inj h)
          exact hLetter ▸ hShort '\n' (ascii 'n') (by decide) (by decide)
        · split at h
          · next hLetter =>
            obtain ⟨rfl, rfl⟩ := Prod.mk.inj (Option.some.inj h)
            exact hLetter ▸ hShort '\r' (ascii 'r') (by decide) (by decide)
          · split at h
            · next hLetter =>
              obtain ⟨rfl, rfl⟩ := Prod.mk.inj (Option.some.inj h)
              exact hLetter ▸ hShort '\t' (ascii 't') (by decide) (by decide)
            · split at h
              · next hLetter => exact hLetter ▸ readUnit_sound h
              · exact absurd h (by simp)

theorem readString_sound (fuel : Nat) (front text : Bytes) {out rest : Bytes}
    (h : readString fuel front text = some (out, rest)) :
    ∃ decoded, out = front ++ decoded ∧ StringTail decoded text rest := by
  induction fuel generalizing front text with
  | zero => exact absurd h (by simp [readString])
  | succ fuel ih =>
      cases text with
      | nil => exact absurd h (by simp [readString])
      | cons c behind =>
          rw [readString] at h
          split at h
          · next hQuote =>
            obtain ⟨rfl, rfl⟩ := Prod.mk.inj (Option.some.inj h)
            exact ⟨[], (List.append_nil _).symm, hQuote ▸ .close _⟩
          · next hQuote =>
            split at h
            · exact absurd h (by simp)
            · split at h
              · next hBackslash =>
                split at h
                · exact absurd h (by simp)
                · next decoded next hEscape =>
                  obtain ⟨more, rfl, hMore⟩ := ih _ _ h
                  refine ⟨decoded ++ more, List.append_assoc .., ?_⟩
                  rw [hBackslash]
                  exact .piece (readEscape_sound hEscape) hMore
              · next hBackslash =>
                split at h
                · exact absurd h (by simp)
                · next hControl =>
                  obtain ⟨more, rfl, hMore⟩ := ih _ _ h
                  simp only [Bool.or_eq_true, decide_eq_true_eq, not_or, UInt8.not_lt] at hControl
                  refine ⟨[c] ++ more, List.append_assoc .., ?_⟩
                  exact .piece (.plain behind (not_or.mpr ⟨hQuote, hBackslash⟩) hControl.1) hMore

theorem parseString_sound {text out rest : Bytes} (h : parseString text = some (out, rest)) :
    ∃ behind, text = quote :: behind ∧ StringTail out behind rest := by
  cases text with
  | nil => exact absurd h (by simp [parseString])
  | cons c behind =>
      rw [parseString] at h
      split at h
      · next hQuote =>
        obtain ⟨decoded, rfl, hTail⟩ := readString_sound _ _ _ h
        exact ⟨behind, by rw [hQuote], hTail⟩
      · exact absurd h (by simp)

/-- A turn of the loop keeps to the number as it is: what leaves 64 bits is refused. -/
theorem readDigits_sound (limit value : Nat) (text : Bytes) {n : Nat} {rest : Bytes}
    (h : readDigits limit value text = some (n, rest)) :
    ∃ digits, text = digits ++ rest ∧ (∀ c ∈ digits, isDigit c = true) ∧
      digits.foldl (fun n c => 10 * n + (c.toNat - 48)) value = n ∧ isDigit (peek rest) = false := by
  induction text generalizing value with
  | nil =>
      obtain ⟨rfl, rfl⟩ := Prod.mk.inj (Option.some.inj h)
      exact ⟨[], rfl, by simp, rfl, rfl⟩
  | cons c behind ih =>
      rw [readDigits] at h
      split at h
      · next hDigit =>
        have hRange : 48 ≤ c.toNat ∧ c.toNat ≤ 57 := by simpa [isDigit, UInt8.le_iff_toNat_le] using hDigit
        simp only at h
        split at h
        · exact absurd h (by simp)
        · next hHigh =>
          split at h
          · exact absurd h (by simp)
          · next hWrap =>
            split at h
            · exact absurd h (by simp)
            · have hNext : (value * 10 + (c.toNat - 48)) % 2 ^ 64 = 10 * value + (c.toNat - 48) := by omega
              rw [hNext] at h
              obtain ⟨digits, rfl, hDigits, hValue⟩ := ih _ h
              refine ⟨c :: digits, rfl, ?_, hValue⟩
              rintro d (_ | ⟨_, hMem⟩)
              · exact hDigit
              · exact hDigits d hMem
      · next hDigit =>
        obtain ⟨rfl, rfl⟩ := Prod.mk.inj (Option.some.inj h)
        exact ⟨[], rfl, by simp, rfl, Bool.eq_false_iff.mpr hDigit⟩

/-- What `parse_int` takes behind the sign. -/
theorem isNatural_of_digits {limit : Nat} {text rest : Bytes} {n : Nat}
    (hDigit : isDigit (peek text) = true) (hZero : peek text ≠ ascii '0')
    (h : readDigits limit 0 text = some (n, rest)) : ∃ digits, text = digits ++ rest ∧ IsNatural n digits := by
  obtain ⟨digits, rfl, hDigits, hValue, hBehind⟩ := readDigits_sound limit 0 text h
  refine ⟨digits, rfl, ?_, hDigits, hValue, ?_⟩
  · rintro rfl
    rw [List.nil_append, hBehind] at hDigit
    exact Bool.noConfusion hDigit
  · intro hHead
    cases digits with
    | nil => exact absurd hHead (by simp)
    | cons c more => exact absurd (Option.some.inj hHead) hZero

theorem isNatural_zero : IsNatural 0 [ascii '0'] := by
  constructor <;> decide

theorem parseInt_sound {text rest : Bytes} {n : Int} (h : parseInt text = some (n, rest)) :
    ∃ start, Blanks text start ∧ Whole n start rest := by
  refine ⟨skipWs text, blanks_skipWs text, ?_⟩
  rw [parseInt] at h
  generalize skipWs text = start at h ⊢
  -- The digits, which stand behind the sign.
  have hDigits (digits : Bytes) (limit : Nat) (sign : Nat → Int)
      (h : (if !isDigit (peek digits) then none
        else if peek digits = ascii '0' then some ((0 : Int), digits.tail)
        else
          match readDigits limit 0 digits with
          | none => none
          | some (value, rest) => some (sign value, rest)) = some (n, rest)) (hSign : sign 0 = 0) :
      ∃ value front, digits = front ++ rest ∧ IsNatural value front ∧ n = sign value := by
    split at h
    · exact absurd h (by simp)
    · next hDigit =>
      split at h
      · next hZero =>
        obtain ⟨rfl, rfl⟩ := Prod.mk.inj (Option.some.inj h)
        exact ⟨0, [ascii '0'], cons_of_peek (by decide) hZero, isNatural_zero, hSign.symm⟩
      · next hZero =>
        split at h
        · exact absurd h (by simp)
        · next value behind hRead =>
          obtain ⟨rfl, rfl⟩ := Prod.mk.inj (Option.some.inj h)
          obtain ⟨front, hFront, hNatural⟩ := isNatural_of_digits (by simpa using hDigit) hZero hRead
          exact ⟨value, front, hFront, hNatural, rfl⟩
  by_cases hMinus : peek start = ascii '-'
  · simp only [hMinus, if_true] at h
    obtain ⟨value, front, hFront, hNatural, rfl⟩ := hDigits start.tail _ (fun value => -(value : Int)) h rfl
    rw [cons_of_peek (by decide) hMinus, hFront]
    exact .negative rest hNatural
  · simp only [hMinus, if_false] at h
    obtain ⟨value, front, rfl, hNatural, rfl⟩ := hDigits start _ (fun value => (value : Int)) h rfl
    exact .natural rest hNatural

theorem parseBool_sound {text rest : Bytes} {value : Bool} (h : parseBool text = some (value, rest)) :
    ∃ start, Blanks text start ∧ Reads (.bool value) start rest := by
  refine ⟨skipWs text, blanks_skipWs text, ?_⟩
  rw [parseBool] at h
  generalize skipWs text = start at h ⊢
  split at h
  · next hWord =>
    obtain ⟨rfl, rfl⟩ := Prod.mk.inj (Option.some.inj h)
    rw [← List.take_append_drop 4 start, hWord, List.drop_left' (by decide)]
    exact .true _
  · split at h
    · next hWord =>
      obtain ⟨rfl, rfl⟩ := Prod.mk.inj (Option.some.inj h)
      rw [← List.take_append_drop 5 start, hWord, List.drop_left' (by decide)]
      exact .false _
    · exact absurd h (by simp)

section
variable {σ α : Type}

/-- A loop whose turns take items of a row takes a row, and keeps what the turns keep. -/
theorem parseRow_sound {bracket : UInt8} (hBracket : bracket ≠ 0) {item : σ → Bytes → Option (σ × Bytes)}
    {reads : α → Bytes → Bytes → Prop} {Holds : List α → σ → Prop}
    (hItem : ∀ {items state text next rest}, Holds items state → item state text = some (next, rest) →
      ∃ a, reads a text rest ∧ Holds (items ++ [a]) next)
    (fuel : Nat) (first : Bool) {items : List α} {state next : σ} {text rest : Bytes} (hHolds : Holds items state)
    (h : parseRow bracket item fuel first state text = some (next, rest)) :
    ∃ more, Json.Row reads bracket first more text rest ∧ Holds (items ++ more) next := by
  induction fuel generalizing first items state text with
  | zero => exact absurd h (by simp [parseRow])
  | succ fuel ih =>
      rw [parseRow] at h
      split at h
      · next hClose =>
        obtain ⟨rfl, rfl⟩ := Prod.mk.inj (Option.some.inj h)
        refine ⟨[], .close ?_, by rwa [List.append_nil]⟩
        rw [← cons_of_peek hBracket hClose]
        exact blanks_skipWs text
      · split at h
        · exact absurd h (by simp)
        · next start hStart =>
          split at h
          · exact absurd h (by simp)
          · next middle behind hTurn =>
            obtain ⟨a, hReads, hNext⟩ := hItem hHolds hTurn
            obtain ⟨more, hRow, hLast⟩ := ih false hNext h
            refine ⟨a :: more, ?_, by simpa using hLast⟩
            cases first with
            | true =>
                obtain rfl := Option.some.inj hStart
                exact .first (blanks_skipWs text) hReads hRow
            | false =>
                obtain ⟨behind, hComma, rfl⟩ := Option.map_eq_some_iff.mp hStart
                refine .next ?_ (blanks_skipWs behind) hReads hRow
                rw [← skipByte_some hComma]
                exact blanks_skipWs text

/-- What is known in the loop over members: the keys that were read, and the state that the
members led to. -/
structure Known (Holds : List (Bytes × Value) → σ → Prop) (members : List (Bytes × Value)) (state : List Bytes × σ) :
    Prop where
  keys : state.1 = (members.map Prod.fst).reverse
  distinct : (members.map Prod.fst).Nodup
  holds : Holds members state.2

theorem parseMember_sound {value : Bytes → σ → Bytes → Option (σ × Bytes)} {Holds : List (Bytes × Value) → σ → Prop}
    (hValue : ∀ {members key state text next rest}, Holds members state → key ∉ members.map Prod.fst →
      value key state text = some (next, rest) →
      ∃ v start, Blanks text start ∧ Reads v start rest ∧ Holds (members ++ [(key, v)]) next)
    {members : List (Bytes × Value)} {state next : List Bytes × σ} {text rest : Bytes}
    (hKnown : Known Holds members state) (h : parseMember value state text = some (next, rest)) :
    ∃ member, Member Reads member text rest ∧ Known Holds (members ++ [member]) next := by
  rw [parseMember] at h
  split at h
  · exact absurd h (by simp)
  · next key behind hKey =>
    split at h
    · exact absurd h (by simp)
    · next hNew =>
      split at h
      · exact absurd h (by simp)
      · next colon hColon =>
        split at h
        · exact absurd h (by simp)
        · next last final hRead =>
          obtain ⟨rfl, rfl⟩ := Prod.mk.inj (Option.some.inj h)
          have hFresh : key ∉ members.map Prod.fst := by
            rw [hKnown.keys, List.mem_reverse] at hNew
            exact hNew
          obtain ⟨v, start, hBlanks, hReads, hHolds⟩ := hValue hKnown.holds hFresh hRead
          obtain ⟨front, rfl, hTail⟩ := parseString_sound hKey
          refine ⟨(key, v), .mk hTail ?_ ((blanks_skipWs colon).trans hBlanks) hReads, ?_, ?_, hHolds⟩
          · rw [← skipByte_some hColon]
            exact blanks_skipWs behind
          · simp [hKnown.keys]
          · rw [List.map_append, List.nodup_append]
            refine ⟨hKnown.distinct, by simp, ?_⟩
            rintro old hOld _ hMem rfl
            obtain rfl : old = key := by simpa using hMem
            exact hFresh hOld

end

/-- The members that an entry is written with. -/
def entryMembers (pfe : ParsedFileEntry) : List (Bytes × Value) :=
  [(bytes "filename", .string pfe.filename), (bytes "sha256", .string pfe.sha256), (bytes "size", .int pfe.size),
    (bytes "record_count", .int pfe.recordCount), (bytes "optional", .bool pfe.optional),
    (bytes "present", .bool pfe.present)]

/-- The value is an object with the members of the entry, in some order, and with no others. -/
def EntryOf (value : Value) (pfe : ParsedFileEntry) : Prop :=
  ∃ members, value = .object members ∧ (members.map Prod.fst).Nodup ∧ ∀ member, member ∈ members ↔ member ∈ entryMembers pfe

/-- The value is a manifest that lists the entries. -/
def Lists (value : Value) (entries : List ParsedFileEntry) : Prop :=
  ∃ members items, value = .object members ∧ (members.map Prod.fst).Nodup ∧ (bytes "files", .array items) ∈ members ∧
    List.Forall₂ EntryOf items entries

/-- A value that is read puts one member, and leaves the others. -/
theorem entryValue_sound {members : List (Bytes × Value)} {key : Bytes} {pfe next : ParsedFileEntry} {text rest : Bytes}
    (hHolds : ∀ member ∈ members, member ∈ entryMembers pfe) (hNew : key ∉ members.map Prod.fst)
    (h : entryValue key pfe text = some (next, rest)) :
    ∃ v start, Blanks text start ∧ Reads v start rest ∧
      ∀ member ∈ members ++ [(key, v)], member ∈ entryMembers next := by
  have hOthers (v : Value) (hPut : (key, v) ∈ entryMembers next)
      (hKeep : ∀ member ∈ entryMembers pfe, member.1 ≠ key → member ∈ entryMembers next) :
      ∀ member ∈ members ++ [(key, v)], member ∈ entryMembers next := by
    intro member hMember
    rcases List.mem_append.mp hMember with hOld | hLast
    · refine hKeep member (hHolds member hOld) ?_
      rintro rfl
      exact hNew (List.mem_map_of_mem hOld)
    · rw [List.mem_singleton.mp hLast]
      exact hPut
  have hString {value : Bytes} (hRead : parseString text = some (value, rest)) :
      ∃ start, Blanks text start ∧ Reads (.string value) start rest := by
    obtain ⟨behind, rfl, hTail⟩ := parseString_sound hRead
    exact ⟨_, ⟨[], by simp, rfl⟩, .string hTail⟩
  rw [entryValue] at h
  split at h
  · next hKey =>
    obtain ⟨⟨value, behind⟩, hRead, hEq⟩ := Option.map_eq_some_iff.mp h
    obtain ⟨rfl, rfl⟩ := Prod.mk.inj hEq
    obtain ⟨start, hBlanks, hReads⟩ := hString hRead
    refine ⟨_, start, hBlanks, hReads, hOthers _ (by simp [entryMembers, hKey]) ?_⟩
    subst hKey
    simp [entryMembers]
  · split at h
    · next hKey =>
      obtain ⟨⟨value, behind⟩, hRead, hEq⟩ := Option.map_eq_some_iff.mp h
      obtain ⟨rfl, rfl⟩ := Prod.mk.inj hEq
      obtain ⟨start, hBlanks, hReads⟩ := hString hRead
      refine ⟨_, start, hBlanks, hReads, hOthers _ (by simp [entryMembers, hKey]) ?_⟩
      subst hKey
      simp [entryMembers]
    · split at h
      · next hKeys =>
        split at h
        · exact absurd h (by simp)
        · split at h
          · exact absurd h (by simp)
          · next n behind hRead =>
            obtain ⟨start, hBlanks, hWhole⟩ := parseInt_sound hRead
            split at h
            · exact absurd h (by simp)
            · next hNonneg =>
              have hNumber : ((n.toNat : Nat) : Int) = n := Int.toNat_of_nonneg (by omega)
              split at h
              · next hKey =>
                obtain ⟨rfl, rfl⟩ := Prod.mk.inj (Option.some.inj h)
                refine ⟨_, start, hBlanks, .int hWhole, hOthers _ (by simp [entryMembers, hKey, hNumber]) ?_⟩
                subst hKey
                simp [entryMembers]
              · next hKey =>
                obtain ⟨rfl, rfl⟩ := Prod.mk.inj (Option.some.inj h)
                obtain rfl : key = bytes "record_count" := by simpa [hKey] using hKeys
                refine ⟨_, start, hBlanks, .int hWhole, hOthers _ (by simp [entryMembers, hNumber]) ?_⟩
                simp [entryMembers]
      · split at h
        · next hKey =>
          obtain ⟨⟨value, behind⟩, hRead, hEq⟩ := Option.map_eq_some_iff.mp h
          obtain ⟨rfl, rfl⟩ := Prod.mk.inj hEq
          obtain ⟨start, hBlanks, hReads⟩ := parseBool_sound hRead
          refine ⟨_, start, hBlanks, hReads, hOthers _ (by simp [entryMembers, hKey]) ?_⟩
          subst hKey
          simp [entryMembers]
        · split at h
          · next hKey =>
            obtain ⟨⟨value, behind⟩, hRead, hEq⟩ := Option.map_eq_some_iff.mp h
            obtain ⟨rfl, rfl⟩ := Prod.mk.inj hEq
            obtain ⟨start, hBlanks, hReads⟩ := parseBool_sound hRead
            refine ⟨_, start, hBlanks, hReads, hOthers _ (by simp [entryMembers, hKey]) ?_⟩
            subst hKey
            simp [entryMembers]
          · exact absurd h (by simp)

theorem required_nodup : required.Nodup := by decide

/-- With all the required keys, the members are those of the entry. -/
theorem mem_iff_of_required {members : List (Bytes × Value)} {pfe : ParsedFileEntry}
    (hHolds : ∀ member ∈ members, member ∈ entryMembers pfe) (hAll : ∀ key ∈ required, key ∈ members.map Prod.fst)
    (member : Bytes × Value) : member ∈ members ↔ member ∈ entryMembers pfe := by
  refine ⟨hHolds member, fun hMember => ?_⟩
  have hKey : member.1 ∈ required := List.mem_map_of_mem hMember
  obtain ⟨other, hOther, hSame⟩ := List.mem_map.mp (hAll _ hKey)
  have hKeys : ((entryMembers pfe).map Prod.fst).Nodup := required_nodup
  rwa [← List.inj_on_of_nodup_map hKeys (hHolds other hOther) hMember hSame]

theorem parseEntry_sound {items : List Value} {entries next : List ParsedFileEntry} {text rest : Bytes}
    (hHolds : List.Forall₂ EntryOf items entries) (h : parseEntry entries text = some (next, rest)) :
    ∃ item, Reads item text rest ∧ List.Forall₂ EntryOf (items ++ [item]) next := by
  rw [parseEntry] at h
  split at h
  · exact absurd h (by simp)
  · next behind hOpen =>
    split at h
    · exact absurd h (by simp)
    · next seen pfe final hRow =>
      split at h
      · next hRequired =>
        obtain ⟨rfl, rfl⟩ := Prod.mk.inj (Option.some.inj h)
        have hStart : Known (fun members pfe => ∀ member ∈ members, member ∈ entryMembers pfe) [] ([], {}) :=
          ⟨rfl, List.nodup_nil, by simp⟩
        obtain ⟨members, hMembers, hKnown⟩ :=
          parseRow_sound (by decide) (parseMember_sound entryValue_sound) _ _ hStart hRow
        simp only [Bool.and_eq_true, decide_eq_true_eq, List.all_eq_true, List.contains_iff_mem] at hRequired
        have hAll : ∀ key ∈ required, key ∈ members.map Prod.fst := by
          intro key hKey
          have hSeen : key ∈ (members.map Prod.fst).reverse := hKnown.keys ▸ hRequired.2 key hKey
          exact List.mem_reverse.mp hSeen
        refine ⟨.object members, ?_, ?_⟩
        · rw [skipByte_some hOpen]
          exact .object hMembers
        · refine List.rel_append hHolds (.cons ⟨members, rfl, hKnown.distinct, ?_⟩ .nil)
          exact mem_iff_of_required hKnown.holds hAll
      · exact absurd h (by simp)

/-- What is known of the manifest after some of its members. -/
def FilesHold (members : List (Bytes × Value)) (manifest : ParsedManifest) : Prop :=
  (bytes "files" ∉ members.map Prod.fst ∧ manifest.fileEntries = []) ∨
    ∃ items, (bytes "files", .array items) ∈ members ∧ List.Forall₂ EntryOf items manifest.fileEntries

/-- A member under another key leaves the files. -/
theorem FilesHold.append {members : List (Bytes × Value)} {manifest next : ParsedManifest} (h : FilesHold members manifest)
    {key : Bytes} (hKey : key ≠ bytes "files") (hFiles : next.fileEntries = manifest.fileEntries) (v : Value) :
    FilesHold (members ++ [(key, v)]) next := by
  rw [FilesHold, hFiles]
  rcases h with ⟨hNone, hEmpty⟩ | ⟨items, hItems, hEntries⟩
  · left
    refine ⟨?_, hEmpty⟩
    rw [List.map_append, List.mem_append, not_or]
    exact ⟨hNone, by simpa using hKey.symm⟩
  · right
    exact ⟨items, List.mem_append_left _ hItems, hEntries⟩

theorem manifestValue_sound {members : List (Bytes × Value)} {key : Bytes} {manifest next : ParsedManifest}
    {text rest : Bytes} (hHolds : FilesHold members manifest) (hNew : key ∉ members.map Prod.fst)
    (h : manifestValue key manifest text = some (next, rest)) :
    ∃ v start, Blanks text start ∧ Reads v start rest ∧ FilesHold (members ++ [(key, v)]) next := by
  rw [manifestValue] at h
  split at h
  · next hKey =>
    split at h
    · exact absurd h (by simp)
    · next behind hOpen =>
      obtain ⟨⟨entries, final⟩, hRow, hEq⟩ := Option.map_eq_some_iff.mp h
      obtain ⟨rfl, rfl⟩ := Prod.mk.inj hEq
      -- The key is new, so that no files were read.
      have hEmpty : manifest.fileEntries = [] := by
        rcases hHolds with ⟨-, hEmpty⟩ | ⟨items, hItems, -⟩
        · exact hEmpty
        · rw [hKey] at hNew
          exact absurd (List.mem_map_of_mem hItems) hNew
      rw [hEmpty] at hRow
      obtain ⟨items, hItems, hEntries⟩ := parseRow_sound (by decide) parseEntry_sound _ _ (List.Forall₂.nil (R := EntryOf)) hRow
      refine ⟨.array items, text, ⟨[], by simp, rfl⟩, ?_, .inr ⟨items, ?_, hEntries⟩⟩
      · rw [skipByte_some hOpen]
        exact .array hItems
      · rw [hKey]
        exact List.mem_append_right _ (List.mem_singleton_self _)
  · next hKey =>
    split at h
    · split at h
      · exact absurd h (by simp)
      · next value behind hRead =>
        split at h
        · obtain ⟨rfl, rfl⟩ := Prod.mk.inj (Option.some.inj h)
          obtain ⟨behind, rfl, hTail⟩ := parseString_sound hRead
          exact ⟨.string value, _, ⟨[], by simp, rfl⟩, .string hTail, hHolds.append hKey rfl _⟩
        · exact absurd h (by simp)
    · split at h
      · split at h
        · exact absurd h (by simp)
        · next value behind hRead =>
          split at h
          · obtain ⟨rfl, rfl⟩ := Prod.mk.inj (Option.some.inj h)
            obtain ⟨start, hBlanks, hReads⟩ := parseBool_sound hRead
            exact ⟨.bool value, start, hBlanks, hReads, hHolds.append hKey rfl _⟩
          · exact absurd h (by simp)
      · split at h
        · exact absurd h (by simp)
        · next value behind hRead =>
          split at h
          · obtain ⟨rfl, rfl⟩ := Prod.mk.inj (Option.some.inj h)
            obtain ⟨start, hBlanks, hWhole⟩ := parseInt_sound hRead
            exact ⟨.int value, start, hBlanks, .int hWhole, hHolds.append hKey rfl _⟩
          · exact absurd h (by simp)

/-- A manifest that is taken is one JSON object, whose files are the entries. An object
without files lists none. -/
theorem parseManifest_sound {json : Bytes} {manifest : ParsedManifest} (h : parseManifest json = some manifest) :
    ∃ members, IsDocument json (.object members) ∧ (members.map Prod.fst).Nodup ∧ FilesHold members manifest := by
  rw [parseManifest] at h
  split at h
  · exact absurd h (by simp)
  · next behind hOpen =>
    split at h
    · exact absurd h (by simp)
    · next seen last final hRow =>
      split at h
      · next hEnd =>
        obtain rfl := Option.some.inj h
        have hStart : Known FilesHold [] ([], {}) := ⟨rfl, List.nodup_nil, .inl ⟨by simp, rfl⟩⟩
        obtain ⟨members, hMembers, hKnown⟩ :=
          parseRow_sound (by decide) (parseMember_sound manifestValue_sound) _ _ hStart hRow
        refine ⟨members, ⟨skipWs json, final, blanks_skipWs json, ?_, ?_⟩, hKnown.distinct, hKnown.holds⟩
        · rw [skipByte_some hOpen]
          exact .object hMembers
        · rw [← hEnd]
          exact blanks_skipWs final
      · exact absurd h (by simp)

/-- With entries there are files. -/
theorem lists_of_filesHold {members : List (Bytes × Value)} {manifest : ParsedManifest}
    (hDistinct : (members.map Prod.fst).Nodup) (h : FilesHold members manifest) (hNe : manifest.fileEntries ≠ []) :
    Lists (.object members) manifest.fileEntries := by
  rcases h with ⟨-, hEmpty⟩ | ⟨items, hItems, hEntries⟩
  · exact absurd hEmpty hNe
  · exact ⟨members, items, rfl, hDistinct, hItems, hEntries⟩

end ManifestParser

end ContainerCP.Storage
