import ContainerCP.Database.DumpService
import ContainerCP.Database.GrantIsolation
import ContainerCP.Sql.StringLiteral
import Mathlib.Order.MinMax

/-! The literals in the statements of `MariaDBProvider`, and the text of an error in which the
client gives a statement back. -/
namespace ContainerCP.DatabaseLifecycle

open Sql
open DatabaseDump (toLower lowerCopy)

/-! ## Literals -/

/-- Each byte of a value is in the literal as it is, or behind a backslash. -/
theorem quoteSqlByte_spells (c : UInt8) :
    (quoteSqlByte c = [c] ∧ c ≠ ascii '\\' ∧ c ≠ ascii '\'') ∨ ∃ d, quoteSqlByte c = [ascii '\\', d] ∧ literalEscape d = [c] := by
  by_cases h : c ∈ [0, 8, 10, 13, 9, 26, ascii '\\', ascii '\'']
  · right
    simp only [List.mem_cons, List.not_mem_nil, or_false] at h
    rcases h with rfl | rfl | rfl | rfl | rfl | rfl | rfl | rfl
    · exact ⟨ascii '0', by decide, by decide⟩
    · exact ⟨ascii 'b', by decide, by decide⟩
    · exact ⟨ascii 'n', by decide, by decide⟩
    · exact ⟨ascii 'r', by decide, by decide⟩
    · exact ⟨ascii 't', by decide, by decide⟩
    · exact ⟨ascii 'Z', by decide, by decide⟩
    · exact ⟨ascii '\\', by decide, by decide⟩
    · exact ⟨ascii '\'', by decide, by decide⟩
  · left
    simp only [List.mem_cons, List.not_mem_nil, or_false, not_or] at h
    obtain ⟨hNull, hBack, hLine, hReturn, hTab, hEnd, hEscape, hQuote⟩ := h
    refine ⟨?_, hEscape, hQuote⟩
    rw [quoteSqlByte, if_neg hNull, if_neg hBack, if_neg hLine, if_neg hReturn, if_neg hTab, if_neg hEnd, if_neg hEscape,
      if_neg hQuote]

theorem spells_quoteSqlByte (value : Bytes) : Spells (ascii '\'') (value.flatMap quoteSqlByte) value :=
  spells_flatMap quoteSqlByte_spells value

theorem quoteSqlString_eq (value rest : Bytes) :
    quoteSqlString value ++ rest = ascii '\'' :: (value.flatMap quoteSqlByte ++ ascii '\'' :: rest) := by
  have hQuote : bytes "'" = [ascii '\''] := rfl
  rw [quoteSqlString, hQuote]
  simp only [List.append_assoc, List.cons_append, List.nil_append]

/-- A quoted value is one literal with that value, in front of any text but a quote. -/
theorem readLiteral_quoteSqlString (value : Bytes) {rest : Bytes} (hRest : rest.head? ≠ some (ascii '\'')) :
    readLiteral (quoteSqlString value ++ rest) = some (value, rest) := by
  rw [quoteSqlString_eq, readLiteral, if_pos (.inl rfl)]
  exact literalBody_of_spells (by decide) (spells_quoteSqlByte value) hRest

theorem readLiteral_quoteSqlString_at :
    (bytes "@'%'").head? ≠ some (ascii '\'') ∧
      readLiteral (quoteSqlString (bytes "it's\\") ++ bytes "@'%'") = some (bytes "it's\\", bytes "@'%'") :=
  ⟨by decide, readLiteral_quoteSqlString (bytes "it's\\") (by decide)⟩

/-- A quote behind the literal goes on with it. -/
theorem not_forall_readLiteral_quoteSqlString :
    ¬∀ value rest : Bytes, readLiteral (quoteSqlString value ++ rest) = some (value, rest) := by
  intro h
  have hQuote := h (bytes "a") (bytes "'b'")
  rw [show readLiteral (quoteSqlString (bytes "a") ++ bytes "'b'") = some (bytes "a'b", []) by decide] at hQuote
  exact absurd hQuote (by decide)

/-! ## `redact_identified_by` -/

/-- `contains_case_insensitive`. -/
def containsCaseInsensitive (value needle : Bytes) : Prop := lowerCopy needle <:+: lowerCopy value

instance (value needle : Bytes) : Decidable (containsCaseInsensitive value needle) :=
  inferInstanceAs (Decidable (_ <:+: _))

def keyword : Bytes := bytes "IDENTIFIED BY"

/-- How many bytes the loop over a quoted value takes, the closing quote included. -/
def quotedLength (quote : UInt8) : Bytes → Nat
  | [] => 0
  | [_] => 1
  | c :: d :: rest =>
      if c = quote then 1
      else if c = ascii '\\' then quotedLength quote rest + 2
      else quotedLength quote (d :: rest) + 1

/-- How many bytes are left out for the value. -/
def valueLength : Bytes → Nat
  | [] => 0
  | c :: rest =>
      if c = ascii '\'' ∨ c = ascii '"' then quotedLength c rest + 1
      else ((c :: rest).takeWhile fun d => !isSpace d && d != ascii ';').length

/-- The loop of `redact_identified_by`. The first argument counts the bytes that a round has
already taken. A cut that is shorter than the keyword does not contain it. -/
def redactFrom : Nat → Bytes → Bytes
  | _, [] => []
  | taken + 1, _ :: rest => redactFrom taken rest
  | 0, c :: rest =>
      if containsCaseInsensitive ((c :: rest).take keyword.length) keyword then
        let behind := (c :: rest).drop keyword.length
        let spaces := behind.takeWhile isSpace
        keyword ++ spaces ++ bytes "'<redacted>'" ++
          redactFrom (keyword.length + spaces.length + valueLength (behind.dropWhile isSpace) - 1) rest
      else c :: redactFrom 0 rest

/-- `redact_identified_by`. -/
def redactIdentifiedBy (value : Bytes) : Bytes := redactFrom 0 value

/-- `std::iscntrl`. -/
def isControl (c : UInt8) : Bool := c < 32 || c == 127

/-- `mariadb_sanitize_provider_error`. -/
def sanitizeProviderError (value : Bytes) : Bytes :=
  let sanitized := ((redactIdentifiedBy value).take 160).map fun c => if isControl c then ascii ' ' else c
  if sanitized = [] then bytes "MariaDB operation failed" else sanitized

/-- The operations of the provider that report what the client writes to its error stream. -/
inductive ClientCall
  | command
  | dump
  | importDump
  deriving DecidableEq

/-- The message of a failed operation. -/
def failureMessage (call : ClientCall) (err : Bytes) : Bytes :=
  match call with
  | .command => bytes "MariaDB operation failed: " ++ sanitizeProviderError err
  | .dump => bytes "MariaDB dump failed: " ++ sanitizeProviderError err
  | .importDump => bytes "MariaDB import failed: " ++ sanitizeProviderError err

/-! ## What the loop leaves out -/

theorem redactFrom_taken (front rest : Bytes) : redactFrom front.length (front ++ rest) = redactFrom 0 rest := by
  induction front with
  | nil => rfl
  | cons c front ih => rw [List.length_cons, List.cons_append, redactFrom, ih]

/-- The loop over a quoted value ends behind its closing quote. -/
theorem quotedLength_of_spells {quote : UInt8} (hQuote : quote ≠ ascii '\\') {text value : Bytes}
    (h : Spells quote text value) (rest : Bytes) : quotedLength quote (text ++ quote :: rest) = text.length + 1 := by
  induction h with
  | nil => cases rest <;> simp [quotedLength]
  | @plain c text value noEscape noQuote _ ih =>
      obtain ⟨d, more, hMore⟩ : ∃ d more, text ++ quote :: rest = d :: more :=
        List.exists_cons_of_ne_nil (List.append_ne_nil_of_right_ne_nil _ (List.cons_ne_nil _ _))
      rw [List.cons_append, hMore, quotedLength, if_neg noQuote, if_neg noEscape, ← hMore, ih, List.length_cons]
  | @escape d text value _ ih =>
      rw [List.cons_append, List.cons_append, quotedLength, if_neg hQuote.symm, if_pos rfl, ih, List.length_cons, List.length_cons]

theorem valueLength_quoteSqlString (value rest : Bytes) :
    valueLength (quoteSqlString value ++ rest) = (quoteSqlString value).length := by
  have hLength := congrArg List.length (quoteSqlString_eq value [])
  rw [quoteSqlString_eq, valueLength, if_pos (.inl rfl), quotedLength_of_spells (by decide) (spells_quoteSqlByte value)]
  simpa using hLength.symm

/-- Behind the keyword and a space a quoted value is left out, and the loop goes on behind it. -/
theorem redactFrom_literal (value rest : Bytes) :
    redactFrom 0 (keyword ++ bytes " " ++ quoteSqlString value ++ rest) =
      keyword ++ bytes " " ++ bytes "'<redacted>'" ++ redactFrom 0 rest := by
  obtain ⟨c, more, hMore⟩ : ∃ c more, keyword = c :: more := ⟨_, _, rfl⟩
  have hQuote : quoteSqlString value ++ rest = ascii '\'' :: (value.flatMap quoteSqlByte ++ ascii '\'' :: rest) :=
    quoteSqlString_eq value rest
  have hText : keyword ++ bytes " " ++ quoteSqlString value ++ rest =
      c :: (more ++ bytes " " ++ quoteSqlString value ++ rest) := by rw [hMore]; rfl
  have hTake : (keyword ++ bytes " " ++ quoteSqlString value ++ rest).take keyword.length = keyword := by
    rw [List.append_assoc, List.append_assoc, List.take_left]
  have hDrop : (keyword ++ bytes " " ++ quoteSqlString value ++ rest).drop keyword.length =
      ascii ' ' :: (quoteSqlString value ++ rest) := by
    rw [List.append_assoc, List.append_assoc, List.drop_left]
    rfl
  have hSpaces : (ascii ' ' :: (quoteSqlString value ++ rest)).takeWhile isSpace = bytes " " := by
    rw [hQuote]
    rfl
  have hBehind : (ascii ' ' :: (quoteSqlString value ++ rest)).dropWhile isSpace = quoteSqlString value ++ rest := by
    rw [hQuote]
    rfl
  have hCount : keyword.length + (bytes " ").length + (quoteSqlString value).length - 1 =
      (more ++ bytes " " ++ quoteSqlString value).length := by
    rw [hMore]
    simp only [List.length_append, List.length_cons]
    omega
  rw [hText, redactFrom, ← hText, hTake, if_pos (show containsCaseInsensitive keyword keyword from List.infix_rfl), hDrop]
  simp only [hSpaces, hBehind, valueLength_quoteSqlString]
  rw [hCount, redactFrom_taken]

/-! ## The text in front of the keyword -/

/-- No end of the keyword is a beginning of it: it cannot begin in front of itself. -/
theorem keyword_unbordered : ∀ k < keyword.length, 0 < k → ¬(lowerCopy keyword).drop k <+: lowerCopy keyword := by
  decide

theorem lowerCopy_append (first second : Bytes) : lowerCopy (first ++ second) = lowerCopy first ++ lowerCopy second :=
  List.map_append

/-- In a text without the keyword that stands in front of it, it begins nowhere. -/
theorem not_isPrefix_of_not_contains {front : Bytes} (hFront : front ≠ []) (h : ¬containsCaseInsensitive front keyword)
    (rest : Bytes) : ¬lowerCopy keyword <+: lowerCopy (front ++ (keyword ++ rest)) := by
  intro hPrefix
  rw [lowerCopy_append, lowerCopy_append] at hPrefix
  rcases List.prefix_or_prefix_of_prefix hPrefix (List.prefix_append _ _) with hIn | ⟨tail, hTail⟩
  · exact h hIn.isInfix
  · have hLength : front.length + tail.length = keyword.length := by
      simpa [lowerCopy] using congrArg List.length hTail
    have hPositive : 0 < front.length := List.length_pos_of_ne_nil hFront
    have hDrop : (lowerCopy keyword).drop front.length = tail := by
      rw [← hTail]
      exact List.drop_left' (List.length_map _)
    rw [← hTail, List.prefix_append_right_inj, hTail] at hPrefix
    have hBorder : tail <+: lowerCopy keyword := by
      refine List.prefix_of_prefix_length_le hPrefix (List.prefix_append _ _) ?_
      rw [lowerCopy, List.length_map]
      omega
    by_cases hAll : front.length = keyword.length
    · obtain rfl : tail = [] := List.eq_nil_of_length_eq_zero (by omega)
      rw [List.append_nil] at hTail
      exact h (show lowerCopy keyword <:+: lowerCopy front from hTail ▸ List.infix_rfl)
    · exact keyword_unbordered front.length (by omega) hPositive (hDrop ▸ hBorder)

theorem redactFrom_front {front : Bytes} (h : ¬containsCaseInsensitive front keyword) (rest : Bytes) :
    redactFrom 0 (front ++ (keyword ++ rest)) = front ++ redactFrom 0 (keyword ++ rest) := by
  induction front with
  | nil => rfl
  | cons c front ih =>
      have hHere : ¬containsCaseInsensitive ((c :: (front ++ (keyword ++ rest))).take keyword.length) keyword := by
        intro hInfix
        have hTake := List.take_prefix keyword.length (c :: (front ++ (keyword ++ rest)))
        have hEq := hInfix.eq_of_length_le (by simp [lowerCopy])
        exact not_isPrefix_of_not_contains (List.cons_ne_nil c front) h rest (hEq ▸ hTake.map toLower)
      rw [List.cons_append, redactFrom, if_neg hHere, List.cons_append]
      exact congrArg _ (ih fun hInfix => h (hInfix.trans (List.suffix_cons c front |>.isInfix.map toLower)))

/-- What is redacted is the value: nothing of it is left in the text, not even its length. -/
theorem redactIdentifiedBy_literal {front : Bytes} (h : ¬containsCaseInsensitive front keyword) (value rest : Bytes) :
    redactIdentifiedBy (front ++ bytes "IDENTIFIED BY " ++ quoteSqlString value ++ rest) =
      front ++ (keyword ++ bytes " " ++ bytes "'<redacted>'" ++ redactIdentifiedBy rest) := by
  have hKeyword : bytes "IDENTIFIED BY " = keyword ++ bytes " " := rfl
  have hText : front ++ bytes "IDENTIFIED BY " ++ quoteSqlString value ++ rest =
      front ++ (keyword ++ (bytes " " ++ quoteSqlString value ++ rest)) := by
    rw [hKeyword]
    simp only [List.append_assoc]
  have hLiteral := redactFrom_literal value rest
  rw [redactIdentifiedBy, hText, redactFrom_front h, redactIdentifiedBy, ← hLiteral]
  simp only [List.append_assoc]

/-- The message is the same for every password, behind a text without the keyword in any case
of its letters. -/
theorem failureMessage_password (call : ClientCall) {front : Bytes} (h : ¬containsCaseInsensitive front keyword)
    (first second rest : Bytes) :
    failureMessage call (front ++ bytes "IDENTIFIED BY " ++ quoteSqlString first ++ rest) =
      failureMessage call (front ++ bytes "IDENTIFIED BY " ++ quoteSqlString second ++ rest) := by
  have hSame : sanitizeProviderError (front ++ bytes "IDENTIFIED BY " ++ quoteSqlString first ++ rest) =
      sanitizeProviderError (front ++ bytes "IDENTIFIED BY " ++ quoteSqlString second ++ rest) := by
    unfold sanitizeProviderError
    rw [redactIdentifiedBy_literal h, redactIdentifiedBy_literal h]
  cases call with
  | command => rw [failureMessage, failureMessage, hSame]
  | dump => rw [failureMessage, failureMessage, hSame]
  | importDump => rw [failureMessage, failureMessage, hSame]

theorem failureMessage_password_at :
    ¬containsCaseInsensitive (bytes "ERROR 1064 near '") keyword ∧
      failureMessage .command (bytes "ERROR 1064 near '" ++ bytes "IDENTIFIED BY " ++ quoteSqlString (bytes "a'b") ++ bytes "'") =
        failureMessage .command (bytes "ERROR 1064 near '" ++ bytes "IDENTIFIED BY " ++ quoteSqlString (bytes "\\c") ++ bytes "'") :=
  ⟨by decide, failureMessage_password .command (by decide) (bytes "a'b") (bytes "\\c") (bytes "'")⟩

/-- A literal that the text in front has opened ends at the quote in front of the password. -/
theorem not_forall_failureMessage_password :
    ¬∀ (call : ClientCall) (front rest : Bytes), ¬bytes "IDENTIFIED BY " <:+: front → ¬bytes "IDENTIFIED BY " <:+: rest →
      ∀ first second : Bytes,
        failureMessage call (front ++ bytes "IDENTIFIED BY " ++ quoteSqlString first ++ rest) =
          failureMessage call (front ++ bytes "IDENTIFIED BY " ++ quoteSqlString second ++ rest) := by
  intro h
  have hSame := h .command (bytes "identified by '") [] (by decide) (by decide) (bytes "a") (bytes "b")
  exact absurd hSame (by decide)

end ContainerCP.DatabaseLifecycle
