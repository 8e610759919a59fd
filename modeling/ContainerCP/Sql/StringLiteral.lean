import ContainerCP.Text.Bytes
import Mathlib.Data.List.Basic

/-! The string literals of MariaDB in its default `sql_mode`: what the lexer takes for one
literal, and the bytes that the literal stands for. In the character sets that a connection
has by default a byte below 128 is never a part of another character. -/
namespace ContainerCP.Sql

/-- What a backslash in front of a byte stands for. In front of a wildcard of `LIKE` it stays. -/
def literalEscape (c : UInt8) : Bytes :=
  if c = ascii 'n' then [10]
  else if c = ascii 't' then [9]
  else if c = ascii 'r' then [13]
  else if c = ascii 'b' then [8]
  else if c = ascii '0' then [0]
  else if c = ascii 'Z' then [26]
  else if c = ascii '_' ∨ c = ascii '%' then [ascii '\\', c]
  else [c]

/-- The value of a literal behind its opening quote, and the text behind its closing one. Two
quotes in a row are one byte of the value. -/
def literalBody (sep : UInt8) : Bytes → Option (Bytes × Bytes)
  | [] => none
  | [c] => if c = sep then some ([], []) else none
  | c :: d :: rest =>
      if c = ascii '\\' then (literalBody sep rest).map fun read => (literalEscape d ++ read.1, read.2)
      else if c = sep then
        if d = sep then (literalBody sep rest).map fun read => (sep :: read.1, read.2) else some ([], d :: rest)
      else (literalBody sep (d :: rest)).map fun read => (c :: read.1, read.2)

/-- The literal in front of a text. -/
def readLiteral : Bytes → Option (Bytes × Bytes)
  | [] => none
  | c :: rest => if c = ascii '\'' ∨ c = ascii '"' then literalBody c rest else none

/-! ## Texts without a bare quote -/

/-- A text that spells a value between two quotes: each byte stands for itself, or a backslash
and a byte stand for it. -/
inductive Spells (sep : UInt8) : Bytes → Bytes → Prop where
  | nil : Spells sep [] []
  | plain {c : UInt8} {text value : Bytes} (noEscape : c ≠ ascii '\\') (noQuote : c ≠ sep) (rest : Spells sep text value) :
      Spells sep (c :: text) (c :: value)
  | escape {d : UInt8} {text value : Bytes} (rest : Spells sep text value) :
      Spells sep (ascii '\\' :: d :: text) (literalEscape d ++ value)

/-- The closing quote is the one behind the text, unless another one follows it. -/
theorem literalBody_of_spells {sep : UInt8} (hSep : sep ≠ ascii '\\') {text value : Bytes} (h : Spells sep text value)
    {rest : Bytes} (hRest : rest.head? ≠ some sep) : literalBody sep (text ++ sep :: rest) = some (value, rest) := by
  induction h with
  | nil =>
      rw [List.nil_append]
      cases rest with
      | nil => rw [literalBody, if_pos rfl]
      | cons d rest =>
          have hNext : d ≠ sep := fun hEq => hRest (congrArg some hEq)
          rw [literalBody, if_neg hSep, if_pos rfl, if_neg hNext]
  | @plain c text value noEscape noQuote _ ih =>
      obtain ⟨d, more, hMore⟩ : ∃ d more, text ++ sep :: rest = d :: more :=
        List.exists_cons_of_ne_nil (List.append_ne_nil_of_right_ne_nil _ (List.cons_ne_nil _ _))
      rw [List.cons_append, hMore, literalBody, if_neg noEscape, if_neg noQuote, ← hMore, ih, Option.map_some]
  | @escape d text value _ ih =>
      rw [List.cons_append, List.cons_append, literalBody, if_pos rfl, ih, Option.map_some]

/-- A coding of bytes gives a text that spells the value when each of its pieces spells a byte. -/
theorem spells_flatMap {sep : UInt8} {encode : UInt8 → Bytes}
    (h : ∀ c, (encode c = [c] ∧ c ≠ ascii '\\' ∧ c ≠ sep) ∨ ∃ d, encode c = [ascii '\\', d] ∧ literalEscape d = [c])
    (value : Bytes) : Spells sep (value.flatMap encode) value := by
  induction value with
  | nil => exact .nil
  | cons c value ih =>
      rw [List.flatMap_cons]
      rcases h c with ⟨hPlain, hEscape, hQuote⟩ | ⟨d, hEncode, hEscape⟩
      · rw [hPlain]
        exact .plain hEscape hQuote ih
      · have hStep : Spells sep (ascii '\\' :: d :: value.flatMap encode) (literalEscape d ++ value) := .escape ih
        rw [hEscape] at hStep
        rw [hEncode]
        exact hStep

end ContainerCP.Sql
