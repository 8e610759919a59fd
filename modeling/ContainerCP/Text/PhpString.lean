import ContainerCP.Text.Bytes

/-! The string literals of PHP: the bytes that a text in single or in double quotes stands
for. A text that is not one such literal, or whose value is put together at run time, stands
for none. -/
namespace ContainerCP.Php

def backslash : UInt8 := ascii '\\'

def singleQuote : UInt8 := ascii '\''

def doubleQuote : UInt8 := ascii '"'

def dollar : UInt8 := ascii '$'

/-! ## Single quotes -/

/-- The bytes behind an opening single quote. Only a quote and a backslash can be escaped; in
front of any other byte a backslash stands for itself. -/
def singleBody : Bytes → Option Bytes
  | [] => none
  | c :: rest =>
      if c = backslash then
        match rest with
        | [] => none
        | e :: rest =>
            if e = backslash ∨ e = singleQuote then (singleBody rest).map (e :: ·)
            else (singleBody rest).map fun value => c :: e :: value
      else if c = singleQuote then if rest = [] then some [] else none
      else (singleBody rest).map (c :: ·)

theorem singleBody_escape {e : UInt8} (h : e = backslash ∨ e = singleQuote) (rest : Bytes) :
    singleBody (backslash :: e :: rest) = (singleBody rest).map (e :: ·) := by
  rw [singleBody.eq_def]
  simp only [if_true, if_pos h]

theorem singleBody_plain {c : UInt8} (hEscape : c ≠ backslash) (hQuote : c ≠ singleQuote) (rest : Bytes) :
    singleBody (c :: rest) = (singleBody rest).map (c :: ·) := by
  rw [singleBody.eq_def]
  simp only [if_neg hEscape, if_neg hQuote]

/-! ## Double quotes -/

def isOctal (c : UInt8) : Bool := ascii '0' ≤ c && c ≤ ascii '7'

def hexDigitValue (c : UInt8) : Option Nat :=
  if isDigit c then some (c.toNat - 48)
  else if ascii 'A' ≤ c ∧ c ≤ ascii 'F' then some (c.toNat - 55)
  else if ascii 'a' ≤ c ∧ c ≤ ascii 'f' then some (c.toNat - 87)
  else none

def isHex (c : UInt8) : Bool := (hexDigitValue c).isSome

def octalValue (digits : Bytes) : Nat := digits.foldl (fun value c => 8 * value + (c.toNat - 48)) 0

def hexNumber (digits : Bytes) : Nat := digits.foldl (fun value c => 16 * value + (hexDigitValue c).getD 0) 0

/-- The UTF-8 bytes of a code point. -/
def utf8 (n : Nat) : Bytes :=
  if n < 0x80 then [.ofNat n]
  else if n < 0x800 then [.ofNat (0xC0 + n / 0x40), .ofNat (0x80 + n % 0x40)]
  else if n < 0x10000 then [.ofNat (0xE0 + n / 0x1000), .ofNat (0x80 + n / 0x40 % 0x40), .ofNat (0x80 + n % 0x40)]
  else [.ofNat (0xF0 + n / 0x40000), .ofNat (0x80 + n / 0x1000 % 0x40), .ofNat (0x80 + n / 0x40 % 0x40), .ofNat (0x80 + n % 0x40)]

/-- The escapes of one byte behind the backslash. -/
def shortEscapes : List (UInt8 × UInt8) :=
  [(ascii 'n', 10), (ascii 't', 9), (ascii 'r', 13), (ascii 'v', 11), (ascii 'e', 27), (ascii 'f', 12),
    (backslash, backslash), (dollar, dollar), (doubleQuote, doubleQuote)]

/-- What the bytes behind a backslash stand for, and how many of them belong to it. -/
def escapeSequence : Bytes → Option (Bytes × Nat)
  | [] => none
  | c :: rest =>
      match shortEscapes.lookup c with
      | some value => some ([value], 1)
      | none =>
          if isOctal c then
            let digits := ((c :: rest).take 3).takeWhile isOctal
            some ([.ofNat (octalValue digits)], digits.length)
          else if (c = ascii 'x' ∨ c = ascii 'X') ∧ rest.head?.any isHex then
            let digits := (rest.take 2).takeWhile isHex
            some ([.ofNat (hexNumber digits)], digits.length + 1)
          else if c = ascii 'u' ∧ rest.head? = some (ascii '{') then
            let digits := rest.tail.takeWhile isHex
            if digits ≠ [] ∧ (rest.tail.drop digits.length).head? = some (ascii '}') ∧ hexNumber digits ≤ 0x10FFFF then
              some (utf8 (hexNumber digits), digits.length + 3)
            else none
          else some ([backslash, c], 1)

/-- Behind a dollar sign a variable begins. -/
def startsVariable (rest : Bytes) : Bool := rest.head?.any fun c => isAlpha c || c = ascii '_' || 0x80 ≤ c || c = ascii '{'

/-- The bytes behind an opening double quote. The first argument counts the bytes that belong
to an escape already read. -/
def doubleBody : Nat → Bytes → Option Bytes
  | _, [] => none
  | jump + 1, _ :: rest => doubleBody jump rest
  | 0, c :: rest =>
      if c = doubleQuote then if rest = [] then some [] else none
      else if c = backslash then
        (escapeSequence rest).bind fun escape => (doubleBody escape.2 rest).map (escape.1 ++ ·)
      else if c = dollar ∧ startsVariable rest then none
      else if c = ascii '{' ∧ rest.head? = some dollar then none
      else (doubleBody 0 rest).map (c :: ·)

theorem doubleBody_jump (front rest : Bytes) : doubleBody front.length (front ++ rest) = doubleBody 0 rest := by
  induction front with
  | nil => rfl
  | cons c front ih => exact ih

/-- An escape takes the bytes that belong to it. -/
theorem doubleBody_escape {escape rest value : Bytes} (h : escapeSequence (escape ++ rest) = some (value, escape.length)) :
    doubleBody 0 (backslash :: (escape ++ rest)) = (doubleBody 0 rest).map (value ++ ·) := by
  have hQuote : backslash ≠ doubleQuote := by decide
  rw [doubleBody, if_neg hQuote, if_pos rfl, h, Option.bind_some, doubleBody_jump]

theorem doubleBody_plain {c : UInt8} {rest : Bytes} (hQuote : c ≠ doubleQuote) (hEscape : c ≠ backslash)
    (hDollar : c ≠ dollar) (hRest : rest.head? ≠ some dollar) : doubleBody 0 (c :: rest) = (doubleBody 0 rest).map (c :: ·) := by
  rw [doubleBody, if_neg hQuote, if_neg hEscape, if_neg fun h => hDollar h.1, if_neg fun h => hRest h.2]

/-! ## Literals -/

/-- The value of a string literal. -/
def stringLiteral : Bytes → Option Bytes
  | [] => none
  | c :: rest =>
      if c = singleQuote then singleBody rest
      else if c = doubleQuote then doubleBody 0 rest
      else none

end ContainerCP.Php
