import ContainerCP.Text.PhpString

/-! The tokens of a PHP text: inline HTML, comments, attributes, the four kinds of quoted text
with the code that is interpolated in them, and the two kinds of here documents. -/
namespace ContainerCP.Php

/-- Where the lexer stands. -/
inductive Mode where
  | html
  | code
  | lineComment
  | blockComment
  | single
  | quoted (quote : UInt8)
  | heredoc (label : Bytes)
  | nowdoc (label : Bytes)
  deriving DecidableEq

/-- Names, variables and single bytes of punctuation. Literals leave no token. -/
inductive Token where
  | word (name : Bytes)
  | variable (name : Bytes)
  | symbol (c : UInt8)
  deriving DecidableEq

/-- Bytes above 127 are letters of a name. -/
def isNameChar (c : UInt8) : Bool := isAlnum c || c == ascii '_' || 128 ≤ c

def isNameStart (c : UInt8) : Bool := isAlpha c || c == ascii '_' || 128 ≤ c

def isBlank (c : UInt8) : Bool := c == ascii ' ' || c == ascii '\t'

def isNewline (c : UInt8) : Bool := c == ascii '\n' || c == ascii '\r'

def smallLetter (c : UInt8) : UInt8 := if 65 ≤ c ∧ c ≤ 90 then c + 32 else c

/-- Words of the language are the same in small and in capital letters. -/
def small (name : Bytes) : Bytes := name.map smallLetter

def backtick : UInt8 := 96

/-- The number of bytes of an opening tag behind its first one. -/
def openTag (rest : Bytes) : Option Nat :=
  if small (rest.take 4) = bytes "?php" ∧ (rest.drop 4).head?.all isSpace then some 4
  else if rest.take 2 = bytes "?=" then some 2
  else none

/-- The label of a here document, behind the first byte of its opening, and the number of bytes up
to the end of the line. -/
def hereDocument (rest : Bytes) : Option (Mode × Nat) :=
  if rest.take 2 = bytes "<<" then
    let blanks := (rest.drop 2).takeWhile isBlank
    let behind := (rest.drop 2).dropWhile isBlank
    let quote := (behind.head?.filter fun c => c == singleQuote || c == doubleQuote).toList
    let label := (behind.drop quote.length).takeWhile isNameChar
    let ending := (behind.drop quote.length).dropWhile isNameChar
    if label.head?.any isNameStart ∧ quote <+: ending ∧ (ending.drop quote.length).head?.any isNewline then
      let mode := if quote = [singleQuote] then .nowdoc label else .heredoc label
      some (mode, 2 + blanks.length + quote.length + label.length + quote.length + 1)
    else none
  else none

/-- The bytes of the closing label, where a line of a here document starts with it. -/
def closingLabel (label line : Bytes) : Option Nat :=
  let blanks := line.takeWhile isBlank
  let behind := line.dropWhile isBlank
  if label <+: behind ∧ (behind.drop label.length).head?.all (fun c => !isNameChar c) then
    some (blanks.length + label.length)
  else none

/-- One round of the lexer. `outer` holds where a closing brace leads back to. -/
structure Round where
  mode : Mode
  outer : List Mode
  token : Option Token := none
  jump : Nat := 0

/-- Interpolated text, up to its end or to the code that stands in it. -/
def interpolated (mode : Mode) (outer : List Mode) (c next : UInt8) : Round :=
  if c = backslash then { mode, outer, jump := if isNewline next then 0 else 1 }
  else if c = ascii '\x7b' ∧ next = dollar then { mode := .code, outer := mode :: outer }
  else if c = dollar ∧ next = ascii '\x7b' then { mode := .code, outer := mode :: outer, jump := 1 }
  else { mode, outer }

/-- A byte of code. A closing tag ends the statement before it as a semicolon does. -/
def codeRound (outer : List Mode) (prev : Option UInt8) (c : UInt8) (rest : Bytes) : Round :=
  let next := rest.headD 0
  if isSpace c then { mode := .code, outer }
  else if c = ascii '?' ∧ next = ascii '>' then { mode := .html, outer, token := some (.symbol (ascii ';')), jump := 1 }
  else if c = ascii '/' ∧ next = ascii '/' then { mode := .lineComment, outer, jump := 1 }
  else if c = ascii '/' ∧ next = ascii '*' then { mode := .blockComment, outer, jump := 1 }
  else if c = ascii '#' then { mode := if next = ascii '[' then .code else .lineComment, outer }
  else if c = singleQuote then { mode := .single, outer }
  else if c = doubleQuote ∨ c = backtick then { mode := .quoted c, outer }
  else if c = ascii '\x7b' then { mode := .code, outer := .code :: outer, token := some (.symbol c) }
  else if c = ascii '\x7d' then
    match outer with
    | [] => { mode := .code, outer := [], token := some (.symbol c) }
    | .code :: outer => { mode := .code, outer, token := some (.symbol c) }
    | mode :: outer => { mode, outer }
  else if isNameStart c then
    let name := (c :: rest).takeWhile isNameChar
    { mode := .code, outer, jump := name.length - 1,
      token := some (if prev = some dollar then .variable name else .word name) }
  else
    match (if c = ascii '<' then hereDocument rest else none) with
    | some (mode, jump) => { mode, outer, jump }
    | none => { mode := .code, outer, token := some (.symbol c) }

def round (mode : Mode) (outer : List Mode) (prev : Option UInt8) (c : UInt8) (rest : Bytes) : Round :=
  let next := rest.headD 0
  let lineStart := prev.any isNewline
  match mode with
  | .html =>
      match (if c = ascii '<' then openTag rest else none) with
      | some jump => { mode := .code, outer, jump }
      | none => { mode, outer }
  | .code => codeRound outer prev c rest
  | .lineComment =>
      if isNewline c then { mode := .code, outer }
      else if c = ascii '?' ∧ next = ascii '>' then { mode := .html, outer, token := some (.symbol (ascii ';')), jump := 1 }
      else { mode, outer }
  | .blockComment =>
      if c = ascii '*' ∧ next = ascii '/' then { mode := .code, outer, jump := 1 } else { mode, outer }
  | .single =>
      if c = backslash then { mode, outer, jump := 1 }
      else { mode := if c = singleQuote then .code else .single, outer }
  | .quoted quote => if c = quote then { mode := .code, outer } else interpolated mode outer c next
  | .heredoc label =>
      match (if lineStart then closingLabel label (c :: rest) else none) with
      | some length => { mode := .code, outer, jump := length - 1 }
      | none => interpolated mode outer c next
  | .nowdoc label =>
      match (if lineStart then closingLabel label (c :: rest) else none) with
      | some length => { mode := .code, outer, jump := length - 1 }
      | none => { mode, outer }

/-- The tokens of the text with the positions where they start. The first argument counts the bytes
that the round before has taken already. -/
def tokensFrom : Nat → Nat → Mode → List Mode → Option UInt8 → Bytes → List (Nat × Token)
  | _, _, _, _, _, [] => []
  | jump + 1, i, mode, outer, _, c :: rest => tokensFrom jump (i + 1) mode outer (some c) rest
  | 0, i, mode, outer, prev, c :: rest =>
      let this := round mode outer prev c rest
      (this.token.map (i, ·)).toList ++ tokensFrom this.jump (i + 1) this.mode this.outer (some c) rest

/-- The tokens that start before a position of the text. -/
def tokensBefore (text : Bytes) (position : Nat) : List Token :=
  ((tokensFrom 0 0 .html [] none text).filter fun token => token.1 < position).map (·.2)

example : tokensBefore (bytes "it's <?php $a = \"\x7b$b['\x7d']\x7d \x7b\"; # \x7b\n<<<X\n \x7b\x7d X1\n X; ?>\x7b<?php IF (1)") 100 =
    [.symbol (ascii '$'), .variable (bytes "a"), .symbol (ascii '='), .symbol (ascii '$'), .variable (bytes "b"),
      .symbol (ascii '['), .symbol (ascii ']'), .symbol (ascii ';'), .symbol (ascii ';'), .symbol (ascii ';'),
      .word (bytes "IF"), .symbol (ascii '('), .symbol (ascii '1'), .symbol (ascii ')')] := by
  decide

end ContainerCP.Php
