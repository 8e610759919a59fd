import ContainerCP.Text.PhpTokens
import ContainerCP.Wordpress.ControlTracking

/-! Control blocks as PHP has them, and which of the calls in them the scanner flags as conditional. -/
namespace ContainerCP.Wordpress

open Php (Token tokensBefore)

/-! ### Control blocks of PHP -/

def mark (c : Char) : Token := .symbol (ascii c)

/-- A word of the language, in small letters. -/
def keyword : Token → Option Bytes
  | .word name => some (Php.small name)
  | _ => none

/-- Behind these marks a word is the name of a member, or a name in a namespace. -/
def NamesNext (before : List Token) : Prop :=
  [mark '-', mark '>'] <:+ before ∨ [mark ':', mark ':'] <:+ before ∨ [mark '\\'] <:+ before

def pairs (opening closing : List Char) (token : Token) : Turn :=
  if token ∈ opening.map mark then .opens else if token ∈ closing.map mark then .closes else .stays

def parens : Token → Turn := pairs ['('] [')']

def braces : Token → Turn := pairs ['\x7b'] ['\x7d']

def enclosures : Token → Turn := pairs ['(', '[', '\x7b'] [')', ']', '\x7d']

/-- What stands between a control keyword and what it controls. -/
inductive ControlHeader : Bytes → List Token → Prop where
  | bare {kw : Bytes} (h : kw ∈ [bytes "else", bytes "try"]) : ControlHeader kw []
  | condition {kw : Bytes} {tokens : List Token} (h : kw ∉ [bytes "else", bytes "try", bytes "function"])
      (hTokens : Balanced parens tokens) : ControlHeader kw (mark '(' :: tokens ++ [mark ')'])
  | signature {tokens : List Token} (h : ∀ token ∈ tokens, token ≠ mark ';' ∧ braces token = .stays) :
      ControlHeader (bytes "function") tokens

/-- The start of one simple statement that is not at its end yet. A statement that begins with a
control keyword of its own is a block of that keyword; a label is a statement by itself. -/
structure InStatement (tokens : List Token) : Prop where
  simple : ∀ token ∈ tokens.head?, token ≠ mark '\x7b' ∧ token ≠ mark ':' ∧
    ∀ kw ∈ keyword token, isControlKeyword kw = false ∧ kw ≠ bytes "declare"
  unlabelled : ∀ name behind, tokens = .word name :: mark ':' :: behind → [mark ':'] <+: behind
  closesOwn : ClosesOwn enclosures tokens
  unended : ∀ before behind, tokens = before ++ mark ';' :: behind → level enclosures before ≠ some 0

/-- Behind the colon of an `if`, no `endif` belongs to it yet: each one ends an `if` from behind the colon. -/
inductive OpenIf : List Token → Prop where
  | nil : OpenIf []
  | token {before : List Token} {token : Token} (h : OpenIf before)
      (hToken : keyword token = some (bytes "endif") → NamesNext before) : OpenIf (before ++ [token])
  | nested {before condition body : List Token} {first last : Token} (h : OpenIf before) (hBody : OpenIf body)
      (hFirst : keyword first = some (bytes "if")) (hCondition : Balanced parens condition)
      (hLast : keyword last = some (bytes "endif")) :
      OpenIf (before ++ first :: mark '(' :: (condition ++ mark ')' :: mark ':' :: (body ++ [last])))

theorem openIf_of_forall {tokens : List Token} (h : ∀ token ∈ tokens, keyword token ≠ some (bytes "endif")) :
    OpenIf tokens := by
  induction tokens using List.reverseRecOn with
  | nil => exact .nil
  | append_singleton before token ih =>
      refine .token (ih fun other hOther => h other (by simp [hOther])) fun hToken => ?_
      exact absurd hToken (h token (by simp))

/-- What a control keyword controls, as far as it goes: a brace block that is open still, a
statement without braces, or the alternative syntax. -/
inductive ControlBody : Bytes → List Token → Prop where
  | block {kw : Bytes} {tokens : List Token} (h : ClosesOwn braces tokens) : ControlBody kw (mark '\x7b' :: tokens)
  | statement {kw : Bytes} {tokens : List Token}
      (hKw : kw ∈ [bytes "if", bytes "elseif", bytes "else", bytes "foreach", bytes "for", bytes "while"])
      (h : InStatement tokens) : ControlBody kw tokens
  | alternative {tokens : List Token} (h : OpenIf tokens) (hBraces : ClosesOwn braces tokens) :
      ControlBody (bytes "if") (mark ':' :: tokens)

/-- The place behind the tokens is inside a control block. -/
def InsideControl (tokens : List Token) : Prop :=
  ∃ before kw name header body, tokens = before ++ kw :: (header ++ body) ∧ ¬ NamesNext before ∧
    keyword kw = some name ∧ isControlKeyword name = true ∧ ControlHeader name header ∧ ControlBody name body

/-! ### Which calls are flagged -/

/-- The scanner flags every call that it reports from inside a control block. -/
def Complete (content : Bytes) : Prop :=
  ∀ call ∈ findPhpDefineCalls content, InsideControl (tokensBefore content call.offset) → call.conditional = true

/-- The flags are complete for exactly the texts in which a control keyword reaches every call
inside a control block, or reaches a brace around it: from the keyword, written in small letters,
there is no other brace and no semicolon but in the parentheses behind it. -/
theorem complete_iff (content : Bytes) :
    Complete content ↔
      ∀ before call behind, lexemesOf content = before ++ .define call :: behind →
        InsideControl (tokensBefore content call.offset) → Guarded before := by
  simp only [Complete, findPhpDefineCalls_eq_report, mem_report]
  constructor
  · intro h before call behind hSplit hInside
    have hFlag := h _ ⟨before, call, behind, hSplit, rfl⟩ hInside
    exact (anyConditionalScope_iff_guarded before).mp hFlag
  · rintro h call ⟨before, found, behind, hSplit, rfl⟩ hInside
    exact (anyConditionalScope_iff_guarded before).mpr (h before found behind hSplit hInside)

/-- The second statement of an `if` with a colon. -/
def alternativeText : Bytes := bytes "<?php if ($x): a(); define('DB_NAME', 'b'); endif;"

/-- Behind the first semicolon of an `if` with a colon, the scanner takes the code for unconditional. -/
theorem not_complete_alternative : ¬ ∀ content, Complete content := by
  intro h
  have hCalls : (findPhpDefineCalls alternativeText).map (fun call => (call.offset, call.conditional)) = [(20, false)] := by
    decide
  have hTokens : tokensBefore alternativeText 20 =
      [.word (bytes "if"), mark '(', mark '$', .variable (bytes "x"), mark ')', mark ':', .word (bytes "a"), mark '(',
        mark ')', mark ';'] := by
    decide
  have hInside : InsideControl (tokensBefore alternativeText 20) := by
    rw [hTokens]
    refine ⟨[], .word (bytes "if"), bytes "if", mark '(' :: [mark '$', .variable (bytes "x")] ++ [mark ')'],
      mark ':' :: [.word (bytes "a"), mark '(', mark ')', mark ';'], rfl, ?_, ?_, ?_, ?_, ?_⟩
    · simp [NamesNext]
    · decide
    · decide
    · exact .condition (by decide) (by decide)
    · exact .alternative (openIf_of_forall (by decide)) (by decide)
  have hReported : (20, false) ∈ (findPhpDefineCalls alternativeText).map fun call => (call.offset, call.conditional) := by
    rw [hCalls]
    exact List.mem_singleton_self _
  obtain ⟨call, hMem, hCall⟩ := List.mem_map.mp hReported
  obtain ⟨hOffset, hFlag⟩ := Prod.mk.inj hCall
  have hConditional := h alternativeText call hMem (by rwa [hOffset])
  exact absurd (hFlag.symm.trans hConditional) (by decide)

end ContainerCP.Wordpress
