import ContainerCP.Text.Bytes

/-! How the MariaDB client takes a text apart: spaces and comments are skipped, quoted text
hides what is in it, an executable comment does not, and a statement ends at the delimiter,
which a `DELIMITER` command changes. -/
namespace ContainerCP.Sql

/-! ## Pieces -/

/-- A piece of a text. The limits of an executable comment are blank, what is between them
is not; so is a `DELIMITER` command. Everything that is neither a word nor the delimiter
is `other`: quoted text and single marks. -/
inductive Piece where
  | blank (text : Bytes)
  | word (text : Bytes)
  | other (text : Bytes)
  | stop (text : Bytes)
  deriving DecidableEq

def Piece.text : Piece → Bytes
  | blank text => text
  | word text => text
  | other text => text
  | stop text => text

def Piece.isBlank : Piece → Bool
  | blank _ => true
  | _ => false

def Piece.isStop : Piece → Bool
  | stop _ => true
  | _ => false

def foldCase (c : UInt8) : UInt8 := if 65 ≤ c && c ≤ 90 then c + 32 else c

/-- Where the client is: in an executable comment, before the first piece of a statement
that is not blank, and which delimiter it waits for. -/
structure Lexer where
  executable : Bool := false
  fresh : Bool := true
  delimiter : Bytes := [ascii ';']
  deriving DecidableEq

def isWordByte (c : UInt8) : Bool := isAlnum c || c = ascii '_' || c = ascii '$' || 128 ≤ c

/-- How much of a text lies before the end of its line. -/
def lineLength (text : Bytes) : Nat := (text.takeWhile (· ≠ 10)).length

/-- How much of a text its first comment takes, behind the opening. -/
def commentLength : Bytes → Nat
  | [] => 0
  | [_] => 1
  | c :: d :: rest => if c = ascii '*' ∧ d = ascii '/' then 2 else commentLength (d :: rest) + 1

/-- How much of a text a quoted text takes, behind the opening quote. Between backquotes
the backslash is a byte like others. -/
def quotedLength (quote : UInt8) : Bytes → Nat
  | [] => 0
  | [_] => 1
  | c :: d :: rest =>
      if c = quote then 1
      else if c = ascii '\\' ∧ quote ≠ 96 then quotedLength quote rest + 2
      else quotedLength quote (d :: rest) + 1

/-- The argument of a `DELIMITER` command, from the text behind the word. -/
def delimiterArgument (text : Bytes) : Bytes :=
  ((text.takeWhile (· ≠ 10)).dropWhile isSpace).takeWhile (!isSpace ·)

/-- The opening of an executable comment behind its first slash and star: the mark, and the
number of a version. -/
def executableLength (text : Bytes) : Option Nat :=
  match text with
  | c :: rest =>
      if c = ascii '!' then some ((rest.takeWhile isDigit).length + 1)
      else if c = ascii 'M' ∧ rest.head? = some (ascii '!') then some ((rest.tail.takeWhile isDigit).length + 2)
      else none
  | [] => none

/-- The piece at the front of a text that starts with `c`, as its kind and its length
behind `c`, and where the client is then. The client also drops a line that starts with two
dashes and no space, while it holds nothing; here such a line is read on. -/
def Lexer.scan (lexer : Lexer) (c : UInt8) (rest : Bytes) : (Bytes → Piece) × Nat × Lexer :=
  let settled := { lexer with fresh := false }
  if lexer.delimiter ≠ [] ∧ lexer.delimiter.isPrefixOf (c :: rest) then
    (.stop, lexer.delimiter.length - 1, { lexer with fresh := true })
  else if isSpace c then (.blank, 0, lexer)
  else if c = ascii '#' then (.blank, lineLength rest, lexer)
  else if c = ascii '-' ∧ rest.head? = some (ascii '-') ∧ rest.tail.head?.all (· ≤ 32) then
    (.blank, lineLength rest, lexer)
  else if c = ascii '/' ∧ rest.head? = some (ascii '*') then
    match executableLength rest.tail with
    | some n => (.blank, n + 1, { lexer with executable := true })
    | none => (.blank, commentLength rest.tail + 1, lexer)
  else if lexer.executable ∧ c = ascii '*' ∧ rest.head? = some (ascii '/') then
    (.blank, 1, { lexer with executable := false })
  else if c = ascii '\'' ∨ c = ascii '"' ∨ c = 96 then (.other, quotedLength c rest, settled)
  else if isWordByte c then
    let name := c :: rest.takeWhile isWordByte
    if lexer.fresh ∧ name.map foldCase = bytes "delimiter" then
      (.blank, lineLength rest, { lexer with delimiter := delimiterArgument (rest.dropWhile isWordByte) })
    else (.word, (rest.takeWhile isWordByte).length, settled)
  else (.other, 0, settled)

/-- The pieces of a text, with enough fuel for one byte each. -/
def piecesWithin : Nat → Lexer → Bytes → List Piece
  | _, _, [] => []
  | 0, _, _ => []
  | fuel + 1, lexer, c :: rest =>
      let found := lexer.scan c rest
      found.1 (c :: rest.take found.2.1) :: piecesWithin fuel found.2.2 (rest.drop found.2.1)

/-- The pieces of a text. -/
def pieces (text : Bytes) : List Piece := piecesWithin text.length {} text

/-! ## Statements -/

/-- A statement begins at the front of the pieces and behind each delimiter. -/
def Begins (all behind : List Piece) : Prop :=
  behind = all ∨ ∃ front text, all = front ++ .stop text :: behind

/-- The text from the first piece of a statement on. -/
def leadText (behind : List Piece) : Bytes := (behind.dropWhile Piece.isBlank).flatMap Piece.text

/-- The words of the statement at the front, in small letters. What is not a word leaves a
gap that no keyword fills. -/
def keywords (behind : List Piece) : List Bytes :=
  ((behind.takeWhile (!·.isStop)).filter (!·.isBlank)).map fun
    | .word text => text.map foldCase
    | _ => []

/-! ## Nothing is lost -/

theorem Lexer.scan_text (lexer : Lexer) (c : UInt8) (rest text : Bytes) : ((lexer.scan c rest).1 text).text = text := by
  have hBranch : ∀ (p : Prop) [Decidable p] (first second : (Bytes → Piece) × Nat × Lexer), (first.1 text).text = text →
      (second.1 text).text = text → ((if p then first else second).1 text).text = text := by
    intro p _ first second hFirst hSecond
    split
    · exact hFirst
    · exact hSecond
  unfold Lexer.scan
  dsimp only
  refine hBranch _ _ _ rfl (hBranch _ _ _ rfl (hBranch _ _ _ rfl (hBranch _ _ _ rfl (hBranch _ _ _ ?_ ?_))))
  · cases executableLength rest.tail <;> rfl
  · exact hBranch _ _ _ rfl (hBranch _ _ _ rfl (hBranch _ _ _ (hBranch _ _ _ rfl rfl) rfl))

theorem flatMap_piecesWithin (fuel : Nat) (lexer : Lexer) (text : Bytes) (h : text.length ≤ fuel) :
    (piecesWithin fuel lexer text).flatMap Piece.text = text := by
  induction fuel generalizing lexer text with
  | zero =>
      rw [List.eq_nil_of_length_eq_zero (Nat.le_zero.mp h)]
      rfl
  | succ fuel ih =>
      cases text with
      | nil => rfl
      | cons c rest =>
          have hRest : (rest.drop (lexer.scan c rest).2.1).length ≤ fuel := by
            rw [List.length_drop]
            simp only [List.length_cons] at h
            omega
          rw [piecesWithin, List.flatMap_cons, Lexer.scan_text, ih _ _ hRest, List.cons_append, List.take_append_drop]

/-- The pieces in a row are the text. -/
theorem flatMap_pieces (text : Bytes) : (pieces text).flatMap Piece.text = text :=
  flatMap_piecesWithin text.length {} text (Nat.le_refl _)

/-- A statement is written in the text. -/
theorem leadText_infix {text : Bytes} {behind : List Piece} (h : Begins (pieces text) behind) : leadText behind <:+: text := by
  have hLead : leadText behind <:+ behind.flatMap Piece.text := by
    refine ⟨(behind.takeWhile Piece.isBlank).flatMap Piece.text, ?_⟩
    rw [leadText, ← List.flatMap_append, List.takeWhile_append_dropWhile]
  have hBehind : behind.flatMap Piece.text <:+ text := by
    rcases h with rfl | ⟨front, delimiter, hAll⟩
    · exact ⟨[], flatMap_pieces text⟩
    · have hText := flatMap_pieces text
      rw [hAll, List.flatMap_append, List.flatMap_cons, ← List.append_assoc] at hText
      exact ⟨_, hText⟩
  exact (hLead.trans hBehind).isInfix

end ContainerCP.Sql
