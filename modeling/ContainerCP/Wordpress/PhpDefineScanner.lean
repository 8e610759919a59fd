import ContainerCP.Text.Bytes

/-! The scanner that finds `define(...)` calls in a `wp-config.php`. The C++
loops walk an index over the content; here they walk the remaining suffix,
with the index alongside, and a jump of the index is a count of bytes that the
walk passes over without looking at them. -/
namespace ContainerCP.Wordpress

/-- What the two loops over the content keep in their four flags: at most one
of the flags is ever set. -/
inductive LexMode where
  | code
  | lineComment
  | blockComment
  | single
  | double
  deriving DecidableEq

/-- The part of the loop body that both loops share: strings and comments.
`none` is a byte of code outside both, otherwise the new mode and whether the
following byte is jumped over. -/
def lexStep : LexMode → UInt8 → UInt8 → Option (LexMode × Bool)
  | .lineComment, c, _ =>
      if c = ascii '\n' ∨ c = ascii '\r' then some (.code, false) else some (.lineComment, false)
  | .blockComment, c, next =>
      if c = ascii '*' ∧ next = ascii '/' then some (.code, true) else some (.blockComment, false)
  | .single, c, _ =>
      if c = ascii '\\' then some (.single, true)
      else if c = ascii '\'' then some (.code, false) else some (.single, false)
  | .double, c, _ =>
      if c = ascii '\\' then some (.double, true)
      else if c = ascii '"' then some (.code, false) else some (.double, false)
  | .code, c, next =>
      if c = ascii '/' ∧ next = ascii '/' then some (.lineComment, true)
      else if c = ascii '#' then some (.lineComment, false)
      else if c = ascii '/' ∧ next = ascii '*' then some (.blockComment, true)
      else if c = ascii '\'' then some (.single, false)
      else if c = ascii '"' then some (.double, false)
      else none

/-- The loop of `find_define_close` on the bytes after the opening parenthesis.
`jump` is set when the next byte is passed over; the nesting `depth` is at
least one while the loop runs. -/
def findDefineClose : Bool → LexMode → Nat → Nat → Bytes → Option Nat
  | _, _, _, _, [] => none
  | true, mode, depth, pos, _ :: rest => findDefineClose false mode depth (pos + 1) rest
  | false, mode, depth, pos, c :: rest =>
      match lexStep mode c (rest.headD 0) with
      | some (mode', jump) => findDefineClose jump mode' depth (pos + 1) rest
      | none =>
          if c = ascii '(' then findDefineClose false mode (depth + 1) (pos + 1) rest
          else if c = ascii ')' then
            if depth = 1 then some pos else findDefineClose false mode (depth - 1) (pos + 1) rest
          else findDefineClose false mode depth (pos + 1) rest

structure PhpDefineCall where
  offset : Nat
  bodyStart : Nat
  closeParen : Nat
  body : Bytes
  conditional : Bool
  deriving DecidableEq

def isIdentifierChar (c : UInt8) : Bool := isAlnum c || c == ascii '_'

def controlKeywords : List Bytes :=
  [bytes "if", bytes "elseif", bytes "else", bytes "switch", bytes "foreach", bytes "for",
    bytes "while", bytes "try", bytes "catch", bytes "function"]

def isControlKeyword (token : Bytes) : Bool := controlKeywords.contains token

/-- The state of the main loop besides its index. The last element of the C++
`block_stack` is the head of the list. -/
structure ScanState where
  mode : LexMode := .code
  pendingControl : Bool := false
  pendingControlParenDepth : Nat := 0
  blockStack : List Bool := []
  deriving DecidableEq

def anyConditionalScope (st : ScanState) : Bool := st.pendingControl || st.blockStack.any id

/-- The end of the loop body: a byte of code that starts no identifier. -/
def ScanState.punctuation (st : ScanState) (c : UInt8) : ScanState :=
  let st :=
    if st.pendingControl ∧ c = ascii '(' then
      { st with pendingControlParenDepth := st.pendingControlParenDepth + 1 }
    else if st.pendingControl ∧ c = ascii ')' ∧ 0 < st.pendingControlParenDepth then
      { st with pendingControlParenDepth := st.pendingControlParenDepth - 1 }
    else st
  if c = ascii '{' then
    { st with
      blockStack := st.pendingControl :: st.blockStack, pendingControl := false,
      pendingControlParenDepth := 0 }
  else if c = ascii '}' then
    { st with
      blockStack := st.blockStack.tail, pendingControl := false, pendingControlParenDepth := 0 }
  else if c = ascii ';' ∧ st.pendingControlParenDepth = 0 then { st with pendingControl := false }
  else st

/-- The call that starts with the identifier `define` at index `i`, if an
opening parenthesis follows and a closing one matches it. -/
def defineCallAt (st : ScanState) (i : Nat) (suffix : Bytes) : Option PhpDefineCall :=
  let token := suffix.takeWhile isIdentifierChar
  let afterToken := suffix.dropWhile isIdentifierChar
  let spaces := afterToken.takeWhile isSpace
  match afterToken.dropWhile isSpace with
  | [] => none
  | c :: inside =>
      let openParen := i + token.length + spaces.length
      if c = ascii '(' then
        match findDefineClose false .code 1 (openParen + 1) inside with
        | some close => some
            { offset := i
              bodyStart := openParen + 1
              closeParen := close
              body := inside.take (close - openParen - 1)
              conditional := anyConditionalScope st }
        | none => none
      else none

/-- An identifier counts as a word of its own unless a `$` stands right before
it. -/
def notVariable (prev : Option UInt8) : Bool := prev != some (ascii '$')

/-- The main loop. The first argument counts the bytes that the index has
still to jump over, and `prev` is the byte before the current one. -/
def scan : Nat → Nat → Option UInt8 → ScanState → Bytes → List PhpDefineCall
  | _, _, _, _, [] => []
  | jump + 1, i, _, st, c :: rest => scan jump (i + 1) (some c) st rest
  | 0, i, prev, st, c :: rest =>
      match lexStep st.mode c (rest.headD 0) with
      | some (mode, jump) => scan jump.toNat (i + 1) (some c) { st with mode } rest
      | none =>
          if isAlpha c || c == ascii '_' then
            let token := (c :: rest).takeWhile isIdentifierChar
            let call :=
              if notVariable prev && token == bytes "define" then defineCallAt st i (c :: rest)
              else none
            match call with
            | some call => call :: scan (call.closeParen - i) (i + 1) (some c) st rest
            | none =>
                let st' :=
                  if notVariable prev && isControlKeyword token then { st with pendingControl := true }
                  else st
                scan (token.length - 1) (i + 1) (some c) st' rest
          else scan 0 (i + 1) (some c) (st.punctuation c) rest

def findPhpDefineCalls (content : Bytes) : List PhpDefineCall := scan 0 0 none {} content

structure PhpArgumentSpan where
  start : Nat
  stop : Nat
  text : Bytes
  deriving DecidableEq

/-- The flags of `split_php_top_level_arguments`. The depths are signed: a
closing bracket without an opening one takes them below zero. -/
structure SplitState where
  quote : Option UInt8 := none
  parenDepth : Int := 0
  bracketDepth : Int := 0
  braceDepth : Int := 0
  deriving DecidableEq

/-- A byte outside the strings of the body. -/
def SplitState.codeByte (st : SplitState) (c : UInt8) : SplitState :=
  if c = ascii '\'' ∨ c = ascii '"' then { st with quote := some c }
  else if c = ascii '(' then { st with parenDepth := st.parenDepth + 1 }
  else if c = ascii ')' then { st with parenDepth := st.parenDepth - 1 }
  else if c = ascii '[' then { st with bracketDepth := st.bracketDepth + 1 }
  else if c = ascii ']' then { st with bracketDepth := st.bracketDepth - 1 }
  else if c = ascii '{' then { st with braceDepth := st.braceDepth + 1 }
  else if c = ascii '}' then { st with braceDepth := st.braceDepth - 1 }
  else st

def SplitState.topLevel (st : SplitState) : Bool :=
  st.parenDepth == 0 && st.bracketDepth == 0 && st.braceDepth == 0

/-- Put a byte in front of the first piece. -/
def consHead (c : UInt8) : List Bytes → List Bytes
  | [] => [[c]]
  | piece :: pieces => (c :: piece) :: pieces

/-- The pieces of the body between the commas outside strings and brackets.
Comments are not recognised here, unlike in `find_define_close`. -/
def splitPieces : Bool → SplitState → Bytes → List Bytes
  | _, _, [] => [[]]
  | true, st, c :: rest => consHead c (splitPieces false st rest)
  | false, st, c :: rest =>
      match st.quote with
      | some q =>
          if c = ascii '\\' then consHead c (splitPieces true st rest)
          else if c = q then consHead c (splitPieces false { st with quote := none } rest)
          else consHead c (splitPieces false st rest)
      | none =>
          if c = ascii ',' ∧ st.topLevel then [] :: splitPieces false st rest
          else consHead c (splitPieces false (st.codeByte c) rest)

/-- `push_arg`: the piece that starts at `start`, without the spaces around it. -/
def pushArg (bodyStart start : Nat) (piece : Bytes) : PhpArgumentSpan :=
  let leading := (piece.takeWhile isSpace).length
  let text := trim piece
  { start := bodyStart + start + leading, stop := bodyStart + start + leading + text.length, text }

def pushArgs (bodyStart : Nat) : Nat → List Bytes → List PhpArgumentSpan
  | _, [] => []
  | start, piece :: pieces =>
      pushArg bodyStart start piece :: pushArgs bodyStart (start + piece.length + 1) pieces

def splitPhpTopLevelArguments (body : Bytes) (bodyStart : Nat) : List PhpArgumentSpan :=
  pushArgs bodyStart 0 (splitPieces false {} body)

/-- What may stand after the closing quote: nothing but spaces, or a semicolon. -/
def literalEnd (rest : Bytes) : Bool := trim rest == [] || trim rest == bytes ";"

/-- The loop of `parse_php_string_literal` after the opening quote: every
escaped byte stands for itself. -/
def parseLiteralBody (quote : UInt8) : Bytes → Option Bytes
  | [] => none
  | c :: rest =>
      if c = ascii '\\' then
        match rest with
        | [] => none
        | escaped :: rest => (parseLiteralBody quote rest).map (escaped :: ·)
      else if c = quote then if literalEnd rest then some [] else none
      else (parseLiteralBody quote rest).map (c :: ·)

def parsePhpStringLiteral (expr : Bytes) : Option Bytes :=
  match trim expr with
  | quote :: c :: rest =>
      if quote = ascii '\'' ∨ quote = ascii '"' then parseLiteralBody quote (c :: rest) else none
  | _ => none

structure PhpLiteralValueSpan where
  valueStart : Nat
  valueEnd : Nat
  quote : UInt8
  deriving DecidableEq

/-- The loop of `php_literal_value_span` after the opening quote: the number
of bytes before the closing one. -/
def literalValueLength (quote : UInt8) : Bytes → Option Nat
  | [] => none
  | c :: rest =>
      if c = ascii '\\' then
        match rest with
        | [] => none
        | _ :: rest => (literalValueLength quote rest).map (· + 2)
      else if c = quote then if literalEnd rest then some 0 else none
      else (literalValueLength quote rest).map (· + 1)

def phpLiteralValueSpan (arg : PhpArgumentSpan) : Option PhpLiteralValueSpan :=
  match arg.text with
  | quote :: c :: rest =>
      if quote = ascii '\'' ∨ quote = ascii '"' then
        (literalValueLength quote (c :: rest)).map fun n =>
          { valueStart := arg.start + 1, valueEnd := arg.start + 1 + n, quote }
      else none
  | _ => none

end ContainerCP.Wordpress
