import ContainerCP.Wordpress.ConfigUpdater
import ContainerCP.Wordpress.Lexing

/-! The arguments of a `define` and the string literals among them. The value
parser, the span finder and the splitter each walk the body on their own; here
they are brought down to one description of a literal, its quote and the bytes
between its quotes. -/
namespace ContainerCP.Wordpress

theorem trim_append_spaces {spaces : Bytes} (value : Bytes) (h : ∀ c ∈ spaces, isSpace c = true) :
    trim (value ++ spaces) = trim value := by
  by_cases hAll : ∀ c ∈ value, isSpace c = true
  · rw [trim_spaces_append hAll, ← List.append_nil value, trim_spaces_append hAll,
      ← List.append_nil spaces, trim_spaces_append h]
  · simp only [trim]
    rw [List.dropWhile_append, if_neg, rdropWhile_append_spaces h]
    rw [List.isEmpty_iff, List.dropWhile_eq_nil_iff]
    exact hAll

theorem trim_rdropWhile (value : Bytes) : trim (value.rdropWhile isSpace) = trim value := by
  obtain ⟨spaces, hValue, hSpaces⟩ := exists_trailing_spaces value
  conv_rhs => rw [hValue]
  rw [trim_append_spaces _ hSpaces]

theorem trim_dropWhile (value : Bytes) : trim (value.dropWhile isSpace) = trim value := by
  obtain ⟨spaces, hValue, hSpaces⟩ := exists_leading_spaces value
  conv_rhs => rw [hValue]
  rw [trim_spaces_append hSpaces]

theorem trim_trim (value : Bytes) : trim (trim value) = trim value := by
  conv_lhs => arg 1; rw [trim]
  rw [trim_rdropWhile, trim_dropWhile]

/-- What trimming took away. -/
theorem exists_trim (value : Bytes) :
    ∃ leading trailing, value = leading ++ (trim value ++ trailing) ∧
      leading = value.takeWhile isSpace ∧ (∀ c ∈ leading, isSpace c = true) ∧
      ∀ c ∈ trailing, isSpace c = true := by
  obtain ⟨trailing, hTrailing, hSpaces⟩ := exists_trailing_spaces (value.dropWhile isSpace)
  refine ⟨value.takeWhile isSpace, trailing, ?_, rfl, fun _ => List.mem_takeWhile_imp, hSpaces⟩
  rw [trim, ← hTrailing, List.takeWhile_append_dropWhile]

/-- A text that starts with a quoted literal, after spaces, keeps it when it is
trimmed. -/
theorem trim_quoted {q : UInt8} (hq : IsQuote q) {spaces : Bytes}
    (hSpaces : ∀ c ∈ spaces, isSpace c = true) (literal tail : Bytes) :
    trim (spaces ++ q :: (literal ++ q :: tail)) =
      q :: (literal ++ q :: tail.rdropWhile isSpace) := by
  have hQuote : isSpace q = false := by obtain rfl | rfl := hq <;> decide
  have hReverse : (q :: (literal ++ q :: tail)).reverse =
      tail.reverse ++ q :: (q :: literal).reverse := by simp
  rw [trim_spaces_append hSpaces, trim, dropWhile_eq_self_of_head hQuote, List.rdropWhile, hReverse,
    List.dropWhile_append]
  split_ifs with hEmpty
  · have hTail : tail.rdropWhile isSpace = [] := by
      rw [List.rdropWhile, List.isEmpty_iff.mp hEmpty, List.reverse_nil]
    rw [dropWhile_eq_self_of_head hQuote, hTail]
    simp
  · simp [List.rdropWhile]

theorem literalEnd_rdropWhile (tail : Bytes) :
    literalEnd (tail.rdropWhile isSpace) = literalEnd tail := by
  rw [literalEnd, trim_rdropWhile, literalEnd]

theorem literalEnd_append_spaces {spaces : Bytes} (tail : Bytes)
    (h : ∀ c ∈ spaces, isSpace c = true) : literalEnd (tail ++ spaces) = literalEnd tail := by
  rw [literalEnd, trim_append_spaces _ h, literalEnd]

/-- Bytes that move neither the scanner nor the splitter. -/
def inert (c : UInt8) : Bool :=
  plainCode c && c != ascii ',' && decide (({} : SplitState).codeByte c = {})

theorem inert_of_isSpace {c : UInt8} (h : isSpace c = true) : inert c = true := by
  have hAll : ∀ n : Fin 256, isSpace (UInt8.ofFin n) = true → inert (UInt8.ofFin n) = true := by
    decide +kernel
  exact hAll c.toFin h

theorem plainCode_of_inert {c : UInt8} (h : inert c = true) : plainCode c = true := by
  simp only [inert, Bool.and_eq_true] at h
  exact h.1.1

/-- What stands behind a literal is inert. -/
theorem inert_of_literalEnd {tail : Bytes} (h : literalEnd tail = true) :
    ∀ c ∈ tail, inert c = true := by
  obtain ⟨leading, trailing, hTail, -, hLeading, hTrailing⟩ := exists_trim tail
  have hMiddle : ∀ c ∈ trim tail, inert c = true := by
    simp only [literalEnd, Bool.or_eq_true, beq_iff_eq] at h
    rcases h with h | h <;> rw [h] <;> decide +kernel
  intro c hc
  rw [hTail] at hc
  simp only [List.mem_append] at hc
  rcases hc with hc | hc | hc
  · exact inert_of_isSpace (hLeading c hc)
  · exact hMiddle c hc
  · exact inert_of_isSpace (hTrailing c hc)

theorem parseLiteralBody_escape (q e : UInt8) (rest : Bytes) :
    parseLiteralBody q (ascii '\\' :: e :: rest) = (parseLiteralBody q rest).map (e :: ·) := by
  rw [parseLiteralBody.eq_def]
  simp only [if_true]

theorem parseLiteralBody_plain {q c : UInt8} (rest : Bytes) (hEscape : c ≠ ascii '\\')
    (hQuote : c ≠ q) : parseLiteralBody q (c :: rest) = (parseLiteralBody q rest).map (c :: ·) := by
  rw [parseLiteralBody.eq_def]
  simp only [hEscape, hQuote, if_false]

theorem parseLiteralBody_close {q : UInt8} (hq : IsQuote q) {tail : Bytes}
    (h : literalEnd tail = true) : parseLiteralBody q (q :: tail) = some [] := by
  have hEscape : q ≠ ascii '\\' := by obtain rfl | rfl := hq <;> decide
  rw [parseLiteralBody.eq_def]
  simp only [hEscape, h, if_true, if_false]

/-- The value of a literal is what its bytes stand for. -/
theorem parseLiteralBody_literal {q : UInt8} (hq : IsQuote q) {literal tail : Bytes}
    (hLiteral : literalBody q literal = true) (hTail : literalEnd tail = true) :
    parseLiteralBody q (literal ++ q :: tail) = some (unescape literal) := by
  induction literal, hLiteral using literalBody_induction with
  | nil => exact parseLiteralBody_close hq hTail
  | escape e rest _ ih =>
      rw [List.cons_append, List.cons_append, parseLiteralBody_escape, ih, unescape_escape]
      rfl
  | plain c rest hEscape hQuote _ ih =>
      rw [List.cons_append, parseLiteralBody_plain _ hEscape hQuote, ih, unescape_plain _ hEscape]
      rfl

/-- A quoted literal, from behind its opening quote on: the bytes before the
closing quote and what follows it. -/
structure IsLiteral (q : UInt8) (text literal tail : Bytes) : Prop where
  text_eq : text = literal ++ q :: tail
  body : literalBody q literal = true
  tail_end : literalEnd tail = true

theorem IsLiteral.escape {q : UInt8} {text literal tail : Bytes} (e : UInt8)
    (h : IsLiteral q text literal tail) :
    IsLiteral q (ascii '\\' :: e :: text) (ascii '\\' :: e :: literal) tail where
  text_eq := by rw [h.text_eq]; rfl
  body := by rw [literalBody_escape, h.body]
  tail_end := h.tail_end

theorem IsLiteral.plain {q c : UInt8} {text literal tail : Bytes} (hEscape : c ≠ ascii '\\')
    (hQuote : c ≠ q) (h : IsLiteral q text literal tail) :
    IsLiteral q (c :: text) (c :: literal) tail where
  text_eq := by rw [h.text_eq]; rfl
  body := by simp [literalBody_plain _ _ hEscape, hQuote, h.body]
  tail_end := h.tail_end

/-- Whatever the value parser accepts is a literal. -/
theorem exists_literal_of_parse {q : UInt8} {text value : Bytes}
    (h : parseLiteralBody q text = some value) :
    ∃ literal tail, IsLiteral q text literal tail ∧ value = unescape literal := by
  fun_induction parseLiteralBody q text generalizing value with
  | case1 => cases h
  | case2 => cases h
  | case3 e rest ih =>
      obtain ⟨inner, hInner, rfl⟩ := Option.map_eq_some_iff.mp h
      obtain ⟨literal, tail, hLiteral, rfl⟩ := ih hInner
      exact ⟨_, tail, hLiteral.escape e, (unescape_escape ..).symm⟩
  | case4 rest hEnd =>
      exact ⟨[], rest, ⟨rfl, rfl, hEnd⟩, (Option.some.inj h).symm⟩
  | case5 => cases h
  | case6 c rest hEscape hQuote ih =>
      obtain ⟨inner, hInner, rfl⟩ := Option.map_eq_some_iff.mp h
      obtain ⟨literal, tail, hLiteral, rfl⟩ := ih hInner
      exact ⟨_, tail, hLiteral.plain hEscape hQuote, (unescape_plain _ hEscape).symm⟩

/-- Whatever the span finder accepts is a literal, and it counts its bytes. -/
theorem exists_literal_of_length {q : UInt8} {text : Bytes} {n : Nat}
    (h : literalValueLength q text = some n) :
    ∃ literal tail, IsLiteral q text literal tail ∧ n = literal.length := by
  fun_induction literalValueLength q text generalizing n with
  | case1 => cases h
  | case2 => cases h
  | case3 e rest ih =>
      obtain ⟨inner, hInner, rfl⟩ := Option.map_eq_some_iff.mp h
      obtain ⟨literal, tail, hLiteral, rfl⟩ := ih hInner
      exact ⟨_, tail, hLiteral.escape e, rfl⟩
  | case4 rest hEnd =>
      exact ⟨[], rest, ⟨rfl, rfl, hEnd⟩, (Option.some.inj h).symm⟩
  | case5 => cases h
  | case6 c rest hEscape hQuote ih =>
      obtain ⟨inner, hInner, rfl⟩ := Option.map_eq_some_iff.mp h
      obtain ⟨literal, tail, hLiteral, rfl⟩ := ih hInner
      exact ⟨_, tail, hLiteral.plain hEscape hQuote, rfl⟩

theorem literalValueLength_literal {q : UInt8} (hq : IsQuote q) {literal tail : Bytes}
    (hLiteral : literalBody q literal = true) (hTail : literalEnd tail = true) :
    literalValueLength q (literal ++ q :: tail) = some literal.length := by
  have hQuote : q ≠ ascii '\\' := by obtain rfl | rfl := hq <;> decide
  induction literal, hLiteral using literalBody_induction with
  | nil =>
      rw [List.nil_append, literalValueLength.eq_def]
      simp only [hQuote, hTail, if_true, if_false, List.length_nil]
  | escape e rest _ ih =>
      rw [List.cons_append, List.cons_append, literalValueLength.eq_def]
      simp only [if_true, ih, Option.map_some, List.length_cons]
  | plain c rest hEscape hOther _ ih =>
      rw [List.cons_append, literalValueLength.eq_def]
      simp only [hEscape, hOther, if_false, ih, Option.map_some, List.length_cons]

/-- A text that is one string literal, spaces and a semicolon apart. -/
structure QuotedText (text : Bytes) (q : UInt8) (literal : Bytes) where
  leading : Bytes
  tail : Bytes
  text_eq : text = leading ++ q :: (literal ++ q :: tail)
  leading_spaces : ∀ c ∈ leading, isSpace c = true
  quote : IsQuote q
  body : literalBody q literal = true
  tail_end : literalEnd tail = true

theorem parsePhpStringLiteral_quoted {text : Bytes} {q : UInt8} {literal : Bytes}
    (h : QuotedText text q literal) : parsePhpStringLiteral text = some (unescape literal) := by
  have hEnd : literalEnd (h.tail.rdropWhile isSpace) = true :=
    (literalEnd_rdropWhile _).trans h.tail_end
  have hParse := parseLiteralBody_literal h.quote h.body hEnd
  rw [parsePhpStringLiteral, h.text_eq, trim_quoted h.quote h.leading_spaces]
  have hIf : q = ascii '\'' ∨ q = ascii '"' := h.quote
  cases hText : literal ++ q :: h.tail.rdropWhile isSpace with
  | nil => simp at hText
  | cons c rest =>
      rw [hText] at hParse
      simpa only [if_pos hIf] using hParse

theorem exists_quoted_of_parse {text value : Bytes} (h : parsePhpStringLiteral text = some value) :
    ∃ q literal, Nonempty (QuotedText text q literal) ∧ value = unescape literal := by
  obtain ⟨leading, trailing, hText, -, hLeading, hTrailing⟩ := exists_trim text
  rw [parsePhpStringLiteral] at h
  split at h
  next q c rest hTrim =>
    split_ifs at h with hQuote
    obtain ⟨literal, tail, hLiteral, rfl⟩ := exists_literal_of_parse h
    refine ⟨q, literal, ⟨?_⟩, rfl⟩
    exact
      { leading
        tail := tail ++ trailing
        text_eq := by rw [hText, hTrim, hLiteral.text_eq]; simp
        leading_spaces := hLeading
        quote := hQuote
        body := hLiteral.body
        tail_end := (literalEnd_append_spaces _ hTrailing).trans hLiteral.tail_end }
  next => cases h

theorem parsePhpStringLiteral_trim (text : Bytes) :
    parsePhpStringLiteral (trim text) = parsePhpStringLiteral text := by
  simp only [parsePhpStringLiteral, trim_trim]

/-- The span of an argument that is a literal. -/
theorem phpLiteralValueSpan_pushArg {piece : Bytes} {q : UInt8} {literal : Bytes}
    (h : QuotedText piece q literal) (bodyStart start : Nat) :
    phpLiteralValueSpan (pushArg bodyStart start piece) =
      some
        { valueStart := bodyStart + start + h.leading.length + 1
          valueEnd := bodyStart + start + h.leading.length + 1 + literal.length
          quote := q } := by
  have hSpace : isSpace q = false := by obtain hq | hq := h.quote <;> subst hq <;> decide
  have hLeading : piece.takeWhile isSpace = h.leading := by
    conv_lhs => rw [h.text_eq]
    rw [List.takeWhile_append_of_pos h.leading_spaces, List.takeWhile_cons_of_neg (by simp [hSpace]),
      List.append_nil]
  have hText : trim piece = q :: (literal ++ q :: h.tail.rdropWhile isSpace) := by
    conv_lhs => rw [h.text_eq]
    exact trim_quoted h.quote h.leading_spaces literal h.tail
  have hLength := literalValueLength_literal h.quote h.body
    ((literalEnd_rdropWhile h.tail).trans h.tail_end)
  have hIf : q = ascii '\'' ∨ q = ascii '"' := h.quote
  simp only [phpLiteralValueSpan, pushArg, hText, hLeading]
  cases hInside : literal ++ q :: h.tail.rdropWhile isSpace with
  | nil => simp at hInside
  | cons c rest =>
      rw [hInside] at hLength
      simp only [if_pos hIf, hLength, Option.map_some]

/-- An argument without a value has no span. -/
theorem phpLiteralValueSpan_eq_none {arg : PhpArgumentSpan}
    (h : parsePhpStringLiteral arg.text = none) : phpLiteralValueSpan arg = none := by
  by_contra hSome
  obtain ⟨span, hSpan⟩ := Option.ne_none_iff_exists'.mp hSome
  simp only [phpLiteralValueSpan] at hSpan
  split at hSpan
  next q c rest hText =>
    split_ifs at hSpan with hQuote
    obtain ⟨n, hLength, -⟩ := Option.map_eq_some_iff.mp hSpan
    obtain ⟨literal, tail, hLiteral, -⟩ := exists_literal_of_length hLength
    have hQuoted : QuotedText arg.text q literal :=
      { leading := []
        tail
        text_eq := by rw [hText, hLiteral.text_eq]; rfl
        leading_spaces := by simp
        quote := hQuote
        body := hLiteral.body
        tail_end := hLiteral.tail_end }
    rw [parsePhpStringLiteral_quoted hQuoted] at h
    cases h
  next => cases hSpan

/-- Put a stretch of text in front of the first piece. -/
def prependPiece (text : Bytes) : List Bytes → List Bytes
  | [] => [text]
  | piece :: pieces => (text ++ piece) :: pieces

theorem prependPiece_cons (c : UInt8) (text : Bytes) (pieces : List Bytes) :
    consHead c (prependPiece text pieces) = prependPiece (c :: text) pieces := by
  cases pieces <;> rfl

theorem prependPiece_append (first second : Bytes) (pieces : List Bytes) :
    prependPiece first (prependPiece second pieces) = prependPiece (first ++ second) pieces := by
  cases pieces <;> simp [prependPiece]

theorem consHead_eq_prependPiece (c : UInt8) (pieces : List Bytes) :
    consHead c pieces = prependPiece [c] pieces := by
  cases pieces <;> rfl

@[simp]
theorem consHead_ne_nil (c : UInt8) (pieces : List Bytes) : consHead c pieces ≠ [] := by
  cases pieces <;> simp [consHead]

theorem splitPieces_ne_nil (jump : Bool) (st : SplitState) (text : Bytes) :
    splitPieces jump st text ≠ [] := by
  cases text with
  | nil => cases jump <;> simp [splitPieces]
  | cons c rest =>
      cases jump with
      | true => simp [splitPieces]
      | false =>
          simp only [splitPieces]
          split <;> split_ifs <;> simp

/-- At the top level and outside strings the splitter is in its first state. -/
theorem SplitState.eq_initial {st : SplitState} (hQuote : st.quote = none)
    (hTop : st.topLevel = true) : st = {} := by
  obtain ⟨quote, paren, bracket, brace⟩ := st
  simp only [topLevel, Bool.and_eq_true, beq_iff_eq] at hTop
  simp only at hQuote
  obtain ⟨⟨rfl, rfl⟩, rfl⟩ := hTop
  rw [hQuote]

theorem splitPieces_inert {text : Bytes} (h : ∀ c ∈ text, inert c = true) (rest : Bytes) :
    splitPieces false {} (text ++ rest) = prependPiece text (splitPieces false {} rest) := by
  induction text with
  | nil =>
      obtain ⟨piece, pieces, hPieces⟩ := List.exists_cons_of_ne_nil (splitPieces_ne_nil false {} rest)
      rw [List.nil_append, hPieces]
      rfl
  | cons c text ih =>
      have hByte := h c List.mem_cons_self
      simp only [inert, Bool.and_eq_true, bne_iff_ne, decide_eq_true_eq] at hByte
      obtain ⟨⟨-, hComma⟩, hSame⟩ := hByte
      have hRest := ih fun d hd => h d (List.mem_cons_of_mem _ hd)
      simp only [List.cons_append, splitPieces, hComma, false_and, if_false, hSame, hRest,
        prependPiece_cons]

/-- The splitter comes out of a literal where it went in. -/
theorem splitPieces_literal {q : UInt8} (hq : IsQuote q) {literal : Bytes}
    (h : literalBody q literal = true) (rest : Bytes) :
    splitPieces false {} (q :: (literal ++ q :: rest)) =
      prependPiece (q :: (literal ++ [q])) (splitPieces false {} rest) := by
  have hComma : q ≠ ascii ',' := by obtain rfl | rfl := hq <;> decide
  have hEscape : q ≠ ascii '\\' := by obtain rfl | rfl := hq <;> decide
  have hOpen : ({} : SplitState).codeByte q = { quote := some q } := if_pos hq
  have hInside : splitPieces false { quote := some q } (literal ++ q :: rest) =
      prependPiece (literal ++ [q]) (splitPieces false {} rest) := by
    induction literal, h using literalBody_induction with
    | nil =>
        simp only [List.nil_append, splitPieces, hEscape, if_false, if_true]
        exact consHead_eq_prependPiece ..
    | escape e tail _ ih =>
        simp only [List.cons_append, splitPieces, if_true, ih, prependPiece_cons]
    | plain c tail hPlain hOther _ ih =>
        simp only [List.cons_append, splitPieces, hPlain, hOther, if_false, ih, prependPiece_cons]
  simp only [splitPieces, hComma, false_and, if_false, hOpen, hInside, prependPiece_cons]

/-- What the first piece is: the text up to a comma outside all brackets, or
the whole text. -/
theorem splitPieces_first {jump : Bool} {st : SplitState} {text piece : Bytes} {pieces : List Bytes}
    (h : splitPieces jump st text = piece :: pieces) :
    (pieces = [] ∧ text = piece) ∨
      ∃ rest, text = piece ++ ascii ',' :: rest ∧ pieces = splitPieces false {} rest := by
  induction text generalizing jump st piece pieces with
  | nil => cases jump <;> simp_all [splitPieces]
  | cons c tail ih =>
      -- the byte joins the first piece of the tail
      have hJoin : ∀ {jump' : Bool} {st' : SplitState},
          consHead c (splitPieces jump' st' tail) = piece :: pieces →
          (pieces = [] ∧ c :: tail = piece) ∨
            ∃ rest, c :: tail = piece ++ ascii ',' :: rest ∧
              pieces = splitPieces false {} rest := by
        intro jump' st' hHead
        obtain ⟨first, others, hTail⟩ :=
          List.exists_cons_of_ne_nil (splitPieces_ne_nil jump' st' tail)
        rw [hTail, consHead, List.cons.injEq] at hHead
        obtain ⟨rfl, rfl⟩ := hHead
        rcases ih hTail with ⟨rfl, rfl⟩ | ⟨rest, rfl, hOthers⟩
        · exact .inl ⟨rfl, rfl⟩
        · exact .inr ⟨rest, rfl, hOthers⟩
      cases jump with
      | true => exact hJoin h
      | false =>
          simp only [splitPieces] at h
          split at h
          next => split_ifs at h <;> exact hJoin h
          next hQuote =>
            split_ifs at h with hComma
            · obtain ⟨rfl, hTop⟩ := hComma
              obtain ⟨rfl, rfl⟩ := List.cons.inj h
              exact .inr ⟨tail, rfl, by rw [SplitState.eq_initial hQuote hTop]⟩
            · exact hJoin h

/-- What the name and the value argument of a call are in its body. -/
theorem valueArgument_eq_some {name : Bytes} {call : PhpDefineCall} {arg : PhpArgumentSpan}
    (h : valueArgument name call = some arg) :
    ∃ first second rest pieces, call.body = first ++ ascii ',' :: rest ∧
      splitPieces false {} rest = second :: pieces ∧ parsePhpStringLiteral first = some name ∧
      arg = pushArg call.bodyStart (first.length + 1) second := by
  rw [valueArgument, splitPhpTopLevelArguments] at h
  obtain ⟨first, others, hPieces⟩ :=
    List.exists_cons_of_ne_nil (splitPieces_ne_nil false {} call.body)
  rw [hPieces] at h
  rcases splitPieces_first hPieces with ⟨rfl, -⟩ | ⟨rest, hBody, rfl⟩
  · simp [pushArgs, definesConstant] at h
  · obtain ⟨second, pieces, hRest⟩ := List.exists_cons_of_ne_nil (splitPieces_ne_nil false {} rest)
    simp only [hRest, pushArgs, definesConstant, Nat.zero_add] at h
    split_ifs at h with hName
    refine ⟨first, second, rest, pieces, hBody, hRest, ?_, (Option.some.inj h).symm⟩
    rwa [← parsePhpStringLiteral_trim]

/-- A literal and what belongs to it stay in one piece. -/
theorem splitPieces_quoted {text : Bytes} {q : UInt8} {literal : Bytes}
    (h : QuotedText text q literal) (rest : Bytes) :
    splitPieces false {} (text ++ rest) = prependPiece text (splitPieces false {} rest) := by
  have hText : text ++ rest = h.leading ++ q :: (literal ++ q :: (h.tail ++ rest)) := by
    conv_lhs => rw [h.text_eq]
    simp
  have hPiece : h.leading ++ q :: (literal ++ [q]) ++ h.tail = text := by
    conv_rhs => rw [h.text_eq]
    simp
  rw [hText, splitPieces_inert fun c hc => inert_of_isSpace (h.leading_spaces c hc),
    splitPieces_literal h.quote h.body, splitPieces_inert (inert_of_literalEnd h.tail_end),
    prependPiece_append, prependPiece_append, hPiece]

theorem splitPieces_quoted_comma {text : Bytes} {q : UInt8} {literal : Bytes}
    (h : QuotedText text q literal) (rest : Bytes) :
    splitPieces false {} (text ++ ascii ',' :: rest) = text :: splitPieces false {} rest := by
  have hComma : splitPieces false {} (ascii ',' :: rest) = [] :: splitPieces false {} rest := by
    simp [splitPieces, SplitState.topLevel]
  rw [splitPieces_quoted h, hComma, prependPiece, List.append_nil]

/-- A text that is one literal leads the scanner from code back to code. -/
theorem lexOver_quoted {text : Bytes} {q : UInt8} {literal : Bytes} (h : QuotedText text q literal)
    (after : UInt8) : lexOver .code false text after = (.code, false) := by
  have hText : text = h.leading ++ (q :: (literal ++ [q]) ++ h.tail) := by
    conv_lhs => rw [h.text_eq]
    simp
  rw [hText, lexOver_plainCode_append fun c hc => plainCode_of_isSpace (h.leading_spaces c hc),
    lexOver_append, lexOver_literal h.quote h.body]
  exact lexOver_plainCode (fun c hc => plainCode_of_inert (inert_of_literalEnd h.tail_end c hc)) after

/-- Where the value of a constant stands in the body of the call that defines
it: behind the quoted name and a comma, with `more` behind its own piece. -/
structure ValueSite (name body : Bytes) (q : UInt8) (literal : Bytes) where
  first : Bytes
  nameQuote : UInt8
  nameLiteral : Bytes
  first_quoted : QuotedText first nameQuote nameLiteral
  name_eq : name = unescape nameLiteral
  second : Bytes
  second_quoted : QuotedText second q literal
  more : Bytes
  body_eq : body = first ++ ascii ',' :: (second ++ more)
  pieces : List Bytes
  more_pieces : splitPieces false {} more = [] :: pieces

theorem exists_valueSite {name value : Bytes} {call : PhpDefineCall} {arg : PhpArgumentSpan}
    (hArg : valueArgument name call = some arg)
    (hValue : parsePhpStringLiteral arg.text = some value) :
    ∃ q literal, Nonempty (ValueSite name call.body q literal) ∧ value = unescape literal := by
  obtain ⟨first, second, rest, pieces, hBody, hPieces, hName, rfl⟩ := valueArgument_eq_some hArg
  obtain ⟨nameQuote, nameLiteral, ⟨hFirst⟩, hNameEq⟩ := exists_quoted_of_parse hName
  have hSecond : parsePhpStringLiteral second = some value := by
    rwa [pushArg, parsePhpStringLiteral_trim] at hValue
  obtain ⟨q, literal, ⟨hQuoted⟩, rfl⟩ := exists_quoted_of_parse hSecond
  have hSite : ∀ more pieces', rest = second ++ more → splitPieces false {} more = [] :: pieces' →
      Nonempty (ValueSite name call.body q literal) := fun more pieces' hRest hMore =>
    ⟨⟨first, nameQuote, nameLiteral, hFirst, hNameEq, second, hQuoted, more, by rw [hBody, hRest],
      pieces', hMore⟩⟩
  rcases splitPieces_first hPieces with ⟨-, rfl⟩ | ⟨behind, hRest, -⟩
  · exact ⟨q, literal, hSite [] [] (by simp) rfl, rfl⟩
  · refine ⟨q, literal, hSite _ (splitPieces false {} behind) hRest ?_, rfl⟩
    simp [splitPieces, SplitState.topLevel]

namespace ValueSite

variable {name body : Bytes} {q : UInt8} {literal : Bytes}

/-- The body up to the opening quote of the value. -/
def lead (site : ValueSite name body q literal) : Bytes :=
  site.first ++ ascii ',' :: site.second_quoted.leading

/-- The body from behind the closing quote of the value. -/
def rest (site : ValueSite name body q literal) : Bytes := site.second_quoted.tail ++ site.more

theorem body_split (site : ValueSite name body q literal) :
    body = site.lead ++ q :: (literal ++ q :: site.rest) := by
  conv_lhs => rw [site.body_eq, site.second_quoted.text_eq]
  simp [lead, rest]

theorem lexOver_lead (site : ValueSite name body q literal) (after : UInt8) :
    lexOver .code false site.lead after = (.code, false) := by
  rw [lead, lexOver_append, lexOver_quoted site.first_quoted]
  have hPlain : ∀ c ∈ ascii ',' :: site.second_quoted.leading, plainCode c = true := by
    intro c hc
    rcases List.mem_cons.mp hc with rfl | hc
    · decide
    · exact plainCode_of_isSpace (site.second_quoted.leading_spaces c hc)
  exact lexOver_plainCode hPlain after

/-- The same site with another literal in it. -/
def replace (site : ValueSite name body q literal) {new : Bytes} (hNew : literalBody q new = true) :
    ValueSite name (site.lead ++ q :: (new ++ q :: site.rest)) q new :=
  { site with
    second := site.second_quoted.leading ++ q :: (new ++ q :: site.second_quoted.tail)
    second_quoted := { site.second_quoted with text_eq := rfl, body := hNew }
    body_eq := by simp [lead, rest] }

theorem splitPieces_body (site : ValueSite name body q literal) :
    splitPieces false {} body = site.first :: site.second :: site.pieces := by
  conv_lhs => rw [site.body_eq]
  rw [splitPieces_quoted_comma site.first_quoted, splitPieces_quoted site.second_quoted,
    site.more_pieces, prependPiece, List.append_nil]

theorem parse_first (site : ValueSite name body q literal) :
    parsePhpStringLiteral (trim site.first) = some name := by
  rw [parsePhpStringLiteral_trim, parsePhpStringLiteral_quoted site.first_quoted, ← site.name_eq]

theorem valueArgument_eq (site : ValueSite name body q literal) {call : PhpDefineCall}
    (hBody : call.body = body) :
    valueArgument name call =
      some (pushArg call.bodyStart (site.first.length + 1) site.second) := by
  have hName : parsePhpStringLiteral (pushArg call.bodyStart 0 site.first).text = some name :=
    site.parse_first
  simp only [valueArgument, splitPhpTopLevelArguments, hBody, site.splitPieces_body, pushArgs,
    definesConstant, hName, if_true, Nat.zero_add]

/-- The call defines no other constant. -/
theorem valueArgument_eq_none (site : ValueSite name body q literal) {call : PhpDefineCall}
    (hBody : call.body = body) {other : Bytes} (hOther : other ≠ name) :
    valueArgument other call = none := by
  have hName : parsePhpStringLiteral (pushArg call.bodyStart 0 site.first).text = some name :=
    site.parse_first
  simp [valueArgument, splitPhpTopLevelArguments, hBody, site.splitPieces_body, pushArgs,
    definesConstant, hName, hOther.symm]

theorem value_eq (site : ValueSite name body q literal) (bodyStart start : Nat) :
    parsePhpStringLiteral (pushArg bodyStart start site.second).text = some (unescape literal) := by
  rw [pushArg, parsePhpStringLiteral_trim, parsePhpStringLiteral_quoted site.second_quoted]

theorem span_eq (site : ValueSite name body q literal) (bodyStart : Nat) :
    phpLiteralValueSpan (pushArg bodyStart (site.first.length + 1) site.second) =
      some
        { valueStart := bodyStart + site.lead.length + 1
          valueEnd := bodyStart + site.lead.length + 1 + literal.length
          quote := q } := by
  rw [phpLiteralValueSpan_pushArg site.second_quoted]
  simp only [lead, List.length_append, List.length_cons, Option.some.injEq,
    PhpLiteralValueSpan.mk.injEq, and_true]
  omega

end ValueSite

end ContainerCP.Wordpress
