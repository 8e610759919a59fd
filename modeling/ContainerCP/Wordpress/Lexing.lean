import ContainerCP.Wordpress.PhpDefineScanner

/-! The strings and comments of the content, seen on their own. Both loops of
the scanner move through the same lexical states, so where a string literal
stands is a fact about the content and not about the loop that reads it. -/
namespace ContainerCP.Wordpress

/-- The lexical state after a stretch of bytes; `after` is the byte that
follows the stretch, which the last byte may look at. -/
def lexOver : LexMode → Bool → Bytes → UInt8 → LexMode × Bool
  | mode, jump, [], _ => (mode, jump)
  | mode, true, _ :: rest, after => lexOver mode false rest after
  | mode, false, c :: rest, after =>
      match lexStep mode c (rest.headD after) with
      | some (mode', jump) => lexOver mode' jump rest after
      | none => lexOver mode false rest after

/-- A byte of code outside strings and comments leaves the lexical state alone. -/
@[simp]
theorem punctuation_mode (st : ScanState) (c : UInt8) : (st.punctuation c).mode = st.mode := by
  simp only [ScanState.punctuation]
  split_ifs <;> rfl

theorem headD_append (first second : Bytes) (d : UInt8) :
    (first ++ second).headD d = first.headD (second.headD d) := by
  cases first <;> rfl

theorem lexOver_append (mode : LexMode) (jump : Bool) (first second : Bytes) (after : UInt8) :
    lexOver mode jump (first ++ second) after =
      lexOver (lexOver mode jump first (second.headD after)).1
        (lexOver mode jump first (second.headD after)).2 second after := by
  induction first generalizing mode jump with
  | nil => rfl
  | cons c rest ih =>
      cases jump with
      | true => simpa [lexOver] using ih mode false
      | false =>
          simp only [List.cons_append, lexOver, headD_append]
          split <;> exact ih _ _

/-- Bytes that neither open a string nor can belong to the opening of a
comment. -/
def plainCode (c : UInt8) : Bool :=
  c != ascii '/' && c != ascii '#' && c != ascii '\'' && c != ascii '"'

theorem lexStep_plainCode {c : UInt8} (h : plainCode c = true) (next : UInt8) :
    lexStep .code c next = none := by
  simp only [plainCode, Bool.and_eq_true, bne_iff_ne, ne_eq] at h
  simp [lexStep, h]

theorem lexStep_eq_none {mode : LexMode} {c next : UInt8} (h : lexStep mode c next = none) :
    mode = .code := by
  cases mode with
  | code => rfl
  | lineComment => simp only [lexStep] at h; split at h <;> cases h
  | blockComment => simp only [lexStep] at h; split at h <;> cases h
  | single => simp only [lexStep] at h; split at h <;> [cases h; (split at h <;> cases h)]
  | double => simp only [lexStep] at h; split at h <;> [cases h; (split at h <;> cases h)]

theorem lexOver_plainCode {plain : Bytes} (h : ∀ c ∈ plain, plainCode c = true) (after : UInt8) :
    lexOver .code false plain after = (.code, false) := by
  induction plain with
  | nil => rfl
  | cons c rest ih =>
      simp only [lexOver, lexStep_plainCode (h c List.mem_cons_self)]
      exact ih fun d hd => h d (List.mem_cons_of_mem _ hd)

theorem lexOver_plainCode_append {plain : Bytes} (h : ∀ c ∈ plain, plainCode c = true)
    (rest : Bytes) (after : UInt8) :
    lexOver .code false (plain ++ rest) after = lexOver .code false rest after := by
  rw [lexOver_append, lexOver_plainCode h]

theorem plainCode_of_isSpace {c : UInt8} (h : isSpace c = true) : plainCode c = true := by
  have hAll : ∀ n : Fin 256, isSpace (UInt8.ofFin n) = true → plainCode (UInt8.ofFin n) = true := by
    decide +kernel
  exact hAll c.toFin h

theorem plainCode_of_isIdentifierChar {c : UInt8} (h : isIdentifierChar c = true) :
    plainCode c = true := by
  have hAll : ∀ n : Fin 256,
      isIdentifierChar (UInt8.ofFin n) = true → plainCode (UInt8.ofFin n) = true := by
    decide +kernel
  exact hAll c.toFin h

/-- The two quotes of a PHP string literal. -/
def IsQuote (q : UInt8) : Prop := q = ascii '\'' ∨ q = ascii '"'

instance (q : UInt8) : Decidable (IsQuote q) := inferInstanceAs (Decidable (_ ∨ _))

/-- The lexical mode inside a literal with this quote. -/
def quoteMode (q : UInt8) : LexMode := if q = ascii '\'' then .single else .double

/-- The bytes between the quotes of a literal: no quote that is not escaped,
and no escape without its byte. -/
def literalBody (q : UInt8) : Bytes → Bool
  | [] => true
  | c :: rest =>
      if c = ascii '\\' then
        match rest with
        | [] => false
        | _ :: rest => literalBody q rest
      else c != q && literalBody q rest

theorem literalBody_escape (q e : UInt8) (rest : Bytes) :
    literalBody q (ascii '\\' :: e :: rest) = literalBody q rest := by
  rw [literalBody.eq_def]
  simp only [if_true]

theorem literalBody_plain {c : UInt8} (q : UInt8) (rest : Bytes) (h : c ≠ ascii '\\') :
    literalBody q (c :: rest) = (c != q && literalBody q rest) := by
  rw [literalBody.eq_def]
  simp only [h, if_false]

/-- What the bytes between the quotes stand for. -/
def unescape : Bytes → Bytes
  | [] => []
  | c :: rest =>
      if c = ascii '\\' then
        match rest with
        | [] => []
        | escaped :: rest => escaped :: unescape rest
      else c :: unescape rest

theorem unescape_escape (e : UInt8) (rest : Bytes) :
    unescape (ascii '\\' :: e :: rest) = e :: unescape rest := by
  rw [unescape.eq_def]
  simp only [if_true]

theorem unescape_plain {c : UInt8} (rest : Bytes) (h : c ≠ ascii '\\') :
    unescape (c :: rest) = c :: unescape rest := by
  rw [unescape.eq_def]
  simp only [h, if_false]

/-- Induction along a literal: an escape and its byte are one step. -/
theorem literalBody_induction {q : UInt8}
    {motive : (literal : Bytes) → literalBody q literal = true → Prop} (nil : motive [] rfl)
    (escape : ∀ e rest (h : literalBody q rest = true), motive rest h →
      motive (ascii '\\' :: e :: rest) ((literalBody_escape q e rest).trans h))
    (plain : ∀ c rest (hEscape : c ≠ ascii '\\') (hQuote : c ≠ q) (h : literalBody q rest = true),
      motive rest h → motive (c :: rest) (by simp [literalBody_plain q rest hEscape, hQuote, h]))
    (literal : Bytes) (h : literalBody q literal = true) : motive literal h := by
  induction literal using literalBody.induct with
  | case1 => exact nil
  | case2 => simp [literalBody] at h
  | case3 e rest ih =>
      have hRest : literalBody q rest = true := by rwa [literalBody_escape] at h
      exact escape e rest hRest (ih hRest)
  | case4 c rest hc ih =>
      have hParts := h
      simp only [literalBody_plain q rest hc, Bool.and_eq_true, bne_iff_ne] at hParts
      exact plain c rest hc hParts.1 hParts.2 (ih hParts.2)

theorem lexStep_quote {q : UInt8} (hq : IsQuote q) (next : UInt8) :
    lexStep .code q next = some (quoteMode q, false) := by
  obtain rfl | rfl := hq <;> simp +decide [lexStep, quoteMode]

theorem lexStep_escape {q : UInt8} (hq : IsQuote q) (next : UInt8) :
    lexStep (quoteMode q) (ascii '\\') next = some (quoteMode q, true) := by
  obtain rfl | rfl := hq <;> simp +decide [lexStep, quoteMode]

theorem lexStep_close {q : UInt8} (hq : IsQuote q) (next : UInt8) :
    lexStep (quoteMode q) q next = some (.code, false) := by
  obtain rfl | rfl := hq <;> simp +decide [lexStep, quoteMode]

theorem lexStep_inside {q c : UInt8} (hq : IsQuote q) (hEscape : c ≠ ascii '\\') (hQuote : c ≠ q)
    (next : UInt8) : lexStep (quoteMode q) c next = some (quoteMode q, false) := by
  obtain rfl | rfl := hq <;> simp +decide [lexStep, quoteMode, hEscape, hQuote]

/-- A whole literal leads from code back to code. -/
theorem lexOver_literal {q : UInt8} (hq : IsQuote q) {literal : Bytes}
    (h : literalBody q literal = true) (after : UInt8) :
    lexOver .code false (q :: (literal ++ [q])) after = (.code, false) := by
  have hInside : lexOver (quoteMode q) false (literal ++ [q]) after = (.code, false) := by
    induction literal, h using literalBody_induction with
    | nil => simp [lexOver, lexStep_close hq]
    | escape e rest _ ih => simpa [lexOver, lexStep_escape hq] using ih
    | plain c rest hEscape hQuote _ ih =>
        simpa [lexOver, lexStep_inside hq hEscape hQuote] using ih
  simpa [lexOver, lexStep_quote hq] using hInside

/-- `find_define_close` comes out of a literal where it went in, whatever the
literal holds. -/
theorem findDefineClose_literal {q : UInt8} (hq : IsQuote q) {literal : Bytes}
    (h : literalBody q literal = true) (depth pos : Nat) (rest : Bytes) :
    findDefineClose false (quoteMode q) depth pos (literal ++ q :: rest) =
      findDefineClose false .code depth (pos + literal.length + 1) rest := by
  induction literal, h using literalBody_induction generalizing pos with
  | nil => simp [findDefineClose, lexStep_close hq]
  | escape e tail _ ih =>
      simp only [List.cons_append, findDefineClose, lexStep_escape hq, ih, List.length_cons]
      congr 1; omega
  | plain c tail hEscape hQuote _ ih =>
      simp only [List.cons_append, findDefineClose, lexStep_inside hq hEscape hQuote, ih,
        List.length_cons]
      congr 1; omega

/-- The main loop comes out of a literal where it went in. -/
theorem scan_literal {q : UInt8} (hq : IsQuote q) {literal : Bytes}
    (h : literalBody q literal = true) (i : Nat) (prev : Option UInt8) (st : ScanState)
    (rest : Bytes) :
    scan 0 i prev { st with mode := quoteMode q } (literal ++ q :: rest) =
      scan 0 (i + literal.length + 1) (some q) { st with mode := .code } rest := by
  induction literal, h using literalBody_induction generalizing i prev with
  | nil => simp [scan, lexStep_close hq]
  | escape e tail _ ih =>
      simp only [List.cons_append, scan, lexStep_escape hq, Bool.toNat_true, ih, List.length_cons]
      congr 1; omega
  | plain c tail hEscape hQuote _ ih =>
      simp only [List.cons_append, scan, lexStep_inside hq hEscape hQuote, Bool.toNat_false, ih,
        List.length_cons]
      congr 1; omega

end ContainerCP.Wordpress
