import ContainerCP.Data.Nesting
import ContainerCP.Wordpress.Lexing

/-! The scanner as two passes: one cuts the content into lexemes, the other keeps the control
state over them. What the second pass knows about a call is a fact about the lexemes before it. -/
namespace ContainerCP.Wordpress

/-- What the main loop looks at in one round of code. The names of variables are no words. -/
inductive Lexeme where
  | word (token : Bytes)
  | variable (name : Bytes)
  | byte (c : UInt8)
  | define (call : PhpDefineCall)
  deriving DecidableEq

/-- The rounds of the main loop, without the control state. A call carries no flag of its own yet. -/
def lexemes : Nat → Nat → Option UInt8 → LexMode → Bytes → List Lexeme
  | _, _, _, _, [] => []
  | jump + 1, i, _, mode, c :: rest => lexemes jump (i + 1) (some c) mode rest
  | 0, i, prev, mode, c :: rest =>
      match lexStep mode c (rest.headD 0) with
      | some (mode, jump) => lexemes jump.toNat (i + 1) (some c) mode rest
      | none =>
          if isAlpha c || c == ascii '_' then
            let token := (c :: rest).takeWhile isIdentifierChar
            let call :=
              if notVariable prev && token == bytes "define" then defineCallAt {} i (c :: rest)
              else none
            match call with
            | some call => .define call :: lexemes (call.closeParen - i) (i + 1) (some c) mode rest
            | none =>
                (if notVariable prev then .word token else .variable token) ::
                  lexemes (token.length - 1) (i + 1) (some c) mode rest
          else .byte c :: lexemes 0 (i + 1) (some c) mode rest

def lexemesOf (content : Bytes) : List Lexeme := lexemes 0 0 none .code content

/-- What a lexeme does to the control state. -/
def ScanState.track (st : ScanState) : Lexeme → ScanState
  | .word token => if isControlKeyword token then { st with pendingControl := true } else st
  | .byte c => st.punctuation c
  | .variable _ | .define _ => st

/-- The calls among the lexemes, with the flag that the control state gives them. -/
def report : ScanState → List Lexeme → List PhpDefineCall
  | _, [] => []
  | st, .define call :: rest => { call with conditional := anyConditionalScope st } :: report st rest
  | st, lexeme :: rest => report (st.track lexeme) rest

/-! ### The two passes are the scanner -/

theorem punctuation_withMode (st : ScanState) (mode : LexMode) (c : UInt8) :
    ({ st with mode } : ScanState).punctuation c = { st.punctuation c with mode } := by
  simp only [ScanState.punctuation]
  split_ifs <;> rfl

theorem track_mode (st : ScanState) (mode : LexMode) (lexeme : Lexeme) :
    ({ st with mode } : ScanState).track lexeme = { st.track lexeme with mode } := by
  cases lexeme with
  | word token =>
      simp only [ScanState.track]
      split_ifs <;> rfl
  | byte c => exact punctuation_withMode st mode c
  | «variable» name => rfl
  | define call => rfl

theorem report_mode (st : ScanState) (mode : LexMode) (ls : List Lexeme) : report { st with mode } ls = report st ls := by
  induction ls generalizing st with
  | nil => rfl
  | cons lexeme rest ih =>
      cases lexeme with
      | define call => simp only [report, anyConditionalScope, ih]
      | word token => simp only [report, track_mode, ih]
      | byte c => simp only [report, track_mode, ih]
      | «variable» name => simp only [report, track_mode, ih]

theorem defineCallAt_eq (st : ScanState) (i : Nat) (suffix : Bytes) :
    defineCallAt st i suffix =
      (defineCallAt {} i suffix).map fun call => { call with conditional := anyConditionalScope st } := by
  unfold defineCallAt
  dsimp only
  split
  · rfl
  · split_ifs
    · split <;> rfl
    · rfl

theorem scan_eq_report (jump i : Nat) (prev : Option UInt8) (st : ScanState) (content : Bytes) :
    scan jump i prev st content = report st (lexemes jump i prev st.mode content) := by
  induction content generalizing jump i prev st with
  | nil => cases jump <;> rfl
  | cons c rest ih =>
      cases jump with
      | succ jump => exact ih jump (i + 1) (some c) st
      | zero =>
          rw [scan, lexemes]
          cases hStep : lexStep st.mode c (rest.headD 0) with
          | some step => exact (ih _ _ _ { st with mode := step.1 }).trans (report_mode st step.1 _)
          | none =>
              dsimp only
              by_cases hWord : (isAlpha c || c == ascii '_') = true
              · rw [if_pos hWord, if_pos hWord, defineCallAt_eq st]
                generalize (c :: rest).takeWhile isIdentifierChar = token
                generalize (notVariable prev && token == bytes "define") = isDefine
                have hMap (found : Option PhpDefineCall) (f : PhpDefineCall → PhpDefineCall) :
                    (if isDefine then found.map f else none) = (if isDefine then found else none).map f := by
                  cases isDefine <;> rfl
                rw [hMap]
                cases (if isDefine then defineCallAt {} i (c :: rest) else none) with
                | some call =>
                    dsimp only [Option.map_some, report]
                    rw [ih]
                | none =>
                    dsimp only [Option.map_none]
                    rw [ih]
                    cases notVariable prev with
                    | false => rfl
                    | true =>
                        simp only [Bool.true_and, if_true, report, ScanState.track]
                        split_ifs <;> rfl
              · rw [if_neg hWord, if_neg hWord, ih, punctuation_mode]
                rfl

theorem findPhpDefineCalls_eq_report (content : Bytes) : findPhpDefineCalls content = report {} (lexemesOf content) :=
  scan_eq_report 0 0 none {} content

theorem mem_report (st : ScanState) (ls : List Lexeme) (call : PhpDefineCall) :
    call ∈ report st ls ↔
      ∃ before found behind, ls = before ++ .define found :: behind ∧
        call = { found with conditional := anyConditionalScope (before.foldl ScanState.track st) } := by
  induction ls generalizing st with
  | nil => simp [report]
  | cons lexeme rest ih =>
      have hSplit (P : List Lexeme → PhpDefineCall → Prop) :
          (∃ before found behind, lexeme :: rest = before ++ .define found :: behind ∧ P before found) ↔
            (∃ found, lexeme = .define found ∧ P [] found) ∨
              ∃ before found behind, rest = before ++ .define found :: behind ∧ P (lexeme :: before) found := by
        constructor
        · rintro ⟨before, found, behind, hEq, h⟩
          cases before with
          | nil =>
              cases hEq
              exact .inl ⟨found, rfl, h⟩
          | cons first before =>
              cases hEq
              exact .inr ⟨before, found, behind, rfl, h⟩
        · rintro (⟨found, rfl, h⟩ | ⟨before, found, behind, rfl, h⟩)
          · exact ⟨[], found, rest, rfl, h⟩
          · exact ⟨lexeme :: before, found, behind, rfl, h⟩
      rw [hSplit fun before found => call = { found with conditional := anyConditionalScope (before.foldl ScanState.track st) }]
      simp only [List.foldl_cons, List.foldl_nil]
      cases lexeme with
      | define found => simp [report, ih, ScanState.track]
      | word token => simp [report, ih]
      | byte c => simp [report, ih]
      | «variable» name => simp [report, ih]

/-! ### What the control state says about the lexemes before -/

/-- The braces that open and close the scanner's blocks. -/
def Lexeme.brace : Lexeme → Turn
  | .byte c => if c = ascii '{' then .opens else if c = ascii '}' then .closes else .stays
  | _ => .stays

def Lexeme.paren : Lexeme → Turn
  | .byte c => if c = ascii '(' then .opens else if c = ascii ')' then .closes else .stays
  | _ => .stays

/-- A control keyword as the scanner knows it, in small letters. -/
def Lexeme.isControl : Lexeme → Bool
  | .word token => isControlKeyword token
  | _ => false

/-- Behind a control keyword: no brace, and a semicolon only inside parentheses that are opened here. -/
structure Calm (ls : List Lexeme) : Prop where
  brace : ∀ lexeme ∈ ls, lexeme.brace = .stays
  semicolon : ∀ before lexeme behind, ls = before ++ lexeme :: behind → lexeme = .byte (ascii ';') →
    0 < groundLevel Lexeme.paren before

/-- A control keyword, and nothing behind it that ends its statement. -/
def Reached (ls : List Lexeme) : Prop :=
  ∃ before keyword behind, ls = before ++ keyword :: behind ∧ keyword.isControl = true ∧ Calm behind

/-- A control keyword reaches the end of the lexemes, or a brace that is still open there. -/
def Guarded (ls : List Lexeme) : Prop :=
  Reached ls ∨
    ∃ before opening behind, ls = before ++ opening :: behind ∧ opening.brace = .opens ∧ Reached before ∧
      ClosesOwn Lexeme.brace behind

theorem calm_nil : Calm [] where
  brace := by simp
  semicolon := by simp

theorem calm_concat_iff (ls : List Lexeme) (lexeme : Lexeme) :
    Calm (ls ++ [lexeme]) ↔
      Calm ls ∧ lexeme.brace = .stays ∧ (lexeme = .byte (ascii ';') → 0 < groundLevel Lexeme.paren ls) := by
  constructor
  · rintro ⟨hBrace, hSemicolon⟩
    obtain ⟨hLast, hFront⟩ := forall_split_concat.mp hSemicolon
    exact ⟨⟨fun y hy => hBrace y (by simp [hy]), hFront⟩, hBrace lexeme (by simp), hLast⟩
  · rintro ⟨⟨hBrace, hFront⟩, hStays, hLast⟩
    refine ⟨?_, forall_split_concat.mpr ⟨hLast, hFront⟩⟩
    intro y hy
    rcases List.mem_append.mp hy with hy | hy
    · exact hBrace y hy
    · rwa [List.mem_singleton.mp hy]

/-- A brace notes on the stack whether a control keyword is pending, or takes the last note back. -/
theorem track_brace {st : ScanState} {lexeme : Lexeme} (h : lexeme.brace ≠ .stays) :
    st.track lexeme =
      { st with
        blockStack := if lexeme.brace = .opens then st.pendingControl :: st.blockStack else st.blockStack.tail
        pendingControl := false
        pendingControlParenDepth := 0 } := by
  cases lexeme with
  | byte c =>
      simp only [Lexeme.brace] at h ⊢
      by_cases hOpens : c = ascii '{'
      · subst hOpens
        simp [ScanState.track, ScanState.punctuation, ascii]
      · by_cases hCloses : c = ascii '}'
        · subst hCloses
          simp [ScanState.track, ScanState.punctuation, ascii]
        · exact absurd (by rw [if_neg hOpens, if_neg hCloses]) h
  | word token => exact absurd rfl h
  | «variable» name => exact absurd rfl h
  | define call => exact absurd rfl h

/-- Any other lexeme leaves the stack alone. The keyword stops being pending at a semicolon of depth zero. -/
theorem track_stays {st : ScanState} {lexeme : Lexeme} (h : lexeme.brace = .stays) :
    st.track lexeme =
      { st with
        pendingControl :=
          lexeme.isControl ||
            (st.pendingControl && !(decide (lexeme = .byte (ascii ';')) && decide (st.pendingControlParenDepth = 0)))
        pendingControlParenDepth :=
          if st.pendingControl then
            match lexeme.paren with
            | .opens => st.pendingControlParenDepth + 1
            | .closes => st.pendingControlParenDepth - 1
            | .stays => st.pendingControlParenDepth
          else st.pendingControlParenDepth } := by
  obtain ⟨mode, pending, depth, stack⟩ := st
  cases lexeme with
  | byte c =>
      have hOpen : c ≠ ascii '{' := fun hEq => by simp [Lexeme.brace, hEq] at h
      have hClose : c ≠ ascii '}' := fun hEq => by simp [Lexeme.brace, hEq, ascii] at h
      simp only [ScanState.track, ScanState.punctuation, Lexeme.isControl, Lexeme.paren, Lexeme.byte.injEq,
        Bool.false_or, if_neg hOpen, if_neg hClose]
      by_cases hLeft : c = ascii '('
      · subst hLeft
        cases pending <;> simp [ascii]
      · by_cases hRight : c = ascii ')'
        · subst hRight
          cases pending <;> cases depth <;> simp [ascii]
        · by_cases hSemicolon : c = ascii ';'
          · subst hSemicolon
            cases pending <;> cases depth <;> simp [ascii]
          · cases pending <;> simp [hLeft, hRight, hSemicolon]
  | word token =>
      cases hControl : isControlKeyword token <;> cases pending <;>
        simp [ScanState.track, Lexeme.isControl, Lexeme.paren, hControl]
  | «variable» name =>
      cases pending <;> simp [ScanState.track, Lexeme.isControl, Lexeme.paren]
  | define call =>
      cases pending <;> simp [ScanState.track, Lexeme.isControl, Lexeme.paren]

/-- The control state of the main loop behind the lexemes. -/
def controlState (ls : List Lexeme) : ScanState := ls.foldl ScanState.track {}

theorem controlState_concat (ls : List Lexeme) (lexeme : Lexeme) :
    controlState (ls ++ [lexeme]) = (controlState ls).track lexeme := by
  rw [controlState, List.foldl_append]
  rfl

theorem brace_of_isControl {lexeme : Lexeme} (h : lexeme.isControl = true) : lexeme.brace = .stays := by
  cases lexeme with
  | word token => rfl
  | byte c => cases h
  | «variable» name => cases h
  | define call => cases h

theorem notesLevels_blockStack :
    NotesLevels Lexeme.brace (fun ls => (controlState ls).pendingControl) (fun ls => (controlState ls).blockStack) where
  nil := rfl
  opens := by
    intro ls lexeme h
    rw [controlState_concat, track_brace (by simp [h]), if_pos h]
  closes := by
    intro ls lexeme h
    rw [controlState_concat, track_brace (by simp [h]), if_neg (by simp [h])]
  stays := by
    intro ls lexeme h
    rw [controlState_concat, track_stays h]

/-- No depth is kept while no keyword is pending, so a keyword starts counting at zero. -/
theorem depth_eq_zero (ls : List Lexeme) (h : (controlState ls).pendingControl = false) :
    (controlState ls).pendingControlParenDepth = 0 := by
  induction ls using List.reverseRecOn with
  | nil => rfl
  | append_singleton ls lexeme ih =>
      rw [controlState_concat] at h ⊢
      by_cases hBrace : lexeme.brace = .stays
      · rw [track_stays hBrace] at h ⊢
        cases hPending : (controlState ls).pendingControl with
        | false => simpa [hPending] using ih hPending
        | true =>
            simp only [hPending, Bool.true_and, Bool.or_eq_false_iff, Bool.not_eq_false', Bool.and_eq_true,
              decide_eq_true_eq] at h
            obtain ⟨-, rfl, hDepth⟩ := h
            simp [hDepth, Lexeme.paren, ascii]
      · rw [track_brace hBrace]

/-- A pending keyword stands among the lexemes, and the depth counts the parentheses since then. -/
theorem exists_keyword_of_pending (ls : List Lexeme) (h : (controlState ls).pendingControl = true) :
    ∃ before keyword behind, ls = before ++ keyword :: behind ∧ keyword.isControl = true ∧ Calm behind ∧
      (controlState ls).pendingControlParenDepth = groundLevel Lexeme.paren behind := by
  induction ls using List.reverseRecOn with
  | nil => cases h
  | append_singleton ls lexeme ih =>
      rw [controlState_concat] at h ⊢
      by_cases hBrace : lexeme.brace = .stays
      · rw [track_stays hBrace] at h ⊢
        cases hPending : (controlState ls).pendingControl with
        | false =>
            have hControl : lexeme.isControl = true := by simpa [hPending] using h
            refine ⟨ls, lexeme, [], rfl, hControl, calm_nil, ?_⟩
            simpa using depth_eq_zero ls hPending
        | true =>
            obtain ⟨before, keyword, behind, hSplit, hControl, hCalm, hDepth⟩ := ih hPending
            refine ⟨before, keyword, behind ++ [lexeme], by simp [hSplit], hControl, ?_, ?_⟩
            · refine (calm_concat_iff behind lexeme).mpr ⟨hCalm, hBrace, ?_⟩
              rintro rfl
              rw [← hDepth]
              simp only [hPending, Lexeme.isControl, Bool.false_or, Bool.true_and, decide_true, Bool.not_eq_true',
                decide_eq_false_iff_not] at h
              exact Nat.pos_of_ne_zero h
            · rw [groundLevel_concat, ← hDepth]
              rfl
      · rw [track_brace hBrace] at h
        cases h

/-- A keyword from which nothing ends its statement is pending still. The depth counts at least
the parentheses since then: an earlier keyword may have started the count. -/
theorem pending_of_calm (before : List Lexeme) {keyword : Lexeme} (hControl : keyword.isControl = true) {behind : List Lexeme}
    (hCalm : Calm behind) :
    (controlState (before ++ keyword :: behind)).pendingControl = true ∧
      groundLevel Lexeme.paren behind ≤ (controlState (before ++ keyword :: behind)).pendingControlParenDepth := by
  induction behind using List.reverseRecOn with
  | nil =>
      rw [controlState_concat, track_stays (brace_of_isControl hControl)]
      simp [hControl, groundLevel]
  | append_singleton behind lexeme ih =>
      obtain ⟨hCalm, hBrace, hSemicolon⟩ := (calm_concat_iff behind lexeme).mp hCalm
      obtain ⟨hPending, hDepth⟩ := ih hCalm
      rw [← List.cons_append, ← List.append_assoc, controlState_concat, track_stays hBrace, groundLevel_concat]
      simp only [hPending, Bool.true_and, if_true]
      constructor
      · by_cases hLast : lexeme = .byte (ascii ';')
        · have hOpen : (controlState (before ++ keyword :: behind)).pendingControlParenDepth ≠ 0 :=
            Nat.ne_of_gt (Nat.lt_of_lt_of_le (hSemicolon hLast) hDepth)
          simp [hOpen]
        · simp [hLast]
      · cases lexeme.paren with
        | opens => exact Nat.succ_le_succ hDepth
        | closes => exact Nat.sub_le_sub_right hDepth 1
        | stays => exact hDepth

theorem pending_iff_reached (ls : List Lexeme) : (controlState ls).pendingControl = true ↔ Reached ls := by
  constructor
  · intro h
    obtain ⟨before, keyword, behind, hSplit, hControl, hCalm, -⟩ := exists_keyword_of_pending ls h
    exact ⟨before, keyword, behind, hSplit, hControl, hCalm⟩
  · rintro ⟨before, keyword, behind, rfl, hControl, hCalm⟩
    exact (pending_of_calm before hControl hCalm).1

/-- The flag of a call, read off the lexemes before it. -/
theorem anyConditionalScope_iff_guarded (ls : List Lexeme) : anyConditionalScope (controlState ls) = true ↔ Guarded ls := by
  have hStack : (controlState ls).blockStack.any id = true ↔ true ∈ (controlState ls).blockStack := by simp
  rw [anyConditionalScope, Bool.or_eq_true, hStack, notesLevels_blockStack.mem_iff, pending_iff_reached, Guarded]
  simp only [pending_iff_reached]

end ContainerCP.Wordpress
