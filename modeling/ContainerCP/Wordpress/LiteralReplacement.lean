import ContainerCP.Wordpress.Lexing

/-! Replacing one string literal of the content by another. As long as the
literal starts where the scanner is in code, neither `find_define_close` nor
the main loop can tell the two contents apart, except for the positions after
the literal. -/
namespace ContainerCP.Wordpress

/-- Where a position goes when the bytes from `start` on, `oldLen` of them, are
replaced by `newLen` others. -/
def shiftPos (start oldLen newLen pos : Nat) : Nat :=
  if pos < start then pos else pos - oldLen + newLen

/-- What a replacement inside the content does to a call that was found in it. -/
def rewriteCall (start oldLen : Nat) (new : Bytes) (call : PhpDefineCall) : PhpDefineCall where
  offset := shiftPos start oldLen new.length call.offset
  bodyStart := shiftPos start oldLen new.length call.bodyStart
  closeParen := shiftPos start oldLen new.length call.closeParen
  body :=
    if call.bodyStart ≤ start ∧ start ≤ call.closeParen then
      call.body.take (start - call.bodyStart) ++ new ++
        call.body.drop (start - call.bodyStart + oldLen)
    else call.body
  conditional := call.conditional

/-- A call whose positions are counted from another origin. -/
def moveCall (by' : Nat) (call : PhpDefineCall) : PhpDefineCall :=
  { call with
    offset := call.offset + by', bodyStart := call.bodyStart + by',
    closeParen := call.closeParen + by' }

theorem findDefineClose_move (k : Nat) (jump : Bool) (mode : LexMode) (depth pos : Nat)
    (text : Bytes) :
    findDefineClose jump mode depth (pos + k) text =
      (findDefineClose jump mode depth pos text).map (· + k) := by
  induction text generalizing jump mode depth pos with
  | nil => cases jump <;> rfl
  | cons c rest ih =>
      have hNext : pos + k + 1 = pos + 1 + k := by omega
      cases jump with
      | true => simp only [findDefineClose, hNext, ih]
      | false =>
          simp only [findDefineClose, hNext]
          split
          · exact ih _ _ _ _
          · split_ifs
            · exact ih _ _ _ _
            · rfl
            · exact ih _ _ _ _
            · exact ih _ _ _ _

/-- What a closing parenthesis is: the text before it ends in code. -/
theorem findDefineClose_spec {jump : Bool} {mode : LexMode} {depth pos close : Nat} {text : Bytes}
    (h : findDefineClose jump mode depth pos text = some close) :
    ∃ body post, text = body ++ ascii ')' :: post ∧ close = pos + body.length ∧
      lexOver mode jump body (ascii ')') = (.code, false) := by
  induction text generalizing jump mode depth pos with
  | nil => cases jump <;> simp [findDefineClose] at h
  | cons c rest ih =>
      -- one more byte in front of the body that the rest of the loop found
      have hExtend : ∀ {jump' : Bool} {mode' : LexMode} {depth' : Nat},
          findDefineClose jump' mode' depth' (pos + 1) rest = some close →
          (∀ body, rest.headD 0 = List.headD body (ascii ')') →
            lexOver mode jump (c :: body) (ascii ')') = lexOver mode' jump' body (ascii ')')) →
          ∃ body post, c :: rest = body ++ ascii ')' :: post ∧ close = pos + body.length ∧
            lexOver mode jump body (ascii ')') = (.code, false) := by
        intro jump' mode' depth' hRest hLex
        obtain ⟨body, post, rfl, rfl, hBody⟩ := ih hRest
        refine ⟨c :: body, post, rfl, by simp; omega, ?_⟩
        rw [hLex body (headD_append ..), hBody]
      cases jump with
      | true => exact hExtend h fun body _ => rfl
      | false =>
          simp only [findDefineClose] at h
          split at h
          next mode' jump' hStep =>
            exact hExtend h fun body hHead => by simp only [lexOver, ← hHead, hStep]
          next hStep =>
            obtain rfl := lexStep_eq_none hStep
            have hLex : ∀ body, rest.headD 0 = List.headD body (ascii ')') →
                lexOver .code false (c :: body) (ascii ')') =
                  lexOver .code false body (ascii ')') := fun body hHead => by
              simp only [lexOver, ← hHead, hStep]
            split_ifs at h with hOpen hClose hDepth
            · exact hExtend h hLex
            · obtain rfl := hClose
              simp only [Option.some.injEq] at h
              exact ⟨[], rest, rfl, by simp [h], rfl⟩
            · exact hExtend h hLex
            · exact hExtend h hLex

theorem findDefineClose_quoted {q : UInt8} (hq : IsQuote q) {literal : Bytes}
    (h : literalBody q literal = true) (depth pos : Nat) (after : Bytes) :
    findDefineClose false .code depth pos (q :: (literal ++ q :: after)) =
      (findDefineClose false .code depth 0 after).map (· + (pos + 1 + literal.length + 1)) := by
  simp only [findDefineClose, lexStep_quote hq]
  rw [findDefineClose_literal hq h, ← findDefineClose_move, Nat.zero_add]

/-- In front of a literal, `find_define_close` has either found its parenthesis
or does not depend on the literal yet. -/
theorem findDefineClose_before {q : UInt8} {jump : Bool} {mode : LexMode} {depth pos : Nat}
    {before : Bytes} (hSync : lexOver mode jump before q = (.code, false)) :
    (∃ close, close < pos + before.length ∧
      ∀ suffix, findDefineClose jump mode depth pos (before ++ q :: suffix) = some close) ∨
    ∃ depth', ∀ suffix, findDefineClose jump mode depth pos (before ++ q :: suffix) =
      findDefineClose false .code depth' (pos + before.length) (q :: suffix) := by
  induction before generalizing jump mode depth pos with
  | nil =>
      simp only [lexOver, Prod.mk.injEq] at hSync
      obtain ⟨rfl, rfl⟩ := hSync
      exact .inr ⟨depth, fun suffix => rfl⟩
  | cons c rest ih =>
      have hLength : pos + (c :: rest).length = pos + 1 + rest.length := by
        simp only [List.length_cons]; omega
      -- the loop has read `c` and goes on with the rest
      have hContinue : ∀ {jump' : Bool} {mode' : LexMode} {depth' : Nat},
          lexOver mode' jump' rest q = (.code, false) →
          (∀ suffix, findDefineClose jump mode depth pos (c :: (rest ++ q :: suffix)) =
            findDefineClose jump' mode' depth' (pos + 1) (rest ++ q :: suffix)) →
          (∃ close, close < pos + (c :: rest).length ∧
            ∀ suffix, findDefineClose jump mode depth pos (c :: rest ++ q :: suffix) = some close) ∨
          ∃ depth', ∀ suffix, findDefineClose jump mode depth pos (c :: rest ++ q :: suffix) =
            findDefineClose false .code depth' (pos + (c :: rest).length) (q :: suffix) := by
        intro jump' mode' depth' hRest hNext
        simp only [List.cons_append, hNext, hLength]
        exact ih hRest
      have hHead : ∀ suffix : Bytes, (rest ++ q :: suffix).headD 0 = rest.headD q :=
        fun suffix => headD_append ..
      cases jump with
      | true => exact hContinue hSync fun suffix => by rw [findDefineClose]
      | false =>
          simp only [lexOver] at hSync
          split at hSync
          next hStep =>
            exact hContinue hSync fun suffix => by simp only [findDefineClose, hHead, hStep]; rfl
          next hStep =>
            have hCode := fun suffix => findDefineClose.eq_3 mode depth pos c (rest ++ q :: suffix)
            simp only [hHead, hStep] at hCode
            split_ifs at hCode
            · exact hContinue hSync hCode
            · refine .inl ⟨pos, by omega, hCode⟩
            · exact hContinue hSync hCode
            · exact hContinue hSync hCode

/-- Jumping over a stretch of the content, and further, only moves the index. -/
theorem scan_passed (passed : Bytes) (k i : Nat) (prev : Option UInt8) (st : ScanState) (text : Bytes) :
    scan (passed.length + k) i prev st (passed ++ text) =
      scan k (i + passed.length) (passed.getLast?.or prev) st text := by
  induction passed generalizing i prev with
  | nil => rw [List.length_nil, Nat.zero_add]; rfl
  | cons c rest ih =>
      rw [List.length_cons, Nat.add_right_comm, List.cons_append, scan, ih, Nat.add_right_comm i 1]
      cases h : rest.getLast? with
      | none => rw [List.getLast?_eq_none_iff.mp h]; rfl
      | some last => rw [List.getLast?_cons, h]; rfl

/-- What a found call says about the content from its first byte on. -/
theorem defineCallAt_spec {st : ScanState} {i : Nat} {text : Bytes} {call : PhpDefineCall}
    (h : defineCallAt st i text = some call) :
    ∃ lead post, text = lead ++ (call.body ++ ascii ')' :: post) ∧ call.offset = i ∧
      call.bodyStart = i + lead.length ∧ call.closeParen = call.bodyStart + call.body.length ∧
      (∀ after, lexOver .code false lead after = (.code, false)) ∧
      lexOver .code false call.body (ascii ')') = (.code, false) := by
  simp only [defineCallAt] at h
  split at h
  · cases h
  next c inside hInside =>
    split_ifs at h with hOpen
    split at h
    next close hClose =>
      obtain ⟨body, post, rfl, rfl, hBody⟩ := findDefineClose_spec hClose
      obtain rfl := hOpen
      obtain rfl := Option.some.inj h
      have hTake : ∀ n : Nat, (body ++ ascii ')' :: post).take (n + 1 + body.length - n - 1) = body := by
        intro n
        rw [show n + 1 + body.length - n - 1 = body.length by omega, List.take_left']
        rfl
      simp only [hTake]
      refine ⟨text.takeWhile isIdentifierChar ++
        ((text.dropWhile isIdentifierChar).takeWhile isSpace ++ [ascii '(']), post, ?_, trivial, ?_,
        trivial, ?_, hBody⟩
      · conv_lhs =>
          rw [← List.takeWhile_append_dropWhile (p := isIdentifierChar) (l := text),
            ← List.takeWhile_append_dropWhile (p := isSpace) (l := text.dropWhile isIdentifierChar),
            hInside]
        simp
      · simp; omega
      · intro after
        rw [lexOver_plainCode_append fun c hc =>
            plainCode_of_isIdentifierChar (List.mem_takeWhile_imp hc),
          lexOver_plainCode_append fun c hc => plainCode_of_isSpace (List.mem_takeWhile_imp hc)]
        rfl
    · cases h

def startsWord (c : UInt8) : Bool := isAlpha c || c == ascii '_'

/-- The call that the main loop finds at a byte of code. -/
def foundCall (st : ScanState) (i : Nat) (prev : Option UInt8) (text : Bytes) :
    Option PhpDefineCall :=
  if text.head?.any startsWord && (notVariable prev &&
      text.takeWhile isIdentifierChar == bytes "define") then defineCallAt st i text
  else none

/-- The state of the main loop after a byte of code without a call. -/
def stateAfter (st : ScanState) (prev : Option UInt8) (c : UInt8) (token : Bytes) : ScanState :=
  if startsWord c then
    if notVariable prev && isControlKeyword token then { st with pendingControl := true } else st
  else st.punctuation c

/-- How many bytes of a word remain after its first. -/
def wordJump (c : UInt8) (token : Bytes) : Nat := if startsWord c then token.length - 1 else 0

theorem wordJump_le (c : UInt8) (rest : Bytes) :
    wordJump c ((c :: rest).takeWhile isIdentifierChar) ≤ rest.length := by
  have hToken := (List.takeWhile_prefix isIdentifierChar (l := c :: rest)).length_le
  simp only [List.length_cons] at hToken
  simp only [wordJump]
  split_ifs <;> omega

theorem scan_code {st : ScanState} {c : UInt8} {rest : Bytes}
    (hStep : lexStep st.mode c (rest.headD 0) = none) (i : Nat) (prev : Option UInt8) :
    scan 0 i prev st (c :: rest) =
      match foundCall st i prev (c :: rest) with
      | some call => call :: scan (call.closeParen - i) (i + 1) (some c) st rest
      | none =>
          scan (wordJump c ((c :: rest).takeWhile isIdentifierChar)) (i + 1) (some c)
            (stateAfter st prev c ((c :: rest).takeWhile isIdentifierChar)) rest := by
  by_cases hWord : startsWord c = true
  · have hStart : (isAlpha c || c == ascii '_') = true := hWord
    have hCall : foundCall st i prev (c :: rest) =
        if notVariable prev && (c :: rest).takeWhile isIdentifierChar == bytes "define" then defineCallAt st i (c :: rest)
        else none := by
      simp only [foundCall, List.head?_cons, Option.any_some, hWord, Bool.true_and]
    cases hFound : foundCall st i prev (c :: rest) with
    | some call =>
        rw [hCall] at hFound
        simp only [scan, hStep, hStart, if_true, hFound]
    | none =>
        rw [hCall] at hFound
        simp only [scan, hStep, hStart, if_true, hFound, stateAfter, wordJump, hWord]
  · have hStart : ¬ (isAlpha c || c == ascii '_') = true := hWord
    simp only [scan, hStep, foundCall, stateAfter, wordJump, List.head?_cons, Option.any_some, hWord, hStart, if_false,
      Bool.false_and, Bool.false_eq_true]

theorem stateAfter_mode (st : ScanState) (prev : Option UInt8) (c : UInt8) (token : Bytes) :
    (stateAfter st prev c token).mode = st.mode := by
  simp only [stateAfter]
  split_ifs <;> simp

theorem foundCall_eq_some {st : ScanState} {i : Nat} {prev : Option UInt8} {text : Bytes}
    {call : PhpDefineCall} (h : foundCall st i prev text = some call) :
    defineCallAt st i text = some call := by
  simp only [foundCall] at h
  split_ifs at h
  exact h

theorem lexOver_jump {mode : LexMode} {jump : Bool} {text : Bytes} {after : UInt8} :
    lexOver mode jump text after = (.code, false) ↔
      jump.toNat ≤ text.length ∧
        lexOver mode false (text.drop jump.toNat) after = (.code, false) := by
  cases jump with
  | false => simp
  | true => cases text <;> simp [lexOver]

/-- Passing over a stretch that ends in code, as it started, changes nothing. -/
theorem lexOver_passed {c after : UInt8} {rest lead more other : Bytes} {n : Nat} (passed : Bytes)
    (hText : c :: rest = passed ++ other)
    (hPassed : ∀ after, lexOver .code false passed after = (.code, false))
    (hLength : passed.length = n + 1) (hRest : rest = lead ++ more) (hLe : n ≤ lead.length) :
    lexOver .code false (c :: lead) after = lexOver .code false (lead.drop n) after := by
  have hTake : passed = c :: lead.take n := by
    have hFirst := congrArg (List.take (n + 1)) hText
    rw [List.take_left' hLength, hRest, List.take_succ_cons, List.take_append_of_le_length hLe]
      at hFirst
    exact hFirst.symm
  have hSplit : c :: lead = passed ++ lead.drop n := by
    rw [hTake, List.cons_append, List.take_append_drop]
  rw [hSplit, lexOver_append, hPassed]

/-- A call that was found is passed over from its first byte to its closing
parenthesis. -/
theorem lexOver_call {st : ScanState} {i : Nat} {c after : UInt8} {rest lead more : Bytes}
    {call : PhpDefineCall} (hCall : defineCallAt st i (c :: rest) = some call)
    (hRest : rest = lead ++ more) (hLe : call.closeParen - i ≤ lead.length) :
    lexOver .code false (c :: lead) after =
      lexOver .code false (lead.drop (call.closeParen - i)) after := by
  obtain ⟨first, post, hText, -, hStart, hClose, hFirst, hBody⟩ := defineCallAt_spec hCall
  have hPassed : c :: rest = first ++ (call.body ++ [ascii ')']) ++ post := by simpa using hText
  refine lexOver_passed _ hPassed (fun d => ?_) ?_ hRest hLe
  · rw [lexOver_append, hFirst, lexOver_append]
    simp only [List.headD_cons, hBody]
    rfl
  · simp only [List.length_append, List.length_singleton]
    omega

/-- A byte of code without a call is passed over, together with the rest of its
word. -/
theorem lexOver_word {c after : UInt8} {rest lead more : Bytes}
    (hStep : lexStep .code c (rest.headD 0) = none) (hRest : rest = lead ++ more)
    (hAfter : more.headD 0 = after)
    (hLe : wordJump c ((c :: rest).takeWhile isIdentifierChar) ≤ lead.length) :
    lexOver .code false (c :: lead) after =
      lexOver .code false
        (lead.drop (wordJump c ((c :: rest).takeWhile isIdentifierChar))) after := by
  by_cases hWord : startsWord c = true
  · have hChar : isIdentifierChar c = true := by
      simp only [startsWord, isIdentifierChar, isAlnum, Bool.or_eq_true] at hWord ⊢
      tauto
    refine lexOver_passed ((c :: rest).takeWhile isIdentifierChar)
      List.takeWhile_append_dropWhile.symm (fun d => ?_) ?_ hRest hLe
    · exact lexOver_plainCode
        (fun d hd => plainCode_of_isIdentifierChar (List.mem_takeWhile_imp hd)) d
    · simp [wordJump, hWord, hChar]
  · have hHead : lead.headD after = rest.headD 0 := by rw [hRest, headD_append, hAfter]
    simp only [lexOver, hHead, hStep, wordJump, hWord, Bool.false_eq_true, if_false, List.drop_zero]

/-- Every call found by the main loop has its body where the scanner is in
code, and behind the bytes that the loop was told to jump over. -/
theorem scan_spec {jump i : Nat} {prev : Option UInt8} {st : ScanState} {text : Bytes}
    {call : PhpDefineCall} (h : call ∈ scan jump i prev st text) :
    ∃ lead post, text = lead ++ (call.body ++ ascii ')' :: post) ∧
      call.bodyStart = i + lead.length ∧ call.closeParen = call.bodyStart + call.body.length ∧
      jump ≤ lead.length ∧ i ≤ call.offset ∧ call.offset ≤ call.bodyStart ∧
      lexOver st.mode false (lead.drop jump) ((call.body ++ ascii ')' :: post).headD 0) =
        (.code, false) := by
  induction text generalizing jump i prev st with
  | nil => cases jump <;> simp [scan] at h
  | cons c rest ih =>
      -- the call is found further on, behind `jump'` bytes of the rest
      have hLater : ∀ {jump' : Nat} {prev' : Option UInt8} {st' : ScanState},
          call ∈ scan jump' (i + 1) prev' st' rest →
          (∀ lead more, rest = lead ++ more → jump' ≤ lead.length →
            lexOver st'.mode false (lead.drop jump') (more.headD 0) = (.code, false) →
            jump ≤ lead.length + 1 ∧
              lexOver st.mode false ((c :: lead).drop jump) (more.headD 0) = (.code, false)) →
          ∃ lead post, c :: rest = lead ++ (call.body ++ ascii ')' :: post) ∧
            call.bodyStart = i + lead.length ∧
            call.closeParen = call.bodyStart + call.body.length ∧
            jump ≤ lead.length ∧ i ≤ call.offset ∧ call.offset ≤ call.bodyStart ∧
            lexOver st.mode false (lead.drop jump) ((call.body ++ ascii ')' :: post).headD 0) =
              (.code, false) := by
        intro jump' prev' st' hCall hLex
        obtain ⟨lead, post, hText, hStart, hClose, hJump, hOffset, hOrder, hSync⟩ := ih hCall
        obtain ⟨hLe, hSync'⟩ := hLex lead _ hText hJump hSync
        refine ⟨c :: lead, post, by simp [hText], ?_, hClose, hLe, by omega, hOrder, hSync'⟩
        simp only [List.length_cons]; omega
      cases jump with
      | succ n =>
          simp only [scan] at h
          exact hLater h fun lead more _ hLe hSync => ⟨by omega, hSync⟩
      | zero =>
          cases hStep : lexStep st.mode c (rest.headD 0) with
          | some step =>
              obtain ⟨mode', jump'⟩ := step
              simp only [scan, hStep] at h
              refine hLater h fun lead more hRest hLe hSync => ⟨by omega, ?_⟩
              have hHead : lead.headD (more.headD 0) = rest.headD 0 := by rw [hRest, headD_append]
              simp only [List.drop_zero, lexOver, hHead, hStep]
              exact lexOver_jump.mpr ⟨hLe, hSync⟩
          | none =>
              have hMode := lexStep_eq_none hStep
              rw [scan_code hStep] at h
              split at h
              next found hFound =>
                have hDefine := foundCall_eq_some hFound
                rcases List.mem_cons.mp h with rfl | h
                · obtain ⟨lead, post, hText, hOffset, hStart, hClose, hLead, -⟩ :=
                    defineCallAt_spec hDefine
                  refine ⟨lead, post, hText, hStart, hClose, by omega, by omega, by omega, ?_⟩
                  rw [hMode, List.drop_zero, hLead]
                · refine hLater h fun lead more hRest hLe hSync => ⟨by omega, ?_⟩
                  rw [hMode] at hSync ⊢
                  rwa [List.drop_zero, lexOver_call hDefine hRest hLe]
              next =>
                refine hLater h fun lead more hRest hLe hSync => ⟨by omega, ?_⟩
                rw [stateAfter_mode, hMode] at hSync
                rw [hMode] at hStep ⊢
                rwa [List.drop_zero, lexOver_word hStep hRest rfl hLe]

/-- The calls are found from left to right and do not overlap. -/
theorem scan_pairwise (jump i : Nat) (prev : Option UInt8) (st : ScanState) (text : Bytes) :
    (scan jump i prev st text).Pairwise fun first second =>
      first.closeParen < second.bodyStart := by
  induction text generalizing jump i prev st with
  | nil => cases jump <;> simp [scan]
  | cons c rest ih =>
      cases jump with
      | succ n => simpa only [scan] using ih ..
      | zero =>
          cases hStep : lexStep st.mode c (rest.headD 0) with
          | some step => simpa only [scan, hStep] using ih ..
          | none =>
              rw [scan_code hStep]
              split
              next call hCall =>
                refine List.pairwise_cons.mpr ⟨fun later hLater => ?_, ih ..⟩
                obtain ⟨lead, post, -, hStart, -, hJump, -⟩ := scan_spec hLater
                omega
              next => exact ih ..

theorem takeWhile_append_stop {p : UInt8 → Bool} {stop : UInt8} (h : p stop = false)
    (before after : Bytes) : (before ++ stop :: after).takeWhile p = before.takeWhile p := by
  induction before with
  | nil => simp [h]
  | cons c rest ih => by_cases hc : p c = true <;> simp [hc, ih]

theorem dropWhile_append_stop {p : UInt8 → Bool} {stop : UInt8} (h : p stop = false)
    (before after : Bytes) :
    (before ++ stop :: after).dropWhile p = before.dropWhile p ++ stop :: after := by
  induction before with
  | nil => simp [h]
  | cons c rest ih => by_cases hc : p c = true <;> simp [hc, ih]

theorem IsQuote.not_identifierChar {q : UInt8} (hq : IsQuote q) : isIdentifierChar q = false := by
  obtain rfl | rfl := hq <;> decide

theorem IsQuote.not_space {q : UInt8} (hq : IsQuote q) : isSpace q = false := by
  obtain rfl | rfl := hq <;> decide

theorem defineCallAt_move (st : ScanState) (k i : Nat) (text : Bytes) :
    defineCallAt st (i + k) text = (defineCallAt st i text).map (moveCall k) := by
  simp only [defineCallAt]
  generalize (text.takeWhile isIdentifierChar).length = token
  generalize ((text.dropWhile isIdentifierChar).takeWhile isSpace).length = spaces
  split
  · rfl
  next c inside _ =>
    have hOpen : i + k + token + spaces + 1 = i + token + spaces + 1 + k := by omega
    rw [hOpen, findDefineClose_move]
    split_ifs
    · cases findDefineClose false .code 1 (i + token + spaces + 1) inside with
      | none => rfl
      | some close =>
          have hTake : close + k - (i + k + token + spaces) - 1 = close - (i + token + spaces) - 1 := by
            omega
          simp only [Option.map_some, moveCall, hTake]
    · rfl

theorem scan_move (k : Nat) (jump i : Nat) (prev : Option UInt8) (st : ScanState) (text : Bytes) :
    scan jump (i + k) prev st text = (scan jump i prev st text).map (moveCall k) := by
  induction text generalizing jump i prev st with
  | nil => cases jump <;> rfl
  | cons c rest ih =>
      have hNext : i + k + 1 = i + 1 + k := by omega
      cases jump with
      | succ n => simp only [scan, hNext, ih]
      | zero =>
          cases hStep : lexStep st.mode c (rest.headD 0) with
          | some step => simp only [scan, hStep, hNext, ih]
          | none =>
              have hFound : foundCall st (i + k) prev (c :: rest) =
                  (foundCall st i prev (c :: rest)).map (moveCall k) := by
                simp only [foundCall]
                split_ifs
                · exact defineCallAt_move ..
                · rfl
              rw [scan_code hStep, scan_code hStep, hFound]
              cases foundCall st i prev (c :: rest) with
              | none => simp only [Option.map_none, hNext, ih]
              | some call =>
                  simp only [Option.map_some, List.map_cons, moveCall, hNext, Nat.add_sub_add_right]
                  exact congrArg _ (ih ..)

/-- In front of a literal, a `define` either has no parentheses around it, or is
closed already, or the literal stands inside it. -/
theorem defineCallAt_before {q : UInt8} (hq : IsQuote q) {st : ScanState} {i : Nat} {before : Bytes}
    (hSync : lexOver .code false before q = (.code, false)) :
    (∀ suffix, defineCallAt st i (before ++ q :: suffix) = none) ∨
    (∃ call, call.closeParen < i + before.length ∧
      ∀ suffix, defineCallAt st i (before ++ q :: suffix) = some call) ∨
    ∃ lead inside depth, before = lead ++ inside ∧
      ∀ suffix, defineCallAt st i (before ++ q :: suffix) =
        (findDefineClose false .code depth (i + before.length) (q :: suffix)).map fun close =>
          { offset := i
            bodyStart := i + lead.length
            closeParen := close
            body := (inside ++ q :: suffix).take (close - (i + lead.length))
            conditional := anyConditionalScope st } := by
  obtain ⟨token, spaces, hToken, hSpaces⟩ : ∃ token spaces,
      token = before.takeWhile isIdentifierChar ∧
        spaces = (before.dropWhile isIdentifierChar).takeWhile isSpace := ⟨_, _, rfl, rfl⟩
  have hBefore : before = token ++ (spaces ++ (before.dropWhile isIdentifierChar).dropWhile isSpace) := by
    rw [hToken, hSpaces, List.takeWhile_append_dropWhile, List.takeWhile_append_dropWhile]
  simp only [defineCallAt, takeWhile_append_stop hq.not_identifierChar,
    dropWhile_append_stop hq.not_identifierChar, takeWhile_append_stop hq.not_space,
    dropWhile_append_stop hq.not_space, ← hToken, ← hSpaces]
  cases hTail : (before.dropWhile isIdentifierChar).dropWhile isSpace with
  | nil =>
      have hNotOpen : q ≠ ascii '(' := by obtain rfl | rfl := hq <;> decide
      exact .inl fun suffix => by simp [hNotOpen]
  | cons c inside =>
      by_cases hOpen : c = ascii '('
      · subst hOpen
        rw [hTail] at hBefore
        have hLength : i + token.length + spaces.length + 1 + inside.length = i + before.length := by
          rw [hBefore]; simp; omega
        have hInside : lexOver .code false inside q = (.code, false) := by
          rw [hBefore, hToken, hSpaces,
            lexOver_plainCode_append fun d hd =>
              plainCode_of_isIdentifierChar (List.mem_takeWhile_imp hd),
            lexOver_plainCode_append fun d hd =>
              plainCode_of_isSpace (List.mem_takeWhile_imp hd)] at hSync
          exact hSync
        simp only [List.cons_append, if_true]
        have hLead : i + (token ++ (spaces ++ [ascii '('])).length =
            i + token.length + spaces.length + 1 := by simp; omega
        rcases findDefineClose_before (q := q) hInside with ⟨close, hClose, hSame⟩ | ⟨depth', hSame⟩
        · refine .inr (.inl ⟨⟨i, i + token.length + spaces.length + 1, close,
            inside.take (close - (i + token.length + spaces.length) - 1),
            anyConditionalScope st⟩, ?_, fun suffix => ?_⟩)
          · rw [← hLength]; exact hClose
          · rw [hSame, ← List.take_append_of_le_length (by omega)]
        · refine .inr (.inr ⟨token ++ (spaces ++ [ascii '(']), inside, depth', ?_, fun suffix => ?_⟩)
          · rw [hBefore]; simp
          · rw [hSame, hLength, hLead]
            cases findDefineClose false .code depth' (i + before.length) (q :: suffix) with
            | none => rfl
            | some close =>
                simp only [Option.map_some, Nat.sub_sub]
      · exact .inl fun suffix => by simp [hOpen]

/-- A call behind the literal only moves. -/
theorem rewriteCall_moveCall (start oldLen : Nat) (new : Bytes) (call : PhpDefineCall) :
    rewriteCall start oldLen new (moveCall (start + oldLen + 1) call) =
      moveCall (start + new.length + 1) call := by
  have hShift : ∀ n, shiftPos start oldLen new.length (n + (start + oldLen + 1)) =
      n + (start + new.length + 1) := by
    intro n
    rw [shiftPos, if_neg (by omega)]
    omega
  have hOutside : ¬ call.bodyStart + (start + oldLen + 1) ≤ start := by omega
  simp only [rewriteCall, moveCall, hShift, hOutside, false_and, if_false]

/-- A call in front of the literal stays as it is. -/
theorem rewriteCall_eq_self {start : Nat} {call : PhpDefineCall} (oldLen : Nat) (new : Bytes)
    (hOffset : call.offset < start) (hBody : call.bodyStart < start)
    (hClose : call.closeParen < start) : rewriteCall start oldLen new call = call := by
  have hOutside : ¬ start ≤ call.closeParen := by omega
  simp only [rewriteCall, shiftPos, hOffset, hBody, hClose, hOutside, and_false, if_true, if_false]

/-- The main loop from the closing quote on. -/
theorem scan_behind (start oldLen k : Nat) (new : Bytes) (prev : Option UInt8) (st : ScanState)
    (text : Bytes) :
    scan 0 (k + (start + new.length + 1)) prev st text =
      (scan 0 (k + (start + oldLen + 1)) prev st text).map (rewriteCall start oldLen new) := by
  rw [scan_move, scan_move, List.map_map]
  congr 1
  funext call
  exact (rewriteCall_moveCall start oldLen new call).symm

/-- The call around a literal, found in a content where the closing parenthesis
stands behind `tail`. -/
def callAround (st : ScanState) (i : Nat) (lead inside : Bytes) (q : UInt8) (literal tail : Bytes) :
    PhpDefineCall where
  offset := i
  bodyStart := i + lead.length
  closeParen := i + lead.length + inside.length + literal.length + tail.length + 2
  body := inside ++ q :: (literal ++ q :: tail)
  conditional := anyConditionalScope st

theorem rewriteCall_callAround (st : ScanState) (i : Nat) (lead inside : Bytes) (q : UInt8)
    (old new tail : Bytes) :
    rewriteCall (i + (lead ++ inside).length + 1) old.length new
      (callAround st i lead inside q old tail) = callAround st i lead inside q new tail := by
  have hInside : i + (lead ++ inside).length + 1 - (i + lead.length) = (inside ++ [q]).length := by
    simp; omega
  have hOld : (inside ++ [q]).length + old.length = (inside ++ q :: old).length := by
    simp; omega
  have hContains : i + lead.length ≤ i + (lead ++ inside).length + 1 ∧
      i + (lead ++ inside).length + 1 ≤
        i + lead.length + inside.length + old.length + tail.length + 2 := by
    simp only [List.length_append]; omega
  have hBody : inside ++ q :: (old ++ q :: tail) = inside ++ q :: old ++ q :: tail := by simp
  have hBody' : inside ++ q :: (old ++ q :: tail) = inside ++ [q] ++ (old ++ q :: tail) := by simp
  simp only [rewriteCall, callAround, if_pos hContains, hInside, hOld, PhpDefineCall.mk.injEq, and_true]
  refine ⟨?_, ?_, ?_, ?_⟩
  · rw [shiftPos, if_pos (by omega)]
  · rw [shiftPos, if_pos (by simp only [List.length_append]; omega)]
  · rw [shiftPos, if_neg (by simp only [List.length_append]; omega)]
    omega
  · rw [hBody', List.take_left, ← hBody', hBody, List.drop_left]
    simp

section ScanReplacement

variable {q : UInt8} (hq : IsQuote q) {old new : Bytes} (hOld : literalBody q old = true)
  (hNew : literalBody q new = true) (after : Bytes)

/-- The main loop after the call around a literal. -/
theorem scan_callAround (st : ScanState) (i : Nat) (c : UInt8) {rest lead inside : Bytes}
    (hBefore : c :: rest = lead ++ inside) (literal tail post : Bytes) :
    scan ((callAround st i lead inside q literal tail).closeParen - i) (i + 1) (some c) st
        (rest ++ q :: (literal ++ q :: (tail ++ ascii ')' :: post))) =
      scan 0 (tail.length + 1 + (i + (c :: rest).length + 1 + literal.length + 1)) (some (ascii ')'))
        st post := by
  have hLength : lead.length + inside.length = rest.length + 1 := by
    simpa using (congrArg List.length hBefore).symm
  have hPassed := scan_passed (rest ++ q :: (literal ++ q :: (tail ++ [ascii ')']))) 0 (i + 1) (some c) st
    post
  have hLast : (rest ++ q :: (literal ++ q :: (tail ++ [ascii ')']))).getLast? = some (ascii ')') := by
    have hConcat : rest ++ q :: (literal ++ q :: (tail ++ [ascii ')'])) =
        rest ++ q :: (literal ++ q :: tail) ++ [ascii ')'] := by simp
    rw [hConcat, List.getLast?_concat]
  rw [hLast] at hPassed
  convert hPassed using 1
  · congr 1
    · simp [callAround]; omega
    · simp
  · congr 1
    simp; omega

include hq in
/-- A `define` in front of a literal, in terms of what stands behind it: no
call for any literal, the same call for any literal, or one around it. -/
theorem defineCallAt_literal (st : ScanState) (i : Nat) {before : Bytes}
    (hSync : lexOver .code false before q = (.code, false)) :
    (∀ literal, literalBody q literal = true →
      defineCallAt st i (before ++ q :: (literal ++ q :: after)) = none) ∨
    (∃ call, call.closeParen < i + before.length ∧
      ∀ literal, defineCallAt st i (before ++ q :: (literal ++ q :: after)) = some call) ∨
    ∃ lead inside tail post, before = lead ++ inside ∧ after = tail ++ ascii ')' :: post ∧
      ∀ literal, literalBody q literal = true →
        defineCallAt st i (before ++ q :: (literal ++ q :: after)) =
          some (callAround st i lead inside q literal tail) := by
  rcases defineCallAt_before hq hSync with hNone | ⟨call, hClose, hSame⟩ |
    ⟨lead, inside, depth, hBefore, hSame⟩
  · exact .inl fun literal _ => hNone _
  · exact .inr (.inl ⟨call, hClose, fun literal => hSame _⟩)
  · cases hAfter : findDefineClose false .code depth 0 after with
    | none =>
        refine .inl fun literal h => ?_
        rw [hSame, findDefineClose_quoted hq h, hAfter]
        rfl
    | some close =>
        obtain ⟨tail, post, rfl, rfl, -⟩ := findDefineClose_spec hAfter
        refine .inr (.inr ⟨lead, inside, tail, post, hBefore, rfl, fun literal h => ?_⟩)
        have hClose : 0 + tail.length + (i + before.length + 1 + literal.length + 1) =
            i + lead.length + inside.length + literal.length + tail.length + 2 := by
          rw [hBefore, List.length_append]; omega
        have hBody : inside ++ q :: (literal ++ q :: (tail ++ ascii ')' :: post)) =
            inside ++ q :: (literal ++ q :: tail) ++ ascii ')' :: post := by simp
        rw [hSame, findDefineClose_quoted hq h, hAfter]
        simp only [Option.map_some, hClose, callAround, hBody]
        rw [List.take_left' (by simp; omega)]

include hq hOld hNew in
/-- The main loop finds the same calls in both contents: those in front of the
literal, the call around it, and those behind it. -/
theorem scan_replace {jump i : Nat} {prev : Option UInt8} {st : ScanState} {before : Bytes}
    (hJump : jump ≤ before.length)
    (hSync : lexOver st.mode false (before.drop jump) q = (.code, false)) :
    scan jump i prev st (before ++ q :: (new ++ q :: after)) =
      (scan jump i prev st (before ++ q :: (old ++ q :: after))).map
        (rewriteCall (i + before.length + 1) old.length new) := by
  induction before generalizing jump i prev st with
  | nil =>
      obtain rfl : jump = 0 := by simpa using hJump
      have hMode : st.mode = .code := by simpa [lexOver] using hSync
      simp only [List.nil_append, scan, hMode, lexStep_quote hq, Bool.toNat_false,
        scan_literal hq hOld, scan_literal hq hNew]
      simpa using scan_behind (i + 1) old.length 0 new (some q) { st with mode := .code } after
  | cons c rest ih =>
      have hLength : i + (c :: rest).length + 1 = i + 1 + rest.length + 1 := by
        simp only [List.length_cons]; omega
      cases jump with
      | succ n =>
          rw [hLength]
          simpa only [List.cons_append, scan] using ih (by simpa using hJump) hSync
      | zero =>
          have hHead : ∀ literal : Bytes,
              (rest ++ q :: (literal ++ q :: after)).headD 0 = rest.headD q :=
            fun literal => headD_append ..
          simp only [List.drop_zero] at hSync
          cases hStep : lexStep st.mode c (rest.headD q) with
          | some step =>
              obtain ⟨mode', jump'⟩ := step
              simp only [lexOver, hStep] at hSync
              obtain ⟨hLe, hNext⟩ := lexOver_jump.mp hSync
              rw [hLength]
              simp only [List.cons_append, scan, hHead, hStep]
              exact ih hLe hNext
          | none =>
              have hMode := lexStep_eq_none hStep
              rw [hMode] at hSync
              have hToken : ∀ literal : Bytes,
                  (c :: (rest ++ q :: (literal ++ q :: after))).takeWhile isIdentifierChar =
                    (c :: rest).takeWhile isIdentifierChar := fun literal =>
                takeWhile_append_stop hq.not_identifierChar (c :: rest) _
              have hCode : ∀ literal : Bytes,
                  lexStep st.mode c ((rest ++ q :: (literal ++ q :: after)).headD 0) = none :=
                fun literal => by rw [hHead, hStep]
              -- without a call, both loops move on by the same word
              have hWord : (∀ literal, literalBody q literal = true →
                  foundCall st i prev (c :: (rest ++ q :: (literal ++ q :: after))) = none) →
                  scan 0 i prev st (c :: rest ++ q :: (new ++ q :: after)) =
                    (scan 0 i prev st (c :: rest ++ q :: (old ++ q :: after))).map
                      (rewriteCall (i + (c :: rest).length + 1) old.length new) := by
                intro hNone
                have hLe := wordJump_le c rest
                have hPassed : lexOver .code false (c :: rest) q =
                    lexOver .code false
                      (rest.drop (wordJump c ((c :: rest).takeWhile isIdentifierChar))) q := by
                  have hWord := lexOver_word (hMode ▸ hCode old) rfl rfl (by rwa [hToken])
                  rwa [hToken] at hWord
                rw [List.cons_append, List.cons_append, scan_code (hCode new), scan_code (hCode old),
                  hNone new hNew, hNone old hOld, hToken, hToken, hLength]
                refine ih hLe ?_
                rw [stateAfter_mode, hMode]
                exact hPassed.symm.trans hSync
              by_cases hWordDefine : (startsWord c && (notVariable prev &&
                  (c :: rest).takeWhile isIdentifierChar == bytes "define")) = true
              · have hFound : ∀ literal : Bytes,
                    foundCall st i prev (c :: (rest ++ q :: (literal ++ q :: after))) =
                      defineCallAt st i (c :: rest ++ q :: (literal ++ q :: after)) := by
                  intro literal
                  simp only [foundCall, hToken, List.head?_cons, Option.any_some, if_pos hWordDefine]
                  rfl
                rcases defineCallAt_literal hq after st i hSync with hNone | ⟨call, hClose, hSame⟩ |
                  ⟨lead, inside, tail, post, hBefore, rfl, hSame⟩
                · exact hWord fun literal h => by rw [hFound, hNone literal h]
                · obtain ⟨first, _, -, hOffset, hStart, hEnd, -, -⟩ := defineCallAt_spec (hSame old)
                  have hLe : call.closeParen - i ≤ rest.length := by
                    simp only [List.length_cons] at hClose; omega
                  have hPassed : lexOver .code false (c :: rest) q =
                      lexOver .code false (rest.drop (call.closeParen - i)) q :=
                    lexOver_call (hSame old) rfl hLe
                  rw [List.cons_append, List.cons_append, scan_code (hCode new), scan_code (hCode old),
                    hFound, hFound, hSame, hSame, hLength]
                  simp only [List.map_cons]
                  rw [rewriteCall_eq_self _ _ (by omega) (by omega) (by omega)]
                  refine congrArg _ (ih hLe ?_)
                  rw [hMode]
                  exact hPassed.symm.trans hSync
                · rw [List.cons_append, List.cons_append, scan_code (hCode new), scan_code (hCode old),
                    hFound, hFound, hSame new hNew, hSame old hOld]
                  simp only [List.map_cons, scan_callAround st i c hBefore]
                  rw [hBefore, rewriteCall_callAround, ← hBefore]
                  exact congrArg _ (scan_behind ..)
              · refine hWord fun literal _ => ?_
                simp only [foundCall, hToken, List.head?_cons, Option.any_some, if_neg hWordDefine]

end ScanReplacement

end ContainerCP.Wordpress
