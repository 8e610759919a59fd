import ContainerCP.Wordpress.LiteralReplacement
import ContainerCP.Wordpress.Arguments
import ContainerCP.Wordpress.ConfigDetector
import ContainerCP.Text.Streams

/-! Putting a text into the content at a place that may lie in code, in a string or in a block
comment. A text that leads the scanner back to where it was adds itself to the body of the
call around it, and changes no other call. -/
namespace ContainerCP.Wordpress

/-- The body of a call after `text` was put in at the position `pos`. -/
def insertedBody (pos : Nat) (text : Bytes) (call : PhpDefineCall) : Bytes :=
  if call.bodyStart ≤ pos ∧ pos ≤ call.closeParen then
    call.body.take (pos - call.bodyStart) ++ text ++ call.body.drop (pos - call.bodyStart)
  else call.body

/-- The lexical state and the depth of parentheses behind a text, which does not close more of
them than it opens. -/
def nestOver : LexMode → Bool → Nat → Bytes → Option (LexMode × Bool × Nat)
  | mode, jump, depth, [] => some (mode, jump, depth)
  | mode, true, depth, _ :: rest => nestOver mode false depth rest
  | mode, false, depth, c :: rest =>
      match lexStep mode c (rest.headD 0) with
      | some (mode', jump) => nestOver mode' jump depth rest
      | none =>
          if c = ascii '(' then nestOver mode false (depth + 1) rest
          else if c = ascii ')' then
            match depth with
            | 0 => none
            | depth + 1 => nestOver mode false depth rest
          else nestOver mode false depth rest

/-- A text that can stand anywhere in this mode: it leads back to it, holds no call, and ends
with its line. -/
structure Passive (mode : LexMode) (text : Bytes) : Prop where
  nest : nestOver mode false 0 text = some (mode, false, 0)
  noDefine : ascii 'd' ∉ text
  ends : text.getLast? = some newline
  start : (text.dropWhile isSpace).head? = some (ascii '/')
  plain : mode ≠ .code → text.head? = some newline

/-- What follows the place of insertion: nothing, or a byte that does nothing in any mode. -/
def Idle (rest : Bytes) : Prop := ∀ c ∈ rest.head?, c = ascii '?' ∨ c = ascii 'r'

/-- The last byte in front of `suffix` sees nothing in it that it would not see at the end. -/
def Alike (before suffix : Bytes) : Prop :=
  ∀ c ∈ before.getLast?, ∀ mode, lexStep mode c (suffix.headD 0) = lexStep mode c 0

theorem lexStep_idle {next : UInt8} (h : next ≠ ascii '/' ∧ next ≠ ascii '*') (mode : LexMode) (c : UInt8) :
    lexStep mode c next = lexStep mode c 0 := by
  have hZero : (0 : UInt8) ≠ ascii '/' ∧ (0 : UInt8) ≠ ascii '*' := by decide
  cases mode <;> simp only [lexStep, h, hZero, and_false, if_false]

theorem lexStep_newline (mode : LexMode) (next : UInt8) : lexStep mode newline next = lexStep mode newline 0 := by
  cases mode <;> simp +decide [lexStep]

section Alike

variable {before suffix : Bytes}

theorem alike_of_idle (h : suffix.headD 0 ≠ ascii '/' ∧ suffix.headD 0 ≠ ascii '*') : Alike before suffix :=
  fun c _ mode => lexStep_idle h mode c

theorem Idle.alike (h : Idle suffix) (before : Bytes) : Alike before suffix := by
  refine alike_of_idle ?_
  cases suffix with
  | nil => decide
  | cons d rest =>
      rcases h d rfl with rfl | rfl <;> exact ⟨by simp +decide, by simp +decide⟩

theorem Alike.tail {c : UInt8} (h : Alike (c :: before) suffix) : Alike before suffix := by
  intro d hLast
  cases before with
  | nil => cases hLast
  | cons e before => exact h d (by rwa [List.getLast?_cons_cons])

theorem Alike.lexStep_eq {c : UInt8} (h : Alike (c :: before) suffix) (mode : LexMode) :
    lexStep mode c ((before ++ suffix).headD 0) = lexStep mode c (before.headD 0) := by
  cases before with
  | nil => exact h c (by simp) mode
  | cons d before => rfl

theorem Alike.drop (h : Alike before suffix) (n : Nat) : Alike (before.drop n) suffix := by
  induction n generalizing before with
  | zero => exact h
  | succ n ih =>
      cases before with
      | nil => exact h
      | cons c before => exact ih h.tail

end Alike

/-! ## The closing parenthesis -/

theorem nestOver_lexOver {mode mode' : LexMode} {jump jump' : Bool} {depth depth' : Nat} {text : Bytes}
    (h : nestOver mode jump depth text = some (mode', jump', depth')) :
    lexOver mode jump text 0 = (mode', jump') := by
  induction text generalizing mode jump depth with
  | nil =>
      simp only [nestOver, Option.some.injEq, Prod.mk.injEq] at h
      obtain ⟨rfl, rfl, -⟩ := h
      rfl
  | cons c rest ih =>
      cases jump with
      | true => exact ih h
      | false =>
          simp only [nestOver] at h
          simp only [lexOver]
          cases hStep : lexStep mode c (rest.headD 0) with
          | some next =>
            simp only [hStep] at h ⊢
            exact ih h
          | none =>
            obtain rfl := lexStep_eq_none hStep
            simp only [hStep] at h ⊢
            split at h
            · exact ih h
            · split at h
              · split at h
                · cases h
                · exact ih h
              · exact ih h

/-- A text that closes no more than it opens leaves the parenthesis open that was open before. -/
theorem findDefineClose_nestOver {mode mode' : LexMode} {jump jump' : Bool} {depth depth' : Nat} {text rest : Bytes}
    (h : nestOver mode jump depth text = some (mode', jump', depth')) (hAlike : Alike text rest) (outer pos : Nat) :
    findDefineClose jump mode (depth + (outer + 1)) pos (text ++ rest) =
      findDefineClose jump' mode' (depth' + (outer + 1)) (pos + text.length) rest := by
  induction text generalizing mode jump depth pos with
  | nil =>
      simp only [nestOver, Option.some.injEq, Prod.mk.injEq] at h
      obtain ⟨rfl, rfl, rfl⟩ := h
      rfl
  | cons c text ih =>
      have hNext : ∀ {mode'' : LexMode} {jump'' : Bool} {depth'' : Nat},
          nestOver mode'' jump'' depth'' text = some (mode', jump', depth') →
          findDefineClose jump'' mode'' (depth'' + (outer + 1)) (pos + 1) (text ++ rest) =
            findDefineClose jump' mode' (depth' + (outer + 1)) (pos + (c :: text).length) rest := by
        intro mode'' jump'' depth'' hRest
        rw [ih hRest hAlike.tail, List.length_cons, Nat.add_right_comm, Nat.add_assoc]
      cases jump with
      | true => exact hNext h
      | false =>
          simp only [nestOver] at h
          simp only [List.cons_append, findDefineClose, hAlike.lexStep_eq]
          cases hStep : lexStep mode c (text.headD 0) with
          | some next =>
            simp only [hStep] at h ⊢
            exact hNext h
          | none =>
            simp only [hStep] at h ⊢
            split at h
            next hOpen =>
              rw [if_pos hOpen, Nat.add_right_comm]
              exact hNext h
            next hOpen =>
              rw [if_neg hOpen]
              split at h
              next hClose =>
                rw [if_pos hClose]
                split at h
                · cases h
                next depth =>
                  rw [if_neg (by omega), show depth + 1 + (outer + 1) - 1 = depth + (outer + 1) by omega]
                  exact hNext h
              next hClose =>
                rw [if_neg hClose]
                exact hNext h

/-- In front of the place, `find_define_close` has found its parenthesis or comes to the place. -/
theorem findDefineClose_front {mode mode' : LexMode} {jump jump' : Bool} {depth pos : Nat} {before : Bytes}
    (hLex : lexOver mode jump before 0 = (mode', jump')) (hDepth : 0 < depth) :
    (∃ close, close < pos + before.length ∧
      ∀ suffix, Alike before suffix → findDefineClose jump mode depth pos (before ++ suffix) = some close) ∨
    ∃ outer, ∀ suffix, Alike before suffix → findDefineClose jump mode depth pos (before ++ suffix) =
      findDefineClose jump' mode' (outer + 1) (pos + before.length) suffix := by
  induction before generalizing mode jump depth pos with
  | nil =>
      simp only [lexOver, Prod.mk.injEq] at hLex
      obtain ⟨rfl, rfl⟩ := hLex
      exact .inr ⟨depth - 1, fun suffix _ => by rw [Nat.sub_add_cancel hDepth]; rfl⟩
  | cons c before ih =>
      have hLength : pos + (c :: before).length = pos + 1 + before.length := by
        simp only [List.length_cons]; omega
      -- the loop has read `c` and goes on
      have hContinue : ∀ {mode'' : LexMode} {jump'' : Bool} {depth'' : Nat}, 0 < depth'' →
          lexOver mode'' jump'' before 0 = (mode', jump') →
          (∀ suffix, Alike (c :: before) suffix → findDefineClose jump mode depth pos (c :: (before ++ suffix)) =
            findDefineClose jump'' mode'' depth'' (pos + 1) (before ++ suffix)) →
          (∃ close, close < pos + (c :: before).length ∧
            ∀ suffix, Alike (c :: before) suffix → findDefineClose jump mode depth pos (c :: before ++ suffix) = some close) ∨
          ∃ outer, ∀ suffix, Alike (c :: before) suffix → findDefineClose jump mode depth pos (c :: before ++ suffix) =
            findDefineClose jump' mode' (outer + 1) (pos + (c :: before).length) suffix := by
        intro mode'' jump'' depth'' hPositive hRest hNext
        rw [hLength]
        rcases ih hRest hPositive with ⟨close, hClose, hSame⟩ | ⟨outer, hSame⟩
        · exact .inl ⟨close, hClose, fun suffix hAlike => (hNext suffix hAlike).trans (hSame suffix hAlike.tail)⟩
        · exact .inr ⟨outer, fun suffix hAlike => (hNext suffix hAlike).trans (hSame suffix hAlike.tail)⟩
      cases jump with
      | true => exact hContinue hDepth hLex fun suffix _ => by rw [findDefineClose]
      | false =>
          simp only [lexOver] at hLex
          split at hLex
          next hStep =>
            exact hContinue hDepth hLex fun suffix hAlike => by
              simp only [findDefineClose, hAlike.lexStep_eq, hStep]
          next hStep =>
            have hCode : ∀ suffix, Alike (c :: before) suffix → findDefineClose false mode depth pos (c :: (before ++ suffix)) =
                if c = ascii '(' then findDefineClose false mode (depth + 1) (pos + 1) (before ++ suffix)
                else if c = ascii ')' then
                  if depth = 1 then some pos else findDefineClose false mode (depth - 1) (pos + 1) (before ++ suffix)
                else findDefineClose false mode depth (pos + 1) (before ++ suffix) := fun suffix hAlike => by
              simp only [findDefineClose, hAlike.lexStep_eq, hStep]
            split_ifs at hCode with hOpen hClose hOne
            · exact hContinue (by omega) hLex hCode
            · exact .inl ⟨pos, by omega, hCode⟩
            · exact hContinue (by omega) hLex hCode
            · exact hContinue hDepth hLex hCode

/-! ## The main loop -/

/-- The bodies of the calls that the main loop finds. -/
def bodies (jump : Nat) (prev : Option UInt8) (mode : LexMode) (text : Bytes) : List Bytes :=
  (scan jump 0 prev { mode } text).map PhpDefineCall.body

theorem foundCall_word {st : ScanState} {i : Nat} {prev : Option UInt8} {text : Bytes} {call : PhpDefineCall}
    (h : foundCall st i prev text = some call) : text.takeWhile isIdentifierChar = bytes "define" := by
  simp only [foundCall] at h
  split_ifs at h with hWord
  simp only [Bool.and_eq_true, beq_iff_eq] at hWord
  exact hWord.2.2

theorem foundCall_eq_none {st : ScanState} {i : Nat} {prev : Option UInt8} {c : UInt8} (h : c ≠ ascii 'd') (rest : Bytes) :
    foundCall st i prev (c :: rest) = none := by
  rw [Option.eq_none_iff_forall_ne_some]
  intro call hCall
  have hHead := congrArg List.head? (foundCall_word hCall)
  by_cases hChar : isIdentifierChar c = true
  · rw [List.takeWhile_cons_of_pos hChar] at hHead
    exact h (Option.some.inj hHead)
  · rw [List.takeWhile_cons_of_neg hChar] at hHead
    cases hHead

/-- Where a call is found does not depend on its position and on the conditions around it. -/
theorem defineCallAt_body (st st' : ScanState) (i k : Nat) (text : Bytes) :
    (defineCallAt st (i + k) text).map (fun call => (call.bodyStart, call.closeParen, call.body)) =
      (defineCallAt st' i text).map (fun call => (call.bodyStart + k, call.closeParen + k, call.body)) := by
  simp only [defineCallAt]
  split
  · rfl
  next c inside hInside =>
    split
    · have hMove : ∀ n m : Nat, i + k + n + m + 1 = i + n + m + 1 + k := fun n m => by omega
      rw [hMove, findDefineClose_move]
      cases findDefineClose false .code 1 _ inside with
      | none => rfl
      | some close =>
          simp only [Option.map_some, Option.some.injEq, Prod.mk.injEq, true_and]
          congr 1
          omega
    · rfl

theorem foundCall_body (st st' : ScanState) (i k : Nat) (prev : Option UInt8) (text : Bytes) :
    (foundCall st (i + k) prev text).map (fun call => (call.bodyStart, call.closeParen, call.body)) =
      (foundCall st' i prev text).map (fun call => (call.bodyStart + k, call.closeParen + k, call.body)) := by
  simp only [foundCall]
  split
  · exact defineCallAt_body st st' i k text
  · rfl

theorem scan_bodies (jump i : Nat) (prev : Option UInt8) (st : ScanState) (text : Bytes) :
    (scan jump i prev st text).map PhpDefineCall.body = bodies jump prev st.mode text := by
  have hAny : ∀ (i i' : Nat) (st st' : ScanState), st.mode = st'.mode →
      (scan jump i prev st text).map PhpDefineCall.body = (scan jump i' prev st' text).map PhpDefineCall.body := by
    induction text generalizing jump prev with
    | nil => intro i i' st st' _; cases jump <;> rfl
    | cons c rest ih =>
        intro i i' st st' hMode
        cases jump with
        | succ n => exact ih n _ _ _ _ _ hMode
        | zero =>
            cases hStep : lexStep st.mode c (rest.headD 0) with
            | some step =>
                have hStep' : lexStep st'.mode c (rest.headD 0) = some step := by rw [← hMode, hStep]
                simp only [scan, hStep, hStep']
                exact ih _ _ _ _ _ _ rfl
            | none =>
                have hStep' : lexStep st'.mode c (rest.headD 0) = none := by rw [← hMode, hStep]
                rw [scan_code hStep, scan_code hStep']
                have hFirst := foundCall_body st st 0 i prev (c :: rest)
                have hSecond := foundCall_body st' st 0 i' prev (c :: rest)
                rw [Nat.zero_add] at hFirst hSecond
                cases hFound : foundCall st 0 prev (c :: rest) with
                | none =>
                    simp only [hFound, Option.map_none, Option.map_eq_none_iff] at hFirst hSecond
                    rw [hFirst, hSecond]
                    exact ih _ _ _ _ _ _ (by rw [stateAfter_mode, stateAfter_mode, hMode])
                | some call =>
                    simp only [hFound, Option.map_some, Option.map_eq_some_iff, Prod.mk.injEq] at hFirst hSecond
                    obtain ⟨first, hFirst, -, hClose, hBody⟩ := hFirst
                    obtain ⟨second, hSecond, -, hClose', hBody'⟩ := hSecond
                    rw [hFirst, hSecond]
                    simp only [List.map_cons, hBody, hBody', hClose, hClose', Nat.add_sub_cancel_right]
                    rw [ih _ _ (i + 1) (i' + 1) st st' hMode]
  exact hAny i 0 st { mode := st.mode } rfl

section Bodies

variable {mode mode' : LexMode} {c : UInt8} {rest : Bytes} (prev : Option UInt8)

theorem bodies_jump (n : Nat) (mode : LexMode) (c : UInt8) (rest : Bytes) :
    bodies (n + 1) prev mode (c :: rest) = bodies n (some c) mode rest := by
  rw [bodies, scan, scan_bodies]

theorem bodies_passed (passed : Bytes) (k : Nat) (mode : LexMode) (text : Bytes) :
    bodies (passed.length + k) prev mode (passed ++ text) = bodies k (passed.getLast?.or prev) mode text := by
  induction passed generalizing prev with
  | nil => rw [List.length_nil, Nat.zero_add]; rfl
  | cons c rest ih =>
      rw [List.length_cons, Nat.add_right_comm, List.cons_append, bodies_jump, ih]
      cases h : rest.getLast? with
      | none => rw [List.getLast?_eq_none_iff.mp h]; rfl
      | some last => rw [List.getLast?_cons, h]; rfl

theorem bodies_step {jump : Bool} (h : lexStep mode c (rest.headD 0) = some (mode', jump)) :
    bodies 0 prev mode (c :: rest) = bodies jump.toNat (some c) mode' rest := by
  rw [bodies]
  simp only [scan, h]
  exact scan_bodies _ _ _ _ _

theorem bodies_word (h : lexStep .code c (rest.headD 0) = none) (hFound : foundCall {} 0 prev (c :: rest) = none) :
    bodies 0 prev .code (c :: rest) =
      bodies (wordJump c ((c :: rest).takeWhile isIdentifierChar)) (some c) .code rest := by
  rw [bodies, scan_code h, hFound]
  simp only [scan_bodies, stateAfter_mode]

theorem bodies_call {call : PhpDefineCall} (h : lexStep .code c (rest.headD 0) = none)
    (hFound : foundCall {} 0 prev (c :: rest) = some call) :
    bodies 0 prev .code (c :: rest) = call.body :: bodies call.closeParen (some c) .code rest := by
  rw [bodies, scan_code h, hFound]
  simp only [List.map_cons, scan_bodies, Nat.sub_zero]

/-- The byte before matters to the word `define` only. -/
theorem bodies_prev (h : c ≠ ascii 'd') (prev prev' : Option UInt8) (mode : LexMode) (rest : Bytes) :
    bodies 0 prev mode (c :: rest) = bodies 0 prev' mode (c :: rest) := by
  cases hStep : lexStep mode c (rest.headD 0) with
  | some step => rw [bodies_step prev hStep, bodies_step prev' hStep]
  | none =>
      obtain rfl := lexStep_eq_none hStep
      rw [bodies_word prev hStep (foundCall_eq_none h rest), bodies_word prev' hStep (foundCall_eq_none h rest)]

end Bodies

/-! ## Behind the place -/

theorem offset_lt_bodyStart {jump i : Nat} {prev : Option UInt8} {st : ScanState} {text : Bytes} {call : PhpDefineCall}
    (h : call ∈ scan jump i prev st text) : call.offset < call.bodyStart := by
  induction text generalizing jump i prev st with
  | nil => cases jump <;> simp [scan] at h
  | cons c rest ih =>
      cases jump with
      | succ n => exact ih h
      | zero =>
          cases hStep : lexStep st.mode c (rest.headD 0) with
          | some step =>
              simp only [scan, hStep] at h
              exact ih h
          | none =>
              rw [scan_code hStep] at h
              split at h
              next found hFound =>
                rcases List.mem_cons.mp h with rfl | h
                · have hDefine := foundCall_eq_some hFound
                  simp only [defineCallAt] at hDefine
                  split at hDefine
                  · cases hDefine
                  · split_ifs at hDefine
                    split at hDefine
                    · rw [← Option.some.inj hDefine]
                      simp only
                      omega
                    · cases hDefine
                · exact ih h
              next => exact ih h

/-- No call that is found from the place on holds it. -/
theorem map_insertedBody_scan {pos i : Nat} (h : pos ≤ i) (jump : Nat) (prev : Option UInt8) (st : ScanState)
    (ins text : Bytes) :
    (scan jump i prev st text).map (insertedBody pos ins) = bodies jump prev st.mode text := by
  rw [← scan_bodies jump i]
  refine List.map_congr_left fun call hCall => ?_
  obtain ⟨-, -, -, -, -, -, hOffset, -, -⟩ := scan_spec hCall
  have hStart := offset_lt_bodyStart hCall
  rw [insertedBody, if_neg (by omega)]

theorem bodies_idle {rest : Bytes} (h : Idle rest) (prev prev' : Option UInt8) (mode : LexMode) :
    bodies 0 prev mode rest = bodies 0 prev' mode rest := by
  cases rest with
  | nil => rfl
  | cons c rest =>
      refine bodies_prev ?_ prev prev' mode rest
      rcases h c rfl with rfl | rfl <;> decide

/-- A place behind an escape in a string is as good as one without it. -/
theorem bodies_pending {mode : LexMode} (hMode : mode = .single ∨ mode = .double) {c : UInt8}
    (h : c ≠ ascii '\\' ∧ c ≠ ascii '\'' ∧ c ≠ ascii '"') (prev : Option UInt8) (rest : Bytes) :
    bodies 1 prev mode (c :: rest) = bodies 0 prev mode (c :: rest) := by
  have hStep : lexStep mode c (rest.headD 0) = some (mode, false) := by
    obtain rfl | rfl := hMode <;> simp only [lexStep, h, if_false]
  rw [bodies_jump, bodies_step prev hStep]
  rfl

theorem findDefineClose_pending {mode : LexMode} (hMode : mode = .single ∨ mode = .double) {c : UInt8}
    (h : c ≠ ascii '\\' ∧ c ≠ ascii '\'' ∧ c ≠ ascii '"') (depth pos : Nat) (rest : Bytes) :
    findDefineClose true mode depth pos (c :: rest) = findDefineClose false mode depth pos (c :: rest) := by
  have hStep : lexStep mode c (rest.headD 0) = some (mode, false) := by
    obtain rfl | rfl := hMode <;> simp only [lexStep, h, if_false]
  simp only [findDefineClose, hStep]

/-- Where the main loop is at the end of a stretch, when it has still `jump` bytes to pass over
at its start. -/
def Reaches (jump : Nat) (mode : LexMode) (before : Bytes) (mode' : LexMode) (pending : Bool) : Prop :=
  (jump ≤ before.length ∧ lexOver mode false (before.drop jump) 0 = (mode', pending)) ∨
    jump = before.length + 1 ∧ mode = mode' ∧ pending = true

theorem reaches_of_lexOver {mode mode' : LexMode} {jump pending : Bool} {before : Bytes}
    (h : lexOver mode jump before 0 = (mode', pending)) : Reaches jump.toNat mode before mode' pending := by
  cases jump with
  | false => exact .inl ⟨Nat.zero_le _, h⟩
  | true =>
      cases before with
      | nil =>
          obtain ⟨rfl, rfl⟩ := Prod.mk.inj h
          exact .inr ⟨rfl, rfl, rfl⟩
      | cons c before => exact .inl ⟨by simp, h⟩

theorem Reaches.tail {n : Nat} {mode mode' : LexMode} {c : UInt8} {before : Bytes} {pending : Bool}
    (h : Reaches (n + 1) mode (c :: before) mode' pending) : Reaches n mode before mode' pending := by
  rcases h with ⟨hLe, hLex⟩ | ⟨hEq, hMode, hPending⟩
  · exact .inl ⟨Nat.le_of_succ_le_succ hLe, hLex⟩
  · exact .inr ⟨Nat.succ.inj hEq, hMode, hPending⟩

theorem takeWhile_append_of_not_all {p : UInt8 → Bool} {front : Bytes} (h : ¬∀ c ∈ front, p c = true) (rest : Bytes) :
    (front ++ rest).takeWhile p = front.takeWhile p := by
  induction front with
  | nil => exact absurd (fun _ hc => absurd hc List.not_mem_nil) h
  | cons c front ih =>
      by_cases hc : p c = true
      · have hRest : ¬∀ d ∈ front, p d = true := fun hAll => h (List.forall_mem_cons.mpr ⟨hc, hAll⟩)
        rw [List.cons_append, List.takeWhile_cons_of_pos hc, List.takeWhile_cons_of_pos hc, ih hRest]
      · rw [List.cons_append, List.takeWhile_cons_of_neg hc, List.takeWhile_cons_of_neg hc]

/-- A text without calls that ends with its line is passed over. -/
theorem bodies_quiet {text rest : Bytes} (hDefine : ascii 'd' ∉ text) (hEnds : ∀ c ∈ text.getLast?, c = newline)
    (hIdle : Idle rest) {jump : Nat} {mode mode' : LexMode} (hReaches : Reaches jump mode text mode' false)
    (prev prev' : Option UInt8) : bodies jump prev mode (text ++ rest) = bodies 0 prev' mode' rest := by
  induction text generalizing jump mode prev with
  | nil =>
      rcases hReaches with ⟨hLe, hLex⟩ | ⟨-, -, hPending⟩
      · obtain rfl : jump = 0 := by simpa using hLe
        obtain ⟨rfl, -⟩ := Prod.mk.inj hLex
        exact bodies_idle hIdle _ _ _
      · cases hPending
  | cons c text ih =>
      have hText : ascii 'd' ∉ text := fun h => hDefine (List.mem_cons_of_mem _ h)
      have hLast : ∀ d ∈ text.getLast?, d = newline := by
        intro d hd
        cases text with
        | nil => cases hd
        | cons e text => exact hEnds d (by rwa [List.getLast?_cons_cons])
      cases jump with
      | succ n =>
          rw [List.cons_append, bodies_jump]
          exact ih hText hLast hReaches.tail _
      | zero =>
          have hAlike : Alike (c :: text) rest := by
            intro d hd m
            rw [hEnds d hd, lexStep_newline]
          rcases hReaches with ⟨-, hLex⟩ | ⟨hEq, -, -⟩
          · rw [List.drop_zero] at hLex
            have hHead := hAlike.lexStep_eq mode
            cases hStep : lexStep mode c (text.headD 0) with
            | some step =>
                obtain ⟨mode'', jump⟩ := step
                simp only [lexOver, hStep] at hLex
                rw [List.cons_append, bodies_step prev (hHead.trans hStep)]
                exact ih hText hLast (reaches_of_lexOver hLex) _
            | none =>
                obtain rfl := lexStep_eq_none hStep
                have hOther : c ≠ ascii 'd' := fun h => hDefine (h ▸ List.mem_cons_self)
                have hNewline : newline ∈ c :: text := by
                  obtain ⟨d, hd⟩ := Option.ne_none_iff_exists'.mp (List.getLast?_eq_none_iff.not.mpr (List.cons_ne_nil c text))
                  rw [← hEnds d hd]
                  exact List.mem_of_getLast? hd
                have hToken : (c :: (text ++ rest)).takeWhile isIdentifierChar = (c :: text).takeWhile isIdentifierChar :=
                  takeWhile_append_of_not_all
                    (fun hAll => absurd (hAll newline hNewline) (by decide)) rest
                rw [List.cons_append, bodies_word prev (hHead.trans hStep) (foundCall_eq_none hOther _), hToken]
                refine ih hText hLast (.inl ⟨wordJump_le c text, ?_⟩) _
                have hWord := lexOver_word hStep (List.append_nil text).symm rfl (wordJump_le c text)
                exact hWord.symm.trans hLex
          · cases hEq

/-! ## In front of the place -/

/-- A text that opens no argument list. -/
def OpensNone (suffix : Bytes) : Prop := (suffix.dropWhile isSpace).head? ≠ some (ascii '(')

theorem Idle.opensNone {rest : Bytes} (h : Idle rest) : OpensNone rest := by
  cases rest with
  | nil => simp [OpensNone]
  | cons c rest =>
      have hc : isSpace c = false ∧ c ≠ ascii '(' := by rcases h c rfl with rfl | rfl <;> decide
      rw [OpensNone, List.dropWhile_cons_of_neg (by simp [hc.1])]
      simpa using hc.2

/-- The word `define` at the front of a text that holds more than a word: no call for any suffix,
the same call for any suffix, or one that ends in the suffix. -/
theorem defineCallAt_front {before : Bytes} {mode : LexMode} {pending : Bool}
    (hLex : lexOver .code false before 0 = (mode, pending)) (hWord : ¬∀ c ∈ before, isIdentifierChar c = true) :
    (∀ suffix, Alike before suffix → OpensNone suffix → defineCallAt {} 0 (before ++ suffix) = none) ∨
    (∃ call, call.closeParen < before.length ∧
      ∀ suffix, Alike before suffix → OpensNone suffix → defineCallAt {} 0 (before ++ suffix) = some call) ∨
    ∃ lead inside outer, before = lead ++ inside ∧
      ∀ suffix, Alike before suffix → OpensNone suffix → defineCallAt {} 0 (before ++ suffix) =
        (findDefineClose pending mode (outer + 1) before.length suffix).map fun close =>
          { offset := 0
            bodyStart := lead.length
            closeParen := close
            body := (inside ++ suffix).take (close - lead.length)
            conditional := false } := by
  obtain ⟨token, hToken⟩ : ∃ token, token = before.takeWhile isIdentifierChar := ⟨_, rfl⟩
  obtain ⟨behind, hBehind⟩ : ∃ behind, behind = before.dropWhile isIdentifierChar := ⟨_, rfl⟩
  have hBefore : before = token ++ behind := by rw [hToken, hBehind, List.takeWhile_append_dropWhile]
  obtain ⟨stop, more, hStop⟩ : ∃ stop more, behind = stop :: more := by
    refine List.exists_cons_of_ne_nil fun hNil => hWord ?_
    rw [hBehind, List.dropWhile_eq_nil_iff] at hNil
    exact hNil
  have hTokenOf : ∀ suffix, (before ++ suffix).takeWhile isIdentifierChar = token := fun suffix =>
    (takeWhile_append_of_not_all hWord suffix).trans hToken.symm
  have hBehindOf : ∀ suffix, (before ++ suffix).dropWhile isIdentifierChar = behind ++ suffix := by
    intro suffix
    have hSplit := List.takeWhile_append_dropWhile (p := isIdentifierChar) (l := before ++ suffix)
    rw [hTokenOf] at hSplit
    rw [← List.append_cancel_left_eq token, hSplit, hBefore, List.append_assoc]
  obtain ⟨spaces, hSpaces⟩ : ∃ spaces, spaces = behind.takeWhile isSpace := ⟨_, rfl⟩
  cases hTail : behind.dropWhile isSpace with
  | nil =>
      refine .inl fun suffix _ hOpens => ?_
      have hAll : ∀ c ∈ behind, isSpace c = true := List.dropWhile_eq_nil_iff.mp hTail
      have hDrop : (behind ++ suffix).dropWhile isSpace = suffix.dropWhile isSpace := by
        rw [List.dropWhile_append, hTail]
        rfl
      simp only [defineCallAt, hBehindOf, hDrop]
      split
      · rfl
      next c inside hInside =>
        rw [OpensNone, hInside] at hOpens
        exact if_neg fun h => hOpens (by rw [h]; rfl)
  | cons c inside =>
      have hDrop : ∀ suffix, (behind ++ suffix).dropWhile isSpace = c :: (inside ++ suffix) := by
        intro suffix
        rw [List.dropWhile_append, hTail]
        rfl
      have hBlank : ∀ suffix, (behind ++ suffix).takeWhile isSpace = spaces := by
        intro suffix
        refine (takeWhile_append_of_not_all (fun hAll => ?_) suffix).trans hSpaces.symm
        rw [List.dropWhile_eq_nil_iff.mpr hAll] at hTail
        cases hTail
      by_cases hOpen : c = ascii '('
      · subst hOpen
        have hSplit : before = token ++ (spaces ++ [ascii '(']) ++ inside := by
          have hOwn := List.takeWhile_append_dropWhile (p := isSpace) (l := behind)
          rw [hTail, ← hSpaces] at hOwn
          rw [hBefore, ← hOwn]
          simp
        have hInside : lexOver .code false inside 0 = (mode, pending) := by
          rw [hSplit, List.append_assoc, lexOver_plainCode_append (fun d hd => ?_), List.append_assoc,
            lexOver_plainCode_append (fun d hd => ?_)] at hLex
          · exact hLex
          · exact plainCode_of_isSpace (List.mem_takeWhile_imp (hSpaces ▸ hd))
          · exact plainCode_of_isIdentifierChar (List.mem_takeWhile_imp (hToken ▸ hd))
        have hLead : (token ++ (spaces ++ [ascii '('])).length = 0 + token.length + spaces.length + 1 := by
          simp only [List.length_append, List.length_singleton]; omega
        have hLength : 0 + token.length + spaces.length + 1 + inside.length = before.length := by
          rw [hSplit, List.length_append, hLead]
        have hAlike : ∀ suffix, Alike before suffix → Alike inside suffix := by
          intro suffix h
          rw [hSplit] at h
          have hDropped := h.drop (token ++ (spaces ++ [ascii '('])).length
          rwa [List.drop_left] at hDropped
        rcases @findDefineClose_front _ _ _ _ _ (0 + token.length + spaces.length + 1) _ hInside Nat.one_pos with
          ⟨close, hClose, hSame⟩ | ⟨outer, hSame⟩
        · refine .inr (.inl ⟨⟨0, 0 + token.length + spaces.length + 1, close,
            inside.take (close - (0 + token.length + spaces.length) - 1), false⟩, ?_, fun suffix h _ => ?_⟩)
          · rw [← hLength]; exact hClose
          · have hTake : (inside ++ suffix).take (close - (0 + token.length + spaces.length) - 1) =
                inside.take (close - (0 + token.length + spaces.length) - 1) :=
              List.take_append_of_le_length (by omega)
            simp only [defineCallAt, hBehindOf, hDrop, hTokenOf, hBlank, if_true, hSame suffix (hAlike suffix h), hTake]
            rfl
        · refine .inr (.inr ⟨token ++ (spaces ++ [ascii '(']), inside, outer, hSplit, fun suffix h _ => ?_⟩)
          simp only [defineCallAt, hBehindOf, hDrop, hTokenOf, hBlank, if_true, hSame suffix (hAlike suffix h), hLength, hLead]
          cases findDefineClose pending mode (outer + 1) before.length suffix with
          | none => rfl
          | some close => rfl
      · exact .inl fun suffix _ _ => by simp only [defineCallAt, hBehindOf, hDrop, hOpen, if_false]

/-! ## The insertion -/

section Insert

variable {ins rest : Bytes} {mode : LexMode} {pending : Bool}

/-- At the place, the inserted text is passed over. -/
theorem bodies_passive (hPassive : Passive mode ins) (hIdle : Idle rest)
    (hPending : pending = true → mode = .single ∨ mode = .double) (prev : Option UInt8) :
    bodies pending.toNat prev mode (ins ++ rest) = bodies pending.toNat prev mode rest := by
  have hEnds : ∀ c ∈ ins.getLast?, c = newline := fun c hc => by
    rw [hPassive.ends] at hc
    exact (Option.some.inj hc).symm
  have hQuiet : bodies 0 prev mode (ins ++ rest) = bodies 0 prev mode rest :=
    bodies_quiet hPassive.noDefine hEnds hIdle (.inl ⟨Nat.zero_le _, nestOver_lexOver hPassive.nest⟩) prev prev
  cases pending with
  | false => exact hQuiet
  | true =>
      have hMode := hPending rfl
      have hHead := hPassive.plain (by obtain rfl | rfl := hMode <;> decide)
      obtain ⟨more, rfl⟩ : ∃ more, ins = newline :: more := by
        cases ins with
        | nil => cases hHead
        | cons c more => exact ⟨more, by rw [Option.some.inj hHead]⟩
      have hFirst := bodies_pending hMode (c := newline) (by decide) prev (more ++ rest)
      refine hFirst.trans (hQuiet.trans ?_)
      cases rest with
      | nil => rfl
      | cons c rest =>
          refine (bodies_pending hMode ?_ prev rest).symm
          rcases hIdle c rfl with rfl | rfl <;> decide

/-- The closing parenthesis stands as far behind the inserted text as it stood behind the place. -/
theorem findDefineClose_passive (hPassive : Passive mode ins) (hIdle : Idle rest)
    (hPending : pending = true → mode = .single ∨ mode = .double) (outer pos : Nat) :
    findDefineClose pending mode (outer + 1) pos (ins ++ rest) =
      (findDefineClose pending mode (outer + 1) pos rest).map (· + ins.length) := by
  have hAlike : Alike ins rest := by
    intro c hc m
    rw [hPassive.ends] at hc
    rw [← Option.some.inj hc, lexStep_newline]
  have hNest := findDefineClose_nestOver hPassive.nest hAlike outer pos
  rw [Nat.zero_add, findDefineClose_move] at hNest
  cases pending with
  | false => exact hNest
  | true =>
      have hMode := hPending rfl
      have hHead := hPassive.plain (by obtain rfl | rfl := hMode <;> decide)
      obtain ⟨more, rfl⟩ : ∃ more, ins = newline :: more := by
        cases ins with
        | nil => cases hHead
        | cons c more => exact ⟨more, by rw [Option.some.inj hHead]⟩
      have hFirst := findDefineClose_pending hMode (c := newline) (by decide) (outer + 1) pos (more ++ rest)
      refine hFirst.trans (hNest.trans ?_)
      cases rest with
      | nil => rfl
      | cons c rest =>
          have hPlain : c ≠ ascii '\\' ∧ c ≠ ascii '\'' ∧ c ≠ ascii '"' := by
            rcases hIdle c rfl with rfl | rfl <;> decide
          rw [findDefineClose_pending hMode hPlain]

/-- A word that reaches the place is no call, and the loop goes on behind it as it would at the
place. -/
theorem bodies_rest_word (hIdle : Idle rest) (prev : Option UInt8) :
    bodies (rest.takeWhile isIdentifierChar).length prev .code rest = bodies 0 prev .code rest := by
  cases rest with
  | nil => rfl
  | cons c rest =>
      have hStep : lexStep .code c (rest.headD 0) = none := by
        refine lexStep_plainCode ?_ _
        rcases hIdle c rfl with rfl | rfl <;> decide
      have hOther : c ≠ ascii 'd' := by rcases hIdle c rfl with rfl | rfl <;> decide
      rw [bodies_word prev hStep (foundCall_eq_none hOther rest)]
      by_cases hChar : isIdentifierChar c = true
      · have hWord : startsWord c = true := by
          rcases hIdle c rfl with rfl | rfl
          · cases hChar
          · decide
        rw [wordJump, if_pos hWord, List.takeWhile_cons_of_pos hChar, List.length_cons, Nat.add_sub_cancel, bodies_jump]
      · have hWord : ¬startsWord c = true := by
          rcases hIdle c rfl with rfl | rfl
          · decide
          · exact absurd (by decide) hChar
        rw [wordJump, if_neg hWord, List.takeWhile_cons_of_neg hChar, List.length_nil,
          bodies_word prev hStep (foundCall_eq_none hOther rest), wordJump, if_neg hWord]

/-- Where a word that starts with `c` reaches the place, no call is found there. -/
theorem foundCall_front {c : UInt8} {before suffix : Bytes} (hWord : ∀ d ∈ c :: before, isIdentifierChar d = true)
    (hOpens : OpensNone suffix)
    (hSuffix : suffix.head?.any isIdentifierChar = true → ascii 'r' ∈ suffix.takeWhile isIdentifierChar)
    (st : ScanState) (i : Nat) (prev : Option UInt8) : foundCall st i prev (c :: before ++ suffix) = none := by
  rw [Option.eq_none_iff_forall_ne_some]
  intro call hCall
  have hToken := foundCall_word hCall
  rw [List.takeWhile_append_of_pos hWord] at hToken
  have hNone : suffix.takeWhile isIdentifierChar = [] := by
    cases suffix with
    | nil => rfl
    | cons d suffix =>
        refine List.takeWhile_cons_of_neg fun hChar => ?_
        have hMem : ascii 'r' ∈ bytes "define" := hToken ▸ List.mem_append_right _ (hSuffix hChar)
        exact absurd hMem (by decide)
  have hDrop : (c :: before ++ suffix).dropWhile isIdentifierChar = suffix := by
    have hSplit := List.takeWhile_append_dropWhile (p := isIdentifierChar) (l := c :: before ++ suffix)
    rw [List.takeWhile_append_of_pos hWord, hNone, List.append_nil] at hSplit
    exact List.append_cancel_left hSplit
  have hDefine := foundCall_eq_some hCall
  simp only [defineCallAt, hDrop] at hDefine
  split at hDefine
  · cases hDefine
  next d inside hInside =>
    split_ifs at hDefine with hOpen
    rw [OpensNone, hInside, hOpen] at hOpens
    exact hOpens rfl

theorem Idle.word (hIdle : Idle rest) (h : rest.head?.any isIdentifierChar = true) :
    ascii 'r' ∈ rest.takeWhile isIdentifierChar := by
  cases rest with
  | nil => cases h
  | cons c rest =>
      have hChar : isIdentifierChar c = true := h
      rcases hIdle c rfl with rfl | rfl
      · cases hChar
      · rw [List.takeWhile_cons_of_pos hChar]
        exact List.mem_cons_self

theorem not_isSpace_of_isIdentifierChar {c : UInt8} (h : isIdentifierChar c = true) : isSpace c = false := by
  have hAll : ∀ n : Fin 256, isIdentifierChar (UInt8.ofFin n) = true → isSpace (UInt8.ofFin n) = false := by
    decide +kernel
  exact hAll c.toFin h

theorem Passive.ne_nil (hPassive : Passive mode ins) : ins ≠ [] := by
  rintro rfl
  cases hPassive.ends

theorem Passive.opensNone (hPassive : Passive mode ins) (rest : Bytes) : OpensNone (ins ++ rest) := by
  have hStart := hPassive.start
  rw [OpensNone, List.dropWhile_append]
  cases h : ins.dropWhile isSpace with
  | nil => rw [h] at hStart; cases hStart
  | cons c more =>
      rw [h] at hStart
      simp only [List.isEmpty_cons, Bool.false_eq_true, if_false, List.cons_append, List.head?_cons]
      rw [Option.some.inj hStart]
      decide

theorem Passive.head (hPassive : Passive mode ins) (rest : Bytes) : (ins ++ rest).head?.any isIdentifierChar = false := by
  have hStart := hPassive.start
  cases ins with
  | nil => cases hStart
  | cons c more =>
      rw [List.cons_append, List.head?_cons, Option.any_some]
      by_contra hChar
      rw [Bool.not_eq_false] at hChar
      rw [List.dropWhile_cons_of_neg (by simp [not_isSpace_of_isIdentifierChar hChar]), List.head?_cons] at hStart
      rw [Option.some.inj hStart] at hChar
      exact absurd hChar (by decide)

theorem Passive.alike (hPassive : Passive mode ins) {front : Bytes} (h : Alike front ins) (rest : Bytes) :
    Alike front (ins ++ rest) := by
  intro c hc m
  obtain ⟨d, more, rfl⟩ := List.exists_cons_of_ne_nil hPassive.ne_nil
  exact h c hc m

/-- A word that reaches the place: both loops are behind it at the place, in code. -/
theorem bodies_insert_word (hPassive : Passive mode ins) (hIdle : Idle rest) {i : Nat} {prev : Option UInt8}
    {st : ScanState} {c : UInt8} {before : Bytes} (hAlike : Alike (c :: before) ins) (hMode : st.mode = .code)
    (hLex : lexOver .code false (c :: before) 0 = (mode, pending))
    (hWord : ∀ d ∈ c :: before, isIdentifierChar d = true) (hStart : startsWord c = true) :
    bodies 0 prev .code (c :: before ++ (ins ++ rest)) =
      (scan 0 i prev st (c :: before ++ rest)).map (insertedBody (i + (c :: before).length) ins) := by
  have hCode : (mode, pending) = (LexMode.code, false) := by
    rw [← hLex, lexOver_plainCode fun d hd => plainCode_of_isIdentifierChar (hWord d hd)]
  obtain ⟨rfl, rfl⟩ := Prod.mk.inj hCode
  have hStep : lexStep .code c (before.headD 0) = none :=
    lexStep_plainCode (plainCode_of_isIdentifierChar (hWord c List.mem_cons_self)) _
  have hNew := ((hPassive.alike hAlike rest).lexStep_eq .code).trans hStep
  have hOld : lexStep st.mode c ((before ++ rest).headD 0) = none := by
    rw [hMode]
    exact ((hIdle.alike (c :: before)).lexStep_eq .code).trans hStep
  have hNewNone : foundCall {} 0 prev (c :: (before ++ (ins ++ rest))) = none :=
    foundCall_front hWord (hPassive.opensNone rest) (fun h => by rw [hPassive.head rest] at h; cases h) {} 0 prev
  have hOldNone : foundCall st i prev (c :: (before ++ rest)) = none :=
    foundCall_front hWord hIdle.opensNone hIdle.word st i prev
  have hNewToken : (c :: (before ++ (ins ++ rest))).takeWhile isIdentifierChar = c :: before := by
    have hHead := hPassive.head rest
    rw [← List.cons_append, List.takeWhile_append_of_pos hWord]
    cases hText : ins ++ rest with
    | nil => exact List.append_nil _
    | cons d more =>
        rw [hText, List.head?_cons, Option.any_some] at hHead
        rw [List.takeWhile_cons_of_neg (by simp [hHead]), List.append_nil]
  have hOldToken : (c :: (before ++ rest)).takeWhile isIdentifierChar = c :: before ++ rest.takeWhile isIdentifierChar := by
    rw [← List.cons_append, List.takeWhile_append_of_pos hWord]
  rw [List.cons_append, List.cons_append, bodies_word prev hNew hNewNone, scan_code hOld, hOldNone, hNewToken, hOldToken]
  simp only [wordJump, hStart, if_true, List.length_cons, List.length_append, Nat.add_sub_cancel, List.cons_append]
  have hPassed := bodies_passed (some c) before 0 .code (ins ++ rest)
  have hBehind := scan_passed before (rest.takeWhile isIdentifierChar).length (i + 1) (some c)
    (stateAfter st prev c (c :: (before ++ rest.takeWhile isIdentifierChar))) rest
  rw [Nat.add_zero] at hPassed
  rw [hPassed, hBehind, map_insertedBody_scan (by omega), stateAfter_mode, hMode, bodies_rest_word hIdle]
  exact @bodies_passive _ _ _ false hPassive hIdle (fun h => by cases h) _

/-- A byte of code in front of the place, whose word ends there: `hLater` is the rest of the loop. -/
theorem bodies_insert_code (hPassive : Passive mode ins) (hIdle : Idle rest)
    (hPending : pending = true → mode = .single ∨ mode = .double) {i : Nat} {prev : Option UInt8}
    {st : ScanState} {c : UInt8} {before : Bytes} (hAlike : Alike (c :: before) ins) (hMode : st.mode = .code)
    (hLex : lexOver .code false (c :: before) 0 = (mode, pending)) (hStep : lexStep .code c (before.headD 0) = none)
    (hWord : ¬∀ d ∈ c :: before, isIdentifierChar d = true)
    (hLater : ∀ jump st', st'.mode = .code → Reaches jump .code before mode pending →
      bodies jump (some c) .code (before ++ (ins ++ rest)) =
        (scan jump (i + 1) (some c) st' (before ++ rest)).map (insertedBody (i + 1 + before.length) ins)) :
    bodies 0 prev .code (c :: before ++ (ins ++ rest)) =
      (scan 0 i prev st (c :: before ++ rest)).map (insertedBody (i + (c :: before).length) ins) := by
  have hLength : i + (c :: before).length = i + 1 + before.length := by
    simp only [List.length_cons]; omega
  have hNewAlike := hPassive.alike hAlike rest
  have hOldAlike := hIdle.alike (c :: before)
  have hNew := (hNewAlike.lexStep_eq .code).trans hStep
  have hOld : lexStep st.mode c ((before ++ rest).headD 0) = none := by
    rw [hMode]
    exact (hOldAlike.lexStep_eq .code).trans hStep
  have hToken : ∀ suffix : Bytes, (c :: (before ++ suffix)).takeWhile isIdentifierChar = (c :: before).takeWhile isIdentifierChar :=
    fun suffix => takeWhile_append_of_not_all hWord suffix
  -- without a call, both loops move on by the same word
  have hNone : foundCall {} 0 prev (c :: (before ++ (ins ++ rest))) = none →
      foundCall {} 0 prev (c :: (before ++ rest)) = none →
      bodies 0 prev .code (c :: before ++ (ins ++ rest)) =
        (scan 0 i prev st (c :: before ++ rest)).map (insertedBody (i + (c :: before).length) ins) := by
    intro hNewNone hOldNone
    have hOldNone' : foundCall st i prev (c :: (before ++ rest)) = none := by
      have hBody := foundCall_body st {} 0 i prev (c :: (before ++ rest))
      rw [Nat.zero_add, hOldNone, Option.map_none, Option.map_eq_none_iff] at hBody
      exact hBody
    rw [List.cons_append, List.cons_append, bodies_word prev hNew hNewNone, scan_code hOld, hOldNone', hToken, hToken, hLength]
    refine hLater _ _ (by rw [stateAfter_mode, hMode]) (.inl ⟨wordJump_le c before, ?_⟩)
    have hPassed := lexOver_word hStep (List.append_nil before).symm rfl (wordJump_le c before)
    exact hPassed.symm.trans hLex
  by_cases hDefine : (startsWord c && (notVariable prev && (c :: before).takeWhile isIdentifierChar == bytes "define")) = true
  · have hFound : ∀ suffix : Bytes, foundCall {} 0 prev (c :: (before ++ suffix)) = defineCallAt {} 0 (c :: before ++ suffix) := by
      intro suffix
      simp only [foundCall, hToken, List.head?_cons, Option.any_some, if_pos hDefine]
      rfl
    have hCalls : ∀ {call : PhpDefineCall}, foundCall {} 0 prev (c :: (before ++ rest)) = some call →
        ∃ found, foundCall st i prev (c :: (before ++ rest)) = some found ∧
          found.bodyStart = call.bodyStart + i ∧ found.closeParen = call.closeParen + i ∧ found.body = call.body := by
      intro call hCall
      have hBody := foundCall_body st {} 0 i prev (c :: (before ++ rest))
      rw [Nat.zero_add, hCall, Option.map_some, Option.map_eq_some_iff] at hBody
      simpa only [Prod.mk.injEq] using hBody
    rcases defineCallAt_front hLex hWord with hNever | ⟨call, hClose, hSame⟩ | ⟨lead, inside, outer, hBefore, hSame⟩
    · exact hNone (by rw [hFound]; exact hNever _ hNewAlike (hPassive.opensNone rest))
        (by rw [hFound]; exact hNever _ hOldAlike hIdle.opensNone)
    · -- a call that ends in front of the place
      have hNewFound := (hFound _).trans (hSame _ hNewAlike (hPassive.opensNone rest))
      have hOldDefine := hSame _ hOldAlike hIdle.opensNone
      obtain ⟨found, hOldFound, -, hFoundClose, hFoundBody⟩ := hCalls ((hFound rest).trans hOldDefine)
      have hLe : call.closeParen ≤ before.length := Nat.le_of_lt_succ hClose
      rw [List.cons_append, List.cons_append, bodies_call prev hNew hNewFound, scan_code hOld, hOldFound, hLength]
      simp only [List.map_cons]
      rw [insertedBody, if_neg (by omega), hFoundBody, hFoundClose, Nat.add_sub_cancel]
      refine congrArg _ (hLater _ _ hMode (.inl ⟨hLe, ?_⟩))
      exact (lexOver_call hOldDefine rfl (by omega)).symm.trans hLex
    · -- a call around the place, if its parenthesis is closed
      have hNewClose := findDefineClose_passive hPassive hIdle hPending outer (c :: before).length
      have hNewDefine := hSame _ hNewAlike (hPassive.opensNone rest)
      have hOldDefine := hSame _ hOldAlike hIdle.opensNone
      cases hRest : findDefineClose pending mode (outer + 1) (c :: before).length rest with
      | none =>
          rw [hNewClose, hRest] at hNewDefine
          rw [hRest] at hOldDefine
          exact hNone ((hFound _).trans hNewDefine) ((hFound _).trans hOldDefine)
      | some close =>
          obtain ⟨tail, post, hTail, rfl, -⟩ := findDefineClose_spec hRest
          rw [hNewClose, hRest] at hNewDefine
          rw [hRest] at hOldDefine
          obtain ⟨found, hOldFound, hFoundStart, hFoundClose, hFoundBody⟩ := hCalls ((hFound rest).trans hOldDefine)
          have hCount : before.length + 1 = lead.length + inside.length := by
            rw [← List.length_cons, hBefore, List.length_append]
          simp only [List.length_cons] at hFoundStart hFoundClose hFoundBody hNewDefine ⊢
          have hOldBody : found.body = inside ++ tail := by
            rw [hFoundBody, hTail, ← List.append_assoc]
            exact List.take_left' (by rw [List.length_append]; omega)
          have hNewBody : (inside ++ (ins ++ rest)).take (before.length + 1 + tail.length + ins.length - lead.length) =
              inside ++ ins ++ tail := by
            have hSplit : inside ++ (ins ++ rest) = inside ++ ins ++ tail ++ ascii ')' :: post := by rw [hTail]; simp
            rw [hSplit]
            exact List.take_left' (by simp only [List.length_append]; omega)
          have hNewText : before ++ (ins ++ rest) = before ++ (ins ++ (tail ++ [ascii ')'])) ++ post := by rw [hTail]; simp
          have hOldText : before ++ rest = before ++ (tail ++ [ascii ')']) ++ post := by rw [hTail]; simp
          have hNewPassed := bodies_passed (some c) (before ++ (ins ++ (tail ++ [ascii ')']))) 0 .code post
          have hOldPassed := scan_passed (before ++ (tail ++ [ascii ')'])) 0 (i + 1) (some c) st post
          have hLast : ∀ front : Bytes, (front ++ (tail ++ [ascii ')'])).getLast?.or (some c) = some (ascii ')') := by
            intro front
            rw [← List.append_assoc, List.getLast?_concat]
            rfl
          rw [← List.append_assoc before, hLast] at hNewPassed
          rw [hLast] at hOldPassed
          have hNewLength : before.length + 1 + tail.length + ins.length =
              (before ++ ins ++ (tail ++ [ascii ')'])).length + 0 := by
            simp only [List.length_append, List.length_singleton]; omega
          have hOldLength : found.closeParen - i = (before ++ (tail ++ [ascii ')'])).length + 0 := by
            simp only [hFoundClose, List.length_append, List.length_singleton]; omega
          have hWithin : found.bodyStart ≤ i + (before.length + 1) ∧ i + (before.length + 1) ≤ found.closeParen := by omega
          have hPlace : i + (before.length + 1) - found.bodyStart = inside.length := by omega
          rw [List.cons_append, List.cons_append, bodies_call prev hNew ((hFound _).trans hNewDefine), scan_code hOld, hOldFound]
          simp only [List.map_cons]
          rw [hNewBody, insertedBody, if_pos hWithin, hOldBody, hPlace, List.take_left, List.drop_left, hNewLength, hOldLength,
            hNewText, hOldText, ← List.append_assoc before ins, hNewPassed, hOldPassed, map_insertedBody_scan, hMode]
          simp only [List.length_append, List.length_singleton]
          omega
  · have hNever : ∀ suffix : Bytes, foundCall {} 0 prev (c :: (before ++ suffix)) = none := by
      intro suffix
      simp only [foundCall, hToken, List.head?_cons, Option.any_some, if_neg hDefine]
    exact hNone (hNever _) (hNever _)

/-- The main loop finds the same calls in both contents. The one around the place, if there is
one, has the inserted text in its body. -/
theorem bodies_insert (hPassive : Passive mode ins) (hIdle : Idle rest)
    (hPending : pending = true → mode = .single ∨ mode = .double) {jump i : Nat} {prev : Option UInt8} {st : ScanState}
    {before : Bytes} (hAlike : Alike before ins) (hReaches : Reaches jump st.mode before mode pending) :
    bodies jump prev st.mode (before ++ (ins ++ rest)) =
      (scan jump i prev st (before ++ rest)).map (insertedBody (i + before.length) ins) := by
  induction before generalizing jump i prev st with
  | nil =>
      rw [List.nil_append, List.nil_append, List.length_nil, Nat.add_zero, map_insertedBody_scan (Nat.le_refl i)]
      rcases hReaches with ⟨hLe, hLex⟩ | ⟨hJump, hMode, hTrue⟩
      · obtain rfl : jump = 0 := by simpa using hLe
        obtain ⟨hMode, hFalse⟩ := Prod.mk.inj hLex
        rw [hMode]
        rw [← hFalse] at hPending
        exact @bodies_passive _ _ _ false hPassive hIdle (fun h => by cases h) prev
      · rw [hJump, hMode]
        rw [hTrue] at hPending
        exact bodies_passive hPassive hIdle hPending prev
  | cons c before ih =>
      have hLength : i + (c :: before).length = i + 1 + before.length := by
        simp only [List.length_cons]; omega
      cases jump with
      | succ n =>
          rw [List.cons_append, List.cons_append, bodies_jump, hLength]
          exact ih hAlike.tail hReaches.tail
      | zero =>
          have hLex : lexOver st.mode false (c :: before) 0 = (mode, pending) := by
            rcases hReaches with ⟨-, hLex⟩ | ⟨hEq, -, -⟩
            · exact hLex
            · cases hEq
          have hNew := (hPassive.alike hAlike rest).lexStep_eq st.mode
          have hOld := (hIdle.alike (c :: before)).lexStep_eq st.mode
          cases hStep : lexStep st.mode c (before.headD 0) with
          | some step =>
              obtain ⟨mode', jump⟩ := step
              simp only [lexOver, hStep] at hLex
              rw [List.cons_append, List.cons_append, bodies_step prev (hNew.trans hStep), hLength]
              simp only [scan, hOld.trans hStep]
              exact @ih _ _ _ { st with mode := mode' } hAlike.tail (reaches_of_lexOver hLex)
          | none =>
              have hMode := lexStep_eq_none hStep
              rw [hStep] at hNew hOld
              rw [hMode] at hLex hStep hNew ⊢
              by_cases hWord : ∀ d ∈ c :: before, isIdentifierChar d = true
              · by_cases hStart : startsWord c = true
                · exact bodies_insert_word hPassive hIdle hAlike hMode hLex hWord hStart
                · -- a digit that belongs to no word
                  have hJump : ∀ token, wordJump c token = 0 := fun token => if_neg hStart
                  have hNone : ∀ (st : ScanState) (i : Nat) (suffix : Bytes), foundCall st i prev (c :: suffix) = none :=
                    fun st i suffix => if_neg (by simp [hStart])
                  rw [List.cons_append, List.cons_append, bodies_word prev hNew (hNone ..), scan_code hOld, hNone, hJump, hLength]
                  simp only [hJump]
                  have hRest : Reaches 0 .code before mode pending := by
                    simp only [lexOver, hStep] at hLex
                    exact .inl ⟨Nat.zero_le _, hLex⟩
                  have hLater := @ih 0 (i + 1) (some c) (stateAfter st prev c ((c :: (before ++ rest)).takeWhile isIdentifierChar))
                    hAlike.tail (by rw [stateAfter_mode, hMode]; exact hRest)
                  rwa [stateAfter_mode, hMode] at hLater
              · exact bodies_insert_code hPassive hIdle hPending hAlike hMode hLex hStep hWord fun jump st' hMode' hRest => by
                  have hLater := @ih jump (i + 1) (some c) st' hAlike.tail (by rw [hMode']; exact hRest)
                  rwa [hMode'] at hLater

end Insert

/-! ## The trusted-proxy block -/

def trustedProxyMarker : Bytes := bytes "BEGIN CONTAINERCP TRUSTED PROXY"

/-- `proxy_block`. -/
def proxyBlock : Bytes :=
  bytes "\n// BEGIN CONTAINERCP TRUSTED PROXY\n" ++
    bytes "if (isset($_SERVER['HTTP_X_FORWARDED_PROTO']) && strtolower($_SERVER['HTTP_X_FORWARDED_PROTO']) === 'https') \x7b\n" ++
    bytes "    $_SERVER['HTTPS'] = 'on';\n" ++ bytes "    $_SERVER['SERVER_PORT'] = 443;\n" ++ bytes "\x7d\n" ++
    bytes "// END CONTAINERCP TRUSTED PROXY\n"

def wpSettings : Bytes := bytes "require_once ABSPATH . 'wp-settings.php';"

/-- What is in front of the place of the block, the block that is put there, and what follows it. -/
def proxyPlace (content : Bytes) : Bytes × Bytes × Bytes :=
  match cutAtText wpSettings content with
  | some cut => (cut.1, proxyBlock ++ [newline], wpSettings ++ cut.2)
  | none =>
      match cutAtText (bytes "?>") content with
      | some cut => (cut.1, proxyBlock, bytes "?>" ++ cut.2)
      | none => (content, proxyBlock, [])

/-- The trusted-proxy block of `import_sql` and `upgrade_site`. -/
def addProxyBlock (content : Bytes) : Bytes :=
  if (cutAtText trustedProxyMarker content).isSome then content
  else (proxyPlace content).1 ++ ((proxyPlace content).2.1 ++ (proxyPlace content).2.2)

/-- What the block is in code, and in all modes but a line comment, without and with a line break
behind it. -/
theorem proxyBlock_spec {block : Bytes} (h : block = proxyBlock ∨ block = proxyBlock ++ [newline]) :
    (∀ mode ∈ [LexMode.code, .blockComment, .single, .double], nestOver mode false 0 block = some (mode, false, 0)) ∧
      ascii 'd' ∉ block ∧ block.getLast? = some newline ∧ (block.dropWhile isSpace).head? = some (ascii '/') ∧
        block = bytes "\n// " ++ (trustedProxyMarker ++ block.drop 35) := by
  obtain rfl | rfl := h
  all_goals
    unfold proxyBlock trustedProxyMarker
    repeat rw [bytes_ofList]
    decide +kernel

theorem proxyBlock_head {block : Bytes} (h : block = proxyBlock ∨ block = proxyBlock ++ [newline]) :
    block.head? = some newline := by
  rw [(proxyBlock_spec h).2.2.2.2]
  rfl

theorem passive_proxyBlock {mode : LexMode} {block : Bytes} (h : mode ≠ .lineComment)
    (hBlock : block = proxyBlock ∨ block = proxyBlock ++ [newline]) : Passive mode block := by
  obtain ⟨hNest, hDefine, hEnds, hStart, -⟩ := proxyBlock_spec hBlock
  refine ⟨hNest mode ?_, hDefine, hEnds, hStart, fun _ => proxyBlock_head hBlock⟩
  cases mode with
  | lineComment => contradiction
  | code | blockComment | single | double => decide

theorem proxyPlace_spec (content : Bytes) : content = (proxyPlace content).1 ++ (proxyPlace content).2.2 ∧
    ((proxyPlace content).2.1 = proxyBlock ∨ (proxyPlace content).2.1 = proxyBlock ++ [newline]) ∧
      Idle (proxyPlace content).2.2 := by
  have hIdle : ∀ behind, Idle (wpSettings ++ behind) ∧ Idle (bytes "?>" ++ behind) := by
    refine fun behind => ⟨?_, ?_⟩
    · rintro _ ⟨⟩
      exact .inr rfl
    · rintro _ ⟨⟩
      exact .inl rfl
  unfold proxyPlace
  split
  · next cut hCut => exact ⟨cutAtText_eq_some hCut, .inr rfl, (hIdle _).1⟩
  · split
    · next cut hCut => exact ⟨cutAtText_eq_some hCut, .inl rfl, (hIdle _).2⟩
    · exact ⟨(List.append_nil content).symm, .inl rfl, nofun⟩

/-- Only an escape in a string reaches behind the end. -/
theorem lexOver_pending {mode mode' : LexMode} {jump : Bool} {text : Bytes} (h : lexOver mode jump text 0 = (mode', true))
    (hJump : jump = true → text = [] → mode = .single ∨ mode = .double) : mode' = .single ∨ mode' = .double := by
  induction text generalizing mode jump with
  | nil =>
      obtain ⟨rfl, rfl⟩ := Prod.mk.inj h
      exact hJump rfl rfl
  | cons c rest ih =>
      cases jump with
      | true => exact ih h nofun
      | false =>
          cases hStep : lexStep mode c (rest.headD 0) with
          | none =>
              simp only [lexOver, hStep] at h
              exact ih h nofun
          | some step =>
              obtain ⟨after, jump⟩ := step
              simp only [lexOver, hStep] at h
              refine ih h fun hTrue hNil => ?_
              subst hTrue hNil
              cases mode <;> simp only [lexStep] at hStep <;> split_ifs at hStep <;> simp_all +decide

/-- The text in front of the place ends outside line comments. -/
def PlaceTakesBlock (content : Bytes) : Prop := (lexOver .code false (proxyPlace content).1 0).1 ≠ .lineComment

theorem addProxyBlock_bodies {content : Bytes} (hMarker : cutAtText trustedProxyMarker content = none)
    (h : PlaceTakesBlock content) :
    (findPhpDefineCalls (addProxyBlock content)).map PhpDefineCall.body =
      (findPhpDefineCalls content).map (insertedBody (proxyPlace content).1.length (proxyPlace content).2.1) := by
  obtain ⟨hContent, hBlock, hIdle⟩ := proxyPlace_spec content
  unfold addProxyBlock
  unfold PlaceTakesBlock at h
  rw [hMarker, if_neg (by simp)]
  generalize proxyPlace content = place at *
  obtain ⟨before, block, rest⟩ := place
  subst hContent
  have hPassive : Passive (lexOver .code false before 0).1 block := passive_proxyBlock h hBlock
  have hAlike : Alike before block := by
    refine alike_of_idle ?_
    rw [List.headD_eq_head?_getD, proxyBlock_head hBlock]
    decide
  have hBodies := @bodies_insert block rest _ (lexOver .code false before 0).2 hPassive hIdle
    (fun hPending => lexOver_pending (Prod.ext rfl hPending) nofun) 0 0 none {} before hAlike (@reaches_of_lexOver _ _ false _ _ rfl)
  rwa [Nat.zero_add] at hBodies

theorem addProxyBlock_twice (content : Bytes) : addProxyBlock (addProxyBlock content) = addProxyBlock content := by
  have hMarked : (cutAtText trustedProxyMarker (addProxyBlock content)).isSome = true := by
    unfold addProxyBlock
    split
    · next hMarker => exact hMarker
    · obtain ⟨-, -, -, -, hBlock⟩ := proxyBlock_spec (proxyPlace_spec content).2.1
      rw [hBlock, List.append_assoc, List.append_assoc, ← List.append_assoc]
      exact isSome_cutAtText _ _ _
  rw [addProxyBlock.eq_def (addProxyBlock content), if_pos hMarked]

/-! ## What the inspection reports -/

/-- What a call says about a constant, by its body. -/
def valueText (name body : Bytes) : Option Bytes :=
  (definesConstant name (splitPhpTopLevelArguments body 0)).map PhpArgumentSpan.text

theorem valueText_body (name : Bytes) (call : PhpDefineCall) :
    (valueArgument name call).map PhpArgumentSpan.text = valueText name call.body := by
  have hDefines : ∀ args : List PhpArgumentSpan, (definesConstant name args).map PhpArgumentSpan.text =
      (args.map PhpArgumentSpan.text).head?.bind fun first => (args.map PhpArgumentSpan.text)[1]?.bind fun second =>
        if parsePhpStringLiteral first = some name then some second else none := by
    rintro (_ | ⟨first, _ | ⟨second, rest⟩⟩)
    · rfl
    · rfl
    · show Option.map PhpArgumentSpan.text (if parsePhpStringLiteral first.text = some name then some second else none) =
        if parsePhpStringLiteral first.text = some name then some second.text else none
      split <;> rfl
  have hTexts : ∀ (pieces : List Bytes) (bodyStart start : Nat),
      (pushArgs bodyStart start pieces).map PhpArgumentSpan.text = pieces.map trim := by
    intro pieces
    induction pieces with
    | nil => exact fun _ _ => rfl
    | cons piece pieces ih => exact fun bodyStart start => congrArg (trim piece :: ·) (ih ..)
  rw [valueArgument, valueText, hDefines, hDefines, splitPhpTopLevelArguments, splitPhpTopLevelArguments, hTexts, hTexts]

/-- The part of a parsed field that is reported. -/
def ParsedField.reported (field : ParsedField) :
    WordPressCredentialSource × WordPressCredentialValueState × Bytes := (field.source, field.state, field.value)

theorem toCredentialValue_congr {field field' : ParsedField} (h : field.reported = field'.reported) (sensitive : Bool) :
    toCredentialValue field sensitive = toCredentialValue field' sensitive := by
  obtain ⟨hSource, hRest⟩ := Prod.mk.inj h
  obtain ⟨hState, hValue⟩ := Prod.mk.inj hRest
  simp only [toCredentialValue, hSource, hState, hValue]

/-- The report is made of the bodies of the calls. -/
theorem reported_parseField (calls : List PhpDefineCall) (name : Bytes) :
    (parseField calls name).reported = (calls.map PhpDefineCall.body).foldl
      (fun last body => ((valueText name body).map fun text => (ParsedField.record {} false ⟨0, 0, text⟩).reported).getD last)
      (ParsedField.reported {}) := by
  rw [parseField, List.foldl_map]
  refine (List.foldl_hom ParsedField.reported fun result call => ?_).symm
  rw [← valueText_body]
  cases valueArgument name call with
  | none => rfl
  | some arg =>
      simp only [Option.map_some, Option.getD_some, ParsedField.record]
      cases parsePhpStringLiteral arg.text <;> rfl

def WordPressConfigInspection.credentials (inspection : WordPressConfigInspection) : List WordPressCredentialValue :=
  [inspection.dbName, inspection.dbUser, inspection.dbPassword, inspection.dbHost]

theorem credentials_inspectContent (content : Bytes) : (inspectContent content).credentials =
    [(bytes "DB_NAME", false), (bytes "DB_USER", false), (bytes "DB_PASSWORD", true), (bytes "DB_HOST", false)].map
      fun field => toCredentialValue (parseField (findPhpDefineCalls content) field.1) field.2 := by
  unfold inspectContent
  split
  · next hTrim =>
    have hNone : findPhpDefineCalls content = [] := by
      rw [List.eq_nil_iff_forall_not_mem]
      intro call hCall
      obtain ⟨lead, post, hText, -⟩ := scan_spec hCall
      obtain ⟨leading, trailing, hContent, -, hLeading, hTrailing⟩ := exists_trim content
      have hClose : ascii ')' ∈ leading ++ trailing := by
        rw [hTrim, List.nil_append] at hContent
        rw [← hContent, hText]
        simp
      have hSpace : isSpace (ascii ')') = true := (List.mem_append.mp hClose).elim (hLeading _) (hTrailing _)
      exact absurd hSpace (by decide)
    rw [hNone]
    rfl
  · rfl

/-- No call has the place of the block between its parentheses. -/
def PlaceOutsideCalls (content : Bytes) : Prop :=
  ∀ call ∈ findPhpDefineCalls content,
    ¬(call.bodyStart ≤ (proxyPlace content).1.length ∧ (proxyPlace content).1.length ≤ call.closeParen)

/-- The block is added once. In code, in a block comment or in a string outside the calls it leaves what is
reported about the database. -/
theorem credentials_addProxyBlock {content : Bytes} (h : PlaceTakesBlock content) (hCalls : PlaceOutsideCalls content) :
    (inspectContent (addProxyBlock content)).credentials = (inspectContent content).credentials ∧
      addProxyBlock (addProxyBlock content) = addProxyBlock content := by
  refine ⟨?_, addProxyBlock_twice content⟩
  cases hMarker : cutAtText trustedProxyMarker content with
  | some cut => simp only [addProxyBlock, hMarker, Option.isSome_some, if_true]
  | none =>
      have hBodies : (findPhpDefineCalls (addProxyBlock content)).map PhpDefineCall.body =
          (findPhpDefineCalls content).map PhpDefineCall.body := by
        rw [addProxyBlock_bodies hMarker h]
        exact List.map_congr_left fun call hCall => if_neg (hCalls call hCall)
      rw [credentials_inspectContent, credentials_inspectContent]
      refine List.map_congr_left fun field _ => toCredentialValue_congr ?_ _
      rw [reported_parseField, reported_parseField, hBodies]

theorem credentials_addProxyBlock_blog :
    (inspectContent (addProxyBlock (bytes "define('DB_NAME', 'blog'); ?>"))).credentials =
        (inspectContent (bytes "define('DB_NAME', 'blog'); ?>")).credentials ∧
      addProxyBlock (addProxyBlock (bytes "define('DB_NAME', 'blog'); ?>")) = addProxyBlock (bytes "define('DB_NAME', 'blog'); ?>") :=
  credentials_addProxyBlock (by unfold PlaceTakesBlock; decide +kernel) (by unfold PlaceOutsideCalls; decide +kernel)

end ContainerCP.Wordpress
