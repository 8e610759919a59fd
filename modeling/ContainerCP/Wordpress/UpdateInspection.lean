import ContainerCP.Wordpress.Arguments
import ContainerCP.Wordpress.ConfigDetector
import ContainerCP.Wordpress.LiteralReplacement

/-! The updater seen from the detector: which fields an update can replace, and
what an inspection of the updated file reports. -/
namespace ContainerCP.Wordpress

/-- The bytes that `encode_php_literal_value` treats as controls. -/
def isControl (c : UInt8) : Bool := c < 0x20 || c == 0x7f

/-- The encodings of `c` in a literal with the quote `q`: escaped, or as it is. -/
def EncodesByte (q c : UInt8) (out : Bytes) : Prop :=
  out = [ascii '\\', c] ∨ (out = [c] ∧ c ≠ ascii '\\' ∧ c ≠ q)

instance (q c : UInt8) (out : Bytes) : Decidable (EncodesByte q c out) :=
  inferInstanceAs (Decidable (_ ∨ _))

theorem EncodesByte.append {q c : UInt8} {out : Bytes} (h : EncodesByte q c out) (rest : Bytes) :
    literalBody q (out ++ rest) = literalBody q rest ∧
      unescape (out ++ rest) = c :: unescape rest := by
  rcases h with rfl | ⟨rfl, hEscape, hQuote⟩
  · exact ⟨literalBody_escape .., unescape_escape ..⟩
  · refine ⟨?_, unescape_plain _ hEscape⟩
    rw [List.singleton_append, literalBody_plain _ _ hEscape]
    simp [hQuote]

theorem encodesByte_encodeSingle {c : UInt8} {out : Bytes} (h : encodeSingle c = some out) :
    EncodesByte (ascii '\'') c out := by
  simp only [encodeSingle] at h
  split_ifs at h with hEscape hSpace hControl
  · exact .inl (Option.some.inj h).symm
  · exact .inr ⟨(Option.some.inj h).symm, not_or.mp hEscape⟩
  · exact .inr ⟨(Option.some.inj h).symm, not_or.mp hEscape⟩

theorem encodesByte_encodeDouble {c : UInt8} (h : isControl c = false) :
    EncodesByte (ascii '"') c (encodeDouble c) := by
  have hAll : ∀ n : Fin 256, isControl (UInt8.ofFin n) = false →
      EncodesByte (ascii '"') (UInt8.ofFin n) (encodeDouble (UInt8.ofFin n)) := by
    decide +kernel
  exact hAll c.toFin h

/-- Reading a value encoded for single quotes gives the value back. -/
theorem encodeSingle_spec {value : Bytes} {outs : List Bytes} (h : value.mapM encodeSingle = some outs) :
    literalBody (ascii '\'') outs.flatten = true ∧ unescape outs.flatten = value := by
  induction value generalizing outs with
  | nil =>
      obtain rfl : outs = [] := by simpa using h.symm
      exact ⟨rfl, rfl⟩
  | cons c rest ih =>
      simp only [List.mapM_cons, Option.pure_def, Option.bind_eq_bind, Option.bind_eq_some_iff] at h
      obtain ⟨out, hOut, others, hOthers, hEq⟩ := h
      obtain rfl := Option.some.inj hEq
      obtain ⟨hBody, hUnescape⟩ := (encodesByte_encodeSingle hOut).append others.flatten
      obtain ⟨hRest, hValue⟩ := ih hOthers
      rw [List.flatten_cons, hBody, hUnescape, hValue]
      exact ⟨hRest, rfl⟩

/-- Reading an encoded value gives the value back. -/
theorem encodePhpLiteralValue_spec {q : UInt8} (hq : IsQuote q) {value encoded : Bytes}
    (hControl : ∀ c ∈ value, isControl c = false)
    (h : encodePhpLiteralValue value q = some encoded) :
    literalBody q encoded = true ∧ unescape encoded = value := by
  rcases hq with rfl | rfl
  · rw [encodePhpLiteralValue, if_pos rfl, Option.map_eq_some_iff] at h
    obtain ⟨outs, hOuts, rfl⟩ := h
    exact encodeSingle_spec hOuts
  · rw [encodePhpLiteralValue, if_neg (by decide)] at h
    obtain rfl := Option.some.inj h
    induction value with
    | nil => exact ⟨rfl, rfl⟩
    | cons c rest ih =>
        obtain ⟨hBody, hUnescape⟩ :=
          (encodesByte_encodeDouble (hControl c List.mem_cons_self)).append (rest.flatMap encodeDouble)
        obtain ⟨hRest, hValue⟩ := ih (fun d hd => hControl d (List.mem_cons_of_mem _ hd)) rfl
        rw [List.flatMap_cons, hBody, hUnescape, hValue]
        exact ⟨hRest, rfl⟩

/-- What one call says about a constant: whether it is conditional, and the
text of the value. -/
def reading (name : Bytes) (call : PhpDefineCall) : Option (Bool × Bytes) :=
  (valueArgument name call).map fun arg => (call.conditional, arg.text)

/-- The detector looks at nothing but the readings. -/
theorem parseField_eq (calls : List PhpDefineCall) (name : Bytes) :
    parseField calls name =
      (calls.filterMap (reading name)).foldl
        (fun result read => result.record read.1 ⟨0, 0, read.2⟩) {} := by
  rw [parseField, List.foldl_filterMap]
  congr 1
  funext result call
  cases h : valueArgument name call <;> simp [reading, h, ParsedField.record]

theorem classifyExpression_ne (expr : Bytes) : classifyExpression expr ≠ .directConstant := by
  intro h
  simp only [classifyExpression] at h
  split_ifs at h
  split at h
  · split_ifs at h
  · cases h

theorem record_duplicate {result : ParsedField} (h : result.found = true) (conditional : Bool)
    (arg : PhpArgumentSpan) : (result.record conditional arg).duplicate = true := by
  simp only [ParsedField.record]
  split <;> simp [h]

theorem record_found (result : ParsedField) (conditional : Bool) (arg : PhpArgumentSpan) :
    (result.record conditional arg).found = true := by
  simp only [ParsedField.record]
  split <;> rfl

theorem foldl_record_duplicate (reads : List (Bool × Bytes)) {result : ParsedField}
    (h : result.duplicate = true) (hFound : result.found = true) :
    (reads.foldl (fun result read => result.record read.1 ⟨0, 0, read.2⟩) result).duplicate =
      true := by
  induction reads generalizing result with
  | nil => exact h
  | cons read rest ih => exact ih (record_duplicate hFound ..) (record_found ..)

/-- A field can be updated when exactly one call defines it, outside any
condition, and with a literal. -/
theorem parseField_updatable (calls : List PhpDefineCall) (name : Bytes) :
    (parseField calls name).updatable ↔
      ∃ text, calls.filterMap (reading name) = [(false, text)] ∧
        (parsePhpStringLiteral text).isSome = true := by
  rw [parseField_eq]
  match hReads : calls.filterMap (reading name) with
  | [] => simp [ParsedField.updatable]
  | [(conditional, text)] =>
      simp only [List.foldl_cons, List.foldl_nil, ParsedField.updatable, ParsedField.record]
      cases hParse : parsePhpStringLiteral text with
      | none => simp [hParse, classifyExpression_ne]
      | some literal => simp [hParse]
  | first :: second :: rest =>
      have hDuplicate := foldl_record_duplicate rest
        (record_duplicate (record_found {} first.1 ⟨0, 0, first.2⟩) second.1 ⟨0, 0, second.2⟩)
        (record_found ..)
      simp [ParsedField.updatable, hDuplicate]

theorem parseField_of_reading {calls : List PhpDefineCall} {name text value : Bytes}
    (hReads : calls.filterMap (reading name) = [(false, text)])
    (hParse : parsePhpStringLiteral text = some value) :
    parseField calls name =
      { found := true, source := .directConstant, mutability := .mutableDirectConstant,
        state := .present, value } := by
  rw [parseField_eq, hReads]
  simp [ParsedField.record, hParse]

/-- The one call that defines a constant, among the calls of the content. -/
structure UniqueCall (name content : Bytes) where
  before : List PhpDefineCall
  call : PhpDefineCall
  after : List PhpDefineCall
  calls_eq : findPhpDefineCalls content = before ++ call :: after
  before_none : ∀ other ∈ before, valueArgument name other = none
  after_none : ∀ other ∈ after, valueArgument name other = none
  arg : PhpArgumentSpan
  arg_eq : valueArgument name call = some arg

/-- Collecting one result for each call that defines the constant: a single
result means a single call. -/
theorem exists_uniqueCall {α : Type} {name content : Bytes} {f : PhpDefineCall → PhpArgumentSpan → α}
    {result : α}
    (h : (findPhpDefineCalls content).filterMap (fun call => (valueArgument name call).map (f call)) =
      [result]) :
    ∃ unique : UniqueCall name content, result = f unique.call unique.arg := by
  obtain ⟨before, call, after, hCalls, hBefore, hCall, hAfter⟩ := List.filterMap_eq_cons_iff.mp h
  obtain ⟨arg, hArg, rfl⟩ := Option.map_eq_some_iff.mp hCall
  rw [List.filterMap_eq_nil_iff] at hAfter
  exact ⟨⟨before, call, after, hCalls, fun other hOther => Option.map_eq_none_iff.mp (hBefore other hOther),
    fun other hOther => Option.map_eq_none_iff.mp (hAfter other hOther), arg, hArg⟩, rfl⟩

namespace UniqueCall

variable {name content : Bytes} (unique : UniqueCall name content)

theorem filterMap_eq {α : Type} (f : PhpDefineCall → PhpArgumentSpan → α) :
    (findPhpDefineCalls content).filterMap (fun call => (valueArgument name call).map (f call)) =
      [f unique.call unique.arg] := by
  have hBefore : unique.before.filterMap (fun call => (valueArgument name call).map (f call)) = [] :=
    List.filterMap_eq_nil_iff.mpr fun other hOther => by rw [unique.before_none other hOther]; rfl
  have hAfter : unique.after.filterMap (fun call => (valueArgument name call).map (f call)) = [] :=
    List.filterMap_eq_nil_iff.mpr fun other hOther => by rw [unique.after_none other hOther]; rfl
  rw [unique.calls_eq, List.filterMap_append, hBefore, List.filterMap_cons, unique.arg_eq]
  simp [hAfter]

theorem mem_calls : unique.call ∈ findPhpDefineCalls content := by
  rw [unique.calls_eq]
  simp

end UniqueCall

/-- Taking out a literal and putting another one in its place. -/
theorem splice_literal (before : Bytes) (q : UInt8) (literal new behind : Bytes) :
    (before ++ q :: (literal ++ q :: behind)).take (before.length + 1) ++ new ++
        (before ++ q :: (literal ++ q :: behind)).drop (before.length + 1 + literal.length) =
      before ++ q :: (new ++ q :: behind) := by
  have hTake : (before ++ q :: (literal ++ q :: behind)).take (before.length + 1) =
      before ++ [q] := by
    rw [List.append_cons, List.take_left' (by simp)]
  have hDrop : (before ++ q :: (literal ++ q :: behind)).drop (before.length + 1 + literal.length) =
      q :: behind := by
    rw [List.append_cons, ← List.append_assoc, List.drop_left' (by simp; omega)]
  rw [hTake, hDrop]
  simp

theorem slice_literal (before : Bytes) (q : UInt8) (literal behind : Bytes) :
    ((before ++ q :: (literal ++ q :: behind)).take (before.length + 1 + literal.length)).drop
      (before.length + 1) = literal := by
  have hTake : (before ++ q :: (literal ++ q :: behind)).take (before.length + 1 + literal.length) =
      before ++ [q] ++ literal := by
    rw [List.append_cons, ← List.append_assoc, List.take_left' (by simp; omega)]
  rw [hTake, List.drop_left' (by simp)]

/-- The literal of a constant inside the whole content. -/
structure ContentSite (name content : Bytes) (unique : UniqueCall name content) where
  quote : UInt8
  literal : Bytes
  site : ValueSite name unique.call.body quote literal
  lead : Bytes
  rest : Bytes
  lead_length : lead.length = unique.call.bodyStart
  content_eq : content = lead ++ (unique.call.body ++ ascii ')' :: rest)
  close_eq : unique.call.closeParen = unique.call.bodyStart + unique.call.body.length
  lead_lex : lexOver .code false lead ((unique.call.body ++ ascii ')' :: rest).headD 0) = (.code, false)

theorem exists_contentSite {name content value : Bytes} (unique : UniqueCall name content)
    (h : parsePhpStringLiteral unique.arg.text = some value) :
    ∃ place : ContentSite name content unique, value = unescape place.literal := by
  obtain ⟨quote, literal, ⟨site⟩, rfl⟩ := exists_valueSite unique.arg_eq h
  obtain ⟨lead, rest, hContent, hStart, hClose, -, -, -, hLex⟩ := scan_spec unique.mem_calls
  refine ⟨⟨quote, literal, site, lead, rest, ?_, hContent, hClose, ?_⟩, rfl⟩
  · rw [hStart, Nat.zero_add]
  · simpa using hLex

namespace ContentSite

variable {name content : Bytes} {unique : UniqueCall name content}
  (place : ContentSite name content unique)

/-- The content up to the opening quote. -/
def before : Bytes := place.lead ++ place.site.lead

/-- The content from behind the closing quote. -/
def behind : Bytes := place.site.rest ++ ascii ')' :: place.rest

theorem content_split :
    content = place.before ++ place.quote :: (place.literal ++ place.quote :: place.behind) := by
  conv_lhs => rw [place.content_eq, place.site.body_split]
  simp [before, behind]

theorem before_lex : lexOver .code false place.before place.quote = (.code, false) := by
  have hHead : (unique.call.body ++ ascii ')' :: place.rest).headD 0 =
      place.site.lead.headD place.quote := by
    conv_lhs => rw [place.site.body_split]
    rw [List.append_assoc, headD_append]
    rfl
  have hLead := place.lead_lex
  rw [hHead] at hLead
  rw [before, lexOver_append, hLead]
  exact place.site.lexOver_lead place.quote

theorem arg_eq :
    unique.arg = pushArg unique.call.bodyStart (place.site.first.length + 1) place.site.second :=
  Option.some.inj (unique.arg_eq.symm.trans (place.site.valueArgument_eq rfl))

theorem span_eq :
    phpLiteralValueSpan unique.arg =
      some
        { valueStart := place.before.length + 1
          valueEnd := place.before.length + 1 + place.literal.length
          quote := place.quote } := by
  rw [place.arg_eq, place.site.span_eq, before, List.length_append, place.lead_length]

theorem content_replace (new : Bytes) :
    content.take (place.before.length + 1) ++ new ++
        content.drop (place.before.length + 1 + place.literal.length) =
      place.before ++ place.quote :: (new ++ place.quote :: place.behind) :=
  (congrArg (fun text => text.take (place.before.length + 1) ++ new ++
    text.drop (place.before.length + 1 + place.literal.length)) place.content_split).trans
    (splice_literal ..)

theorem literal_slice :
    (content.take (place.before.length + 1 + place.literal.length)).drop (place.before.length + 1) =
      place.literal :=
  (congrArg (fun text => (text.take (place.before.length + 1 + place.literal.length)).drop
    (place.before.length + 1)) place.content_split).trans (slice_literal ..)

theorem findPhpDefineCalls_replace {new : Bytes} (hNew : literalBody place.quote new = true) :
    findPhpDefineCalls (place.before ++ place.quote :: (new ++ place.quote :: place.behind)) =
      (findPhpDefineCalls content).map
        (rewriteCall (place.before.length + 1) place.literal.length new) := by
  have hScan : scan 0 0 none {} (place.before ++ place.quote :: (new ++ place.quote :: place.behind)) =
      _ := scan_replace place.site.second_quoted.quote place.site.second_quoted.body hNew
    place.behind (Nat.zero_le _) place.before_lex
  rw [← place.content_split, Nat.zero_add] at hScan
  exact hScan

/-- The call around the literal, with the other literal in it. -/
theorem rewriteCall_body (new : Bytes) :
    (rewriteCall (place.before.length + 1) place.literal.length new unique.call).body =
      place.site.lead ++ place.quote :: (new ++ place.quote :: place.site.rest) := by
  have hLength := congrArg List.length place.site.body_split
  simp only [List.length_append, List.length_cons] at hLength
  have hBefore : place.before.length = unique.call.bodyStart + place.site.lead.length := by
    rw [before, List.length_append, place.lead_length]
  have hClose := place.close_eq
  have hStart : place.before.length + 1 - unique.call.bodyStart = place.site.lead.length + 1 := by
    omega
  simp only [rewriteCall, hStart]
  rw [if_pos (by omega)]
  exact (congrArg (fun text => text.take (place.site.lead.length + 1) ++ new ++
    text.drop (place.site.lead.length + 1 + place.literal.length)) place.site.body_split).trans
    (splice_literal ..)

/-- A call that does not overlap with the one around the literal keeps its body. -/
theorem rewriteCall_body_other (new : Bytes) {other : PhpDefineCall}
    (h : other.closeParen < unique.call.bodyStart ∨ unique.call.closeParen < other.bodyStart) :
    (rewriteCall (place.before.length + 1) place.literal.length new other).body = other.body := by
  have hLength := congrArg List.length place.site.body_split
  simp only [List.length_append, List.length_cons] at hLength
  have hBefore : place.before.length = unique.call.bodyStart + place.site.lead.length := by
    rw [before, List.length_append, place.lead_length]
  have hClose := place.close_eq
  simp only [rewriteCall]
  rw [if_neg (by omega)]

end ContentSite

/-- Two calls with the same body say the same about every constant. -/
theorem reading_congr {call call' : PhpDefineCall} (hBody : call'.body = call.body)
    (hConditional : call'.conditional = call.conditional) (name : Bytes) :
    reading name call' = reading name call := by
  simp only [reading, valueArgument, splitPhpTopLevelArguments, hBody, hConditional]
  cases splitPieces false {} call.body with
  | nil => rfl
  | cons first rest =>
      cases rest with
      | nil => rfl
      | cons second pieces =>
          simp only [pushArgs, definesConstant, pushArg]
          split_ifs <;> rfl

namespace UniqueCall

variable {name content : Bytes} (unique : UniqueCall name content)

theorem disjoint {other : PhpDefineCall} (h : other ∈ unique.before ∨ other ∈ unique.after) :
    other.closeParen < unique.call.bodyStart ∨ unique.call.closeParen < other.bodyStart := by
  have hPairwise := scan_pairwise 0 0 none {} content
  have hCalls : scan 0 0 none {} content = unique.before ++ unique.call :: unique.after :=
    unique.calls_eq
  rw [hCalls, List.pairwise_append] at hPairwise
  obtain ⟨-, hAfter, hBefore⟩ := hPairwise
  rcases h with h | h
  · exact .inl (hBefore other h unique.call List.mem_cons_self)
  · exact .inr ((List.pairwise_cons.mp hAfter).1 other h)

end UniqueCall

namespace ContentSite

variable {name content : Bytes} {unique : UniqueCall name content}
  (place : ContentSite name content unique) {new : Bytes} (hNew : literalBody place.quote new = true)

/-- What the calls of the changed content say about a constant, one by one. -/
theorem reading_other (new : Bytes) {other : PhpDefineCall}
    (h : other ∈ unique.before ∨ other ∈ unique.after) (constant : Bytes) :
    reading constant (rewriteCall (place.before.length + 1) place.literal.length new other) =
      reading constant other :=
  reading_congr (place.rewriteCall_body_other new (unique.disjoint h)) rfl constant

include hNew in
/-- After the replacement the constant has the new value and no other call. -/
theorem filterMap_reading_replace :
    ∃ text, parsePhpStringLiteral text = some (unescape new) ∧
      ((findPhpDefineCalls content).map
        (rewriteCall (place.before.length + 1) place.literal.length new)).filterMap (reading name) =
          [(unique.call.conditional, text)] := by
  have hArg := (place.site.replace hNew).valueArgument_eq (place.rewriteCall_body new)
  refine ⟨(pushArg _ _ (place.site.replace hNew).second).text,
    (place.site.replace hNew).value_eq (rewriteCall (place.before.length + 1) place.literal.length new
      unique.call).bodyStart ((place.site.replace hNew).first.length + 1), ?_⟩
  have hNone : ∀ other, other ∈ unique.before ∨ other ∈ unique.after →
      (reading name ∘ rewriteCall (place.before.length + 1) place.literal.length new) other =
        none := by
    intro other hOther
    have hArg : valueArgument name other = none :=
      hOther.elim (unique.before_none other) (unique.after_none other)
    rw [Function.comp_apply, place.reading_other new hOther, reading, hArg, Option.map_none]
  have hBefore := List.filterMap_eq_nil_iff.mpr fun other h => hNone other (.inl h)
  have hAfter := List.filterMap_eq_nil_iff.mpr fun other h => hNone other (.inr h)
  rw [unique.calls_eq, List.filterMap_map, List.filterMap_append, hBefore, List.filterMap_cons,
    Function.comp_apply, reading, hArg]
  simp only [Option.map_some, List.nil_append, hAfter]
  rfl

include hNew in
/-- Nothing changes for the other constants. -/
theorem filterMap_reading_other {other : Bytes} (hOther : other ≠ name) :
    ((findPhpDefineCalls content).map
      (rewriteCall (place.before.length + 1) place.literal.length new)).filterMap (reading other) =
        (findPhpDefineCalls content).filterMap (reading other) := by
  rw [List.filterMap_map]
  refine List.filterMap_congr fun call hCall => ?_
  rw [unique.calls_eq, List.mem_append, List.mem_cons] at hCall
  rcases hCall with hCall | rfl | hCall
  · exact place.reading_other new (.inl hCall) other
  · have hOld : reading other unique.call = none := by
      rw [reading, place.site.valueArgument_eq_none rfl hOther, Option.map_none]
    have hSame := (place.site.replace hNew).valueArgument_eq_none (place.rewriteCall_body new) hOther
    rw [Function.comp_apply, hOld, reading, hSame, Option.map_none]
  · exact place.reading_other new (.inr hCall) other

end ContentSite

/-- What `find_update_target` records for a call. -/
def replacementSpan (call : PhpDefineCall) (arg : PhpArgumentSpan) : ReplacementSpan :=
  match phpLiteralValueSpan arg with
  | some span => ⟨span.valueStart, span.valueEnd, span.quote, call.conditional⟩
  | none => ⟨0, 0, ascii '\'', call.conditional⟩

theorem findTargetSpans_eq (content name : Bytes) :
    findTargetSpans content name =
      (findPhpDefineCalls content).filterMap fun call =>
        (valueArgument name call).map (replacementSpan call) := rfl

theorem phpLiteralValueSpan_start {arg : PhpArgumentSpan} {span : PhpLiteralValueSpan}
    (h : phpLiteralValueSpan arg = some span) : 0 < span.valueStart := by
  simp only [phpLiteralValueSpan] at h
  split at h
  · split_ifs at h
    obtain ⟨n, -, rfl⟩ := Option.map_eq_some_iff.mp h
    simp
  · cases h

/-- An update succeeds on the one call that defines the constant, outside any
condition and with a literal. -/
theorem exists_of_renderUpdate {content newValue out : Bytes} {field : WordPressConfigUpdateField}
    (h : renderUpdate content field newValue = .ok out) :
    ∃ (unique : UniqueCall (wordpressUpdateFieldName field) content)
      (span : PhpLiteralValueSpan) (encoded : Bytes),
      unique.call.conditional = false ∧ phpLiteralValueSpan unique.arg = some span ∧
        encodePhpLiteralValue newValue span.quote = some encoded ∧
        out = content.take span.valueStart ++ encoded ++ content.drop span.valueEnd := by
  simp only [renderUpdate] at h
  split at h
  · cases h
  next found hSpans =>
    rw [findTargetSpans_eq] at hSpans
    obtain ⟨unique, rfl⟩ := exists_uniqueCall hSpans
    cases hSpan : phpLiteralValueSpan unique.arg with
    | none =>
        simp only [replacementSpan, hSpan] at h
        split_ifs at h
        simp_all
    | some span =>
        simp only [replacementSpan, hSpan] at h
        split_ifs at h with hConditional hZero
        split at h
        · cases h
        next encoded hEncoded =>
          exact ⟨unique, span, encoded, by simpa using hConditional, hSpan, hEncoded, by simpa using h.symm⟩
  · cases h

theorem renderUpdate_of_unique {content newValue encoded : Bytes} {field : WordPressConfigUpdateField}
    (unique : UniqueCall (wordpressUpdateFieldName field) content) {span : PhpLiteralValueSpan}
    (hConditional : unique.call.conditional = false)
    (hSpan : phpLiteralValueSpan unique.arg = some span)
    (hEncoded : encodePhpLiteralValue newValue span.quote = some encoded) :
    renderUpdate content field newValue =
      .ok (content.take span.valueStart ++ encoded ++ content.drop span.valueEnd) := by
  have hSpans : findTargetSpans content (wordpressUpdateFieldName field) =
      [⟨span.valueStart, span.valueEnd, span.quote, false⟩] := by
    rw [findTargetSpans_eq, unique.filterMap_eq, replacementSpan, hSpan, hConditional]
  have hStart := phpLiteralValueSpan_start hSpan
  simp only [renderUpdate, hSpans, Bool.false_eq_true, if_false]
  rw [if_neg (by omega)]
  simp only [hEncoded]

/-- The detector's view of a constant that exactly one call defines. -/
theorem parseField_of_unique {name content : Bytes} (unique : UniqueCall name content)
    {value : Bytes} (hConditional : unique.call.conditional = false)
    (hValue : parsePhpStringLiteral unique.arg.text = some value) :
    (parseField (findPhpDefineCalls content) name).updatable ∧
      (parseField (findPhpDefineCalls content) name).value = value := by
  have hReads : (findPhpDefineCalls content).filterMap (reading name) =
      [(false, unique.arg.text)] := by
    rw [← hConditional]
    exact unique.filterMap_eq fun call arg => (call.conditional, arg.text)
  rw [parseField_of_reading hReads hValue]
  exact ⟨⟨rfl, rfl, rfl, rfl⟩, rfl⟩

theorem exists_of_updatable {name content : Bytes}
    (h : (parseField (findPhpDefineCalls content) name).updatable) :
    ∃ (unique : UniqueCall name content) (value : Bytes),
      unique.call.conditional = false ∧ parsePhpStringLiteral unique.arg.text = some value := by
  obtain ⟨text, hReads, hParse⟩ := (parseField_updatable _ _).mp h
  obtain ⟨value, hValue⟩ := Option.isSome_iff_exists.mp hParse
  obtain ⟨unique, hResult⟩ := exists_uniqueCall hReads
  obtain ⟨hConditional, rfl⟩ := Prod.mk.inj hResult
  exact ⟨unique, value, hConditional.symm, hValue⟩

theorem exists_value_of_span {arg : PhpArgumentSpan} {span : PhpLiteralValueSpan}
    (h : phpLiteralValueSpan arg = some span) : ∃ value, parsePhpStringLiteral arg.text = some value := by
  refine Option.ne_none_iff_exists'.mp fun hNone => ?_
  rw [phpLiteralValueSpan_eq_none hNone] at h
  cases h

theorem UniqueCall.eq_call {name content : Bytes} (unique : UniqueCall name content)
    {other : PhpDefineCall} (hMem : other ∈ findPhpDefineCalls content)
    (hArg : (valueArgument name other).isSome = true) : other = unique.call := by
  rw [unique.calls_eq, List.mem_append, List.mem_cons] at hMem
  rcases hMem with hMem | hMem | hMem
  · simp [unique.before_none other hMem] at hArg
  · exact hMem
  · simp [unique.after_none other hMem] at hArg

/-- An update followed by an inspection: the field has the new value, the other
fields are as before, and the scanner finds the same calls, moved by the
change of the literal. -/
theorem renderUpdate_then_parseField {content newValue out : Bytes}
    {field : WordPressConfigUpdateField} (hControl : ∀ c ∈ newValue, isControl c = false)
    (h : renderUpdate content field newValue = .ok out) :
    parseField (findPhpDefineCalls out) (wordpressUpdateFieldName field) =
        { found := true, duplicate := false, conditional := false, source := .directConstant,
          mutability := .mutableDirectConstant, state := .present, value := newValue } ∧
      (∀ other, other ≠ field →
        parseField (findPhpDefineCalls out) (wordpressUpdateFieldName other) =
          parseField (findPhpDefineCalls content) (wordpressUpdateFieldName other)) ∧
      ∃ start oldLen encoded,
        out = content.take start ++ encoded ++ content.drop (start + oldLen) ∧
        findPhpDefineCalls out =
          (findPhpDefineCalls content).map (rewriteCall start oldLen encoded) := by
  obtain ⟨unique, span, encoded, hConditional, hSpan, hEncoded, rfl⟩ := exists_of_renderUpdate h
  obtain ⟨value, hValue⟩ := exists_value_of_span hSpan
  obtain ⟨place, -⟩ := exists_contentSite unique hValue
  obtain rfl := Option.some.inj (hSpan.symm.trans place.span_eq)
  obtain ⟨hNew, hUnescape⟩ :=
    encodePhpLiteralValue_spec place.site.second_quoted.quote hControl hEncoded
  have hCalls := place.findPhpDefineCalls_replace hNew
  rw [← place.content_replace encoded] at hCalls
  refine ⟨?_, fun other hOther => ?_, _, _, encoded, rfl, hCalls⟩
  · obtain ⟨text, hText, hReads⟩ := place.filterMap_reading_replace hNew
    rw [hConditional, ← hCalls] at hReads
    rw [hUnescape] at hText
    exact parseField_of_reading hReads hText
  · have hName : wordpressUpdateFieldName other ≠ wordpressUpdateFieldName field :=
      fun hSame => hOther (wordpressUpdateFieldName_injective hSame)
    rw [parseField_eq, parseField_eq, hCalls, place.filterMap_reading_other hNew hName]

theorem renderUpdate_then_parseField_password :
    (∀ c ∈ bytes "it's", isControl c = false) ∧
      renderUpdate (bytes "define('DB_USER','u'); define( 'DB_PASSWORD', 'old' );") .dbPassword
        (bytes "it's") =
          .ok (bytes "define('DB_USER','u'); define( 'DB_PASSWORD', 'it\\'s' );") ∧
      (parseField (findPhpDefineCalls
        (bytes "define('DB_USER','u'); define( 'DB_PASSWORD', 'it\\'s' );")) (bytes "DB_PASSWORD")).value =
          bytes "it's" := by
  have hControl : ∀ c ∈ bytes "it's", isControl c = false := by decide +kernel
  have hUpdate : renderUpdate (bytes "define('DB_USER','u'); define( 'DB_PASSWORD', 'old' );")
      .dbPassword (bytes "it's") =
        .ok (bytes "define('DB_USER','u'); define( 'DB_PASSWORD', 'it\\'s' );") := by
    repeat rw [bytes_ofList]
    decide +kernel
  refine ⟨hControl, hUpdate, ?_⟩
  exact congrArg ParsedField.value (renderUpdate_then_parseField hControl hUpdate).1

/-- The detector reports a field as an unconditional direct constant exactly
when an update with a value that can be written in its quotes succeeds, and
the literal that the update takes out is the one whose value was reported. -/
theorem renderUpdate_success_iff_updatable {content newValue : Bytes}
    {field : WordPressConfigUpdateField}
    (hEncodable : ∀ span ∈ findTargetSpans content (wordpressUpdateFieldName field),
      (encodePhpLiteralValue newValue span.quote).isSome = true) :
    ((parseField (findPhpDefineCalls content) (wordpressUpdateFieldName field)).updatable ↔
      (renderUpdate content field newValue).success = true) ∧
    ∀ out, renderUpdate content field newValue = .ok out →
      ∃ call ∈ findPhpDefineCalls content, ∃ arg span encoded,
        valueArgument (wordpressUpdateFieldName field) call = some arg ∧
        (∀ other ∈ findPhpDefineCalls content,
          (valueArgument (wordpressUpdateFieldName field) other).isSome = true → other = call) ∧
        phpLiteralValueSpan arg = some span ∧
        encodePhpLiteralValue newValue span.quote = some encoded ∧
        out = content.take span.valueStart ++ encoded ++ content.drop span.valueEnd ∧
        parsePhpStringLiteral arg.text =
          some (parseField (findPhpDefineCalls content) (wordpressUpdateFieldName field)).value ∧
        unescape ((content.take span.valueEnd).drop span.valueStart) =
          (parseField (findPhpDefineCalls content) (wordpressUpdateFieldName field)).value := by
  refine ⟨⟨fun h => ?_, fun h => ?_⟩, fun out h => ?_⟩
  · obtain ⟨unique, value, hConditional, hValue⟩ := exists_of_updatable h
    obtain ⟨place, -⟩ := exists_contentSite unique hValue
    have hSome := hEncodable (replacementSpan unique.call unique.arg) (by
      rw [findTargetSpans_eq, unique.filterMap_eq]; exact List.mem_singleton_self _)
    simp only [replacementSpan, place.span_eq] at hSome
    obtain ⟨encoded, hEncoded⟩ := Option.isSome_iff_exists.mp hSome
    rw [renderUpdate_of_unique unique hConditional place.span_eq hEncoded]
    rfl
  · cases hResult : renderUpdate content field newValue with
    | failure code message => rw [hResult] at h; cases h
    | ok out =>
        obtain ⟨unique, span, encoded, hConditional, hSpan, -, -⟩ := exists_of_renderUpdate hResult
        obtain ⟨value, hValue⟩ := exists_value_of_span hSpan
        exact (parseField_of_unique unique hConditional hValue).1
  · obtain ⟨unique, span, encoded, hConditional, hSpan, hEncoded, hOut⟩ := exists_of_renderUpdate h
    obtain ⟨value, hValue⟩ := exists_value_of_span hSpan
    obtain ⟨place, hLiteral⟩ := exists_contentSite unique hValue
    have hReported := (parseField_of_unique unique hConditional hValue).2
    obtain rfl := Option.some.inj (hSpan.symm.trans place.span_eq)
    refine ⟨unique.call, unique.mem_calls, unique.arg, _, encoded, unique.arg_eq,
      fun other hMem hArg => unique.eq_call hMem hArg, hSpan, hEncoded, hOut, ?_, ?_⟩
    · rw [hReported, hValue]
    · rw [hReported, hLiteral, place.literal_slice]

theorem renderUpdate_success_iff_updatable_name :
    (∀ span ∈ findTargetSpans (bytes "define(\"DB_NAME\", \"wp\" );") (wordpressUpdateFieldName .dbName),
      (encodePhpLiteralValue (bytes "a$b") span.quote).isSome = true) ∧
    (renderUpdate (bytes "define(\"DB_NAME\", \"wp\" );") .dbName (bytes "a$b")).success = true := by
  have hEncodable : ∀ span ∈ findTargetSpans (bytes "define(\"DB_NAME\", \"wp\" );")
      (wordpressUpdateFieldName .dbName),
      (encodePhpLiteralValue (bytes "a$b") span.quote).isSome = true := by
    decide +kernel
  refine ⟨hEncodable, (renderUpdate_success_iff_updatable hEncodable).1.mp ?_⟩
  decide +kernel

end ContainerCP.Wordpress
