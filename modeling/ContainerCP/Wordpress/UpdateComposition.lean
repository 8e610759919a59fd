import ContainerCP.Wordpress.ConfigFile
import ContainerCP.Wordpress.LiteralRoundTrip
import Mathlib.Data.List.Perm.Basic

/-! Updates one after the other: an update leaves the place of every other field where it was,
apart from the bytes that came in or went out in front of it. -/
namespace ContainerCP.Wordpress

/-- The text with `new` in the place of `oldLen` bytes from `start` on. -/
def splice (text : Bytes) (start oldLen : Nat) (new : Bytes) : Bytes := text.take start ++ new ++ text.drop (start + oldLen)

theorem splice_append (front old behind new : Bytes) :
    splice (front ++ (old ++ behind)) front.length old.length new = front ++ (new ++ behind) := by
  have hDrop : (front ++ (old ++ behind)).drop (front.length + old.length) = behind := by
    rw [← List.append_assoc, ← List.length_append, List.drop_left]
  rw [splice, List.take_left, hDrop, List.append_assoc]

/-- A text cut before and behind a part. -/
theorem exists_split {text : Bytes} {start len : Nat} (h : start + len ≤ text.length) :
    ∃ front part behind, text = front ++ (part ++ behind) ∧ front.length = start ∧ part.length = len := by
  refine ⟨text.take start, (text.drop start).take len, (text.drop start).drop len, ?_, ?_, ?_⟩
  · rw [List.take_append_drop, List.take_append_drop]
  · rw [List.length_take]
    omega
  · rw [List.length_take, List.length_drop]
    omega

/-- The part that was spliced in can be taken out again. -/
theorem splice_splice {text : Bytes} {start len : Nat} (h : start + len ≤ text.length) (new other : Bytes) :
    splice (splice text start len new) start new.length other = splice text start len other := by
  obtain ⟨front, part, behind, rfl, rfl, rfl⟩ := exists_split h
  rw [splice_append, splice_append, splice_append]

/-- Two parts that do not overlap are replaced in either order. -/
theorem splice_comm {text : Bytes} {start len start' len' : Nat} (h : start + len ≤ start') (h' : start' + len' ≤ text.length)
    (new new' : Bytes) :
    splice (splice text start len new) (start' - len + new.length) len' new' = splice (splice text start' len' new') start len new := by
  obtain ⟨front, part, rest, rfl, rfl, rfl⟩ := exists_split (h.trans ((Nat.le_add_right _ _).trans h'))
  have hRest : start' - (front.length + part.length) + len' ≤ rest.length := by
    rw [List.length_append, List.length_append] at h'
    omega
  obtain ⟨middle, part', behind, rfl, hMiddle, rfl⟩ := exists_split hRest
  have hStart : start' = (front ++ (part ++ middle)).length := by
    rw [List.length_append, List.length_append]
    omega
  have hMoved : start' - part.length + new.length = (front ++ (new ++ middle)).length := by
    rw [List.length_append, List.length_append]
    omega
  rw [splice_append, hMoved, hStart]
  have hFirst := splice_append (front ++ (new ++ middle)) part' behind new'
  have hSecond := splice_append (front ++ (part ++ middle)) part' behind new'
  simp only [List.append_assoc] at hFirst hSecond ⊢
  rw [hFirst, hSecond]
  exact (splice_append front part (middle ++ (new' ++ behind)) new).symm

/-- Whatever the value, its encoding is a body for the quotes. -/
theorem literalBody_encoded {q : UInt8} (hq : IsQuote q) {value encoded : Bytes} (h : encodePhpLiteralValue value q = some encoded) :
    literalBody q encoded = true := by
  rcases hq with rfl | rfl
  · rw [encodePhpLiteralValue, if_pos rfl, Option.map_eq_some_iff] at h
    obtain ⟨outs, hOuts, rfl⟩ := h
    exact (encodeSingle_spec hOuts).1
  · rw [encodePhpLiteralValue, if_neg (by decide)] at h
    rw [← Option.some.inj h]
    exact (literal_flatMap_encodeDouble value).1

theorem rewriteCall_bodyStart (start oldLen : Nat) (new : Bytes) (call : PhpDefineCall) :
    (rewriteCall start oldLen new call).bodyStart = shiftPos start oldLen new.length call.bodyStart := rfl

namespace ContentSite

variable {name content : Bytes} {unique : UniqueCall name content} (place : ContentSite name content unique) {new : Bytes}

/-- The content with another literal in the place. -/
def replaced (new : Bytes) : Bytes := splice content (place.before.length + 1) place.literal.length new

theorem replaced_eq (new : Bytes) : place.replaced new = place.before ++ place.quote :: (new ++ place.quote :: place.behind) :=
  place.content_replace new

theorem start_eq : place.before.length = unique.call.bodyStart + place.site.lead.length := by
  rw [before, List.length_append, place.lead_length]

theorem end_lt : place.before.length + 1 + place.literal.length ≤ unique.call.closeParen := by
  have hLength := congrArg List.length place.site.body_split
  simp only [List.length_append, List.length_cons] at hLength
  have hClose := place.close_eq
  have hStart := place.start_eq
  omega

/-- A call defines a constant in the changed content if it did before. -/
theorem isSome_rewriteCall (hNew : literalBody place.quote new = true) (constant : Bytes) {call : PhpDefineCall}
    (hCall : call ∈ findPhpDefineCalls content) :
    (valueArgument constant (rewriteCall (place.before.length + 1) place.literal.length new call)).isSome =
      (valueArgument constant call).isSome := by
  have hReading : ∀ call : PhpDefineCall, (reading constant call).isSome = (valueArgument constant call).isSome :=
    fun call => Option.isSome_map
  rw [unique.calls_eq, List.mem_append, List.mem_cons] at hCall
  rcases hCall with hBefore | rfl | hAfter
  · rw [← hReading, ← hReading, place.reading_other new (.inl hBefore)]
  · by_cases hSame : constant = name
    · rw [hSame, (place.site.replace hNew).valueArgument_eq (place.rewriteCall_body new), unique.arg_eq]
      rfl
    · rw [(place.site.replace hNew).valueArgument_eq_none (place.rewriteCall_body new) hSame,
        place.site.valueArgument_eq_none rfl hSame]
  · rw [← hReading, ← hReading, place.reading_other new (.inr hAfter)]

/-- The one call that defines a constant is the one that does so in the changed content. -/
theorem exists_moved (hNew : literalBody place.quote new = true) {constant : Bytes} (other : UniqueCall constant content) :
    ∃ moved : UniqueCall constant (place.replaced new),
      moved.call = rewriteCall (place.before.length + 1) place.literal.length new other.call := by
  have hNone : ∀ call, call ∈ findPhpDefineCalls content → valueArgument constant call = none →
      valueArgument constant (rewriteCall (place.before.length + 1) place.literal.length new call) = none := by
    intro call hCall hArg
    rw [← Option.not_isSome_iff_eq_none, place.isSome_rewriteCall hNew constant hCall, hArg]
    exact Bool.false_ne_true
  have hSome := place.isSome_rewriteCall hNew constant other.mem_calls
  rw [other.arg_eq] at hSome
  obtain ⟨arg, hArg⟩ := Option.isSome_iff_exists.mp hSome
  have hCalls := place.findPhpDefineCalls_replace hNew
  rw [← place.replaced_eq, other.calls_eq, List.map_append, List.map_cons] at hCalls
  refine ⟨⟨_, _, _, hCalls, ?_, ?_, arg, hArg⟩, rfl⟩
  · intro call hCall
    obtain ⟨old, hOld, rfl⟩ := List.mem_map.mp hCall
    exact hNone old (by rw [other.calls_eq]; exact List.mem_append_left _ hOld) (other.before_none old hOld)
  · intro call hCall
    obtain ⟨old, hOld, rfl⟩ := List.mem_map.mp hCall
    exact hNone old (by rw [other.calls_eq]; simp [hOld]) (other.after_none old hOld)

/-- In the changed content the literal of the place itself begins where it began, and is the new
one. -/
theorem span_moved_self (hNew : literalBody place.quote new = true) {moved : UniqueCall name (place.replaced new)}
    (hMoved : moved.call = rewriteCall (place.before.length + 1) place.literal.length new unique.call) :
    phpLiteralValueSpan moved.arg =
      some ⟨place.before.length + 1, place.before.length + 1 + new.length, place.quote⟩ := by
  have hBody : moved.call.body = place.site.lead ++ place.quote :: (new ++ place.quote :: place.site.rest) := by
    rw [hMoved]
    exact place.rewriteCall_body new
  have hStart : moved.call.bodyStart = unique.call.bodyStart := by
    rw [hMoved, rewriteCall_bodyStart, shiftPos, if_pos]
    have hLe := place.start_eq
    omega
  have hArg := Option.some.inj (moved.arg_eq.symm.trans ((place.site.replace hNew).valueArgument_eq hBody))
  have hLead : (place.site.replace hNew).lead = place.site.lead := rfl
  rw [hArg, (place.site.replace hNew).span_eq, hLead, hStart, place.start_eq]

/-- The literal of another constant is the same in the changed content, and begins where it did
but for the bytes that came in or went out in front of it. -/
theorem span_moved_other {constant : Bytes} {other : UniqueCall constant content} (target : ContentSite constant content other)
    (hOther : other.call ∈ unique.before ∨ other.call ∈ unique.after) {moved : UniqueCall constant (place.replaced new)}
    (hMoved : moved.call = rewriteCall (place.before.length + 1) place.literal.length new other.call) :
    (target.before.length + 1 + target.literal.length < place.before.length + 1 ∧
      phpLiteralValueSpan moved.arg =
        some ⟨target.before.length + 1, target.before.length + 1 + target.literal.length, target.quote⟩) ∨
    (place.before.length + 1 + place.literal.length < target.before.length + 1 ∧
      phpLiteralValueSpan moved.arg =
        some ⟨target.before.length + 1 - place.literal.length + new.length,
          target.before.length + 1 - place.literal.length + new.length + target.literal.length, target.quote⟩) := by
  have hBody : moved.call.body = other.call.body := by
    rw [hMoved]
    exact place.rewriteCall_body_other new (unique.disjoint hOther)
  have hArg := Option.some.inj (moved.arg_eq.symm.trans (target.site.valueArgument_eq hBody))
  have hStart := place.start_eq
  have hTarget := target.start_eq
  have hTargetEnd := target.end_lt
  have hEnd := place.end_lt
  rw [hArg, target.site.span_eq, hMoved, rewriteCall_bodyStart, shiftPos]
  rcases unique.disjoint hOther with hBefore | hBehind
  · left
    rw [if_pos (by omega), ← hTarget]
    exact ⟨by omega, rfl⟩
  · right
    rw [if_neg (by omega)]
    have hMove : other.call.bodyStart - place.literal.length + new.length + target.site.lead.length + 1 =
        target.before.length + 1 - place.literal.length + new.length := by omega
    rw [hMove]
    exact ⟨by omega, rfl⟩

end ContentSite

/-! ## Updates -/

/-- Where an update writes: the one literal, outside any condition. -/
structure UpdateSite (content : Bytes) (field : WordPressConfigUpdateField) where
  unique : UniqueCall (wordpressUpdateFieldName field) content
  place : ContentSite (wordpressUpdateFieldName field) content unique
  unconditional : unique.call.conditional = false

namespace UpdateSite

variable {content value out : Bytes} {field : WordPressConfigUpdateField}

theorem exists_of_update (h : renderUpdate content field value = .ok out) :
    ∃ (site : UpdateSite content field) (encoded : Bytes), encodePhpLiteralValue value site.place.quote = some encoded ∧
      out = site.place.replaced encoded := by
  obtain ⟨unique, span, encoded, hConditional, hSpan, hEncoded, rfl⟩ := exists_of_renderUpdate h
  obtain ⟨text, hText⟩ := exists_value_of_span hSpan
  obtain ⟨place, -⟩ := exists_contentSite unique hText
  obtain rfl := Option.some.inj (hSpan.symm.trans place.span_eq)
  exact ⟨⟨unique, place, hConditional⟩, encoded, hEncoded, rfl⟩

theorem quote_isQuote (site : UpdateSite content field) : IsQuote site.place.quote := site.place.site.second_quoted.quote

theorem end_le (site : UpdateSite content field) : site.place.before.length + 1 + site.place.literal.length ≤ content.length := by
  have hLength := congrArg List.length site.place.content_split
  simp only [List.length_append, List.length_cons] at hLength
  omega

/-- A further update of the field writes in the same place. -/
theorem update_again (site : UpdateSite content field) {encoded value' encoded' : Bytes}
    (hEncoded : encodePhpLiteralValue value site.place.quote = some encoded)
    (hEncoded' : encodePhpLiteralValue value' site.place.quote = some encoded') :
    renderUpdate (site.place.replaced encoded) field value' = .ok (site.place.replaced encoded') := by
  have hNew := literalBody_encoded site.quote_isQuote hEncoded
  obtain ⟨moved, hMoved⟩ := site.place.exists_moved hNew site.unique
  have hConditional : moved.call.conditional = false := by
    rw [hMoved]
    exact site.unconditional
  rw [renderUpdate_of_unique moved hConditional (site.place.span_moved_self hNew hMoved) hEncoded']
  exact congrArg _ (splice_splice site.end_le encoded encoded')

/-- The call of one field is not that of another. -/
theorem call_other {other : WordPressConfigUpdateField} (site : UpdateSite content field) (target : UpdateSite content other)
    (hField : other ≠ field) : target.unique.call ∈ site.unique.before ∨ target.unique.call ∈ site.unique.after := by
  have hMem := target.unique.mem_calls
  rw [site.unique.calls_eq, List.mem_append, List.mem_cons] at hMem
  rcases hMem with hBefore | hSame | hAfter
  · exact .inl hBefore
  · have hNone := site.place.site.valueArgument_eq_none rfl fun hName => hField (wordpressUpdateFieldName_injective hName)
    rw [← hSame, target.unique.arg_eq] at hNone
    cases hNone
  · exact .inr hAfter

/-- An update of another field writes in its own place, which may have moved. -/
theorem update_other {other : WordPressConfigUpdateField} (site : UpdateSite content field) (target : UpdateSite content other)
    (hField : other ≠ field) {encoded value' encoded' : Bytes}
    (hEncoded : encodePhpLiteralValue value site.place.quote = some encoded)
    (hEncoded' : encodePhpLiteralValue value' target.place.quote = some encoded') :
    (target.place.before.length + 1 + target.place.literal.length < site.place.before.length + 1 ∧
      renderUpdate (site.place.replaced encoded) other value' =
        .ok (splice (site.place.replaced encoded) (target.place.before.length + 1) target.place.literal.length encoded')) ∨
    (site.place.before.length + 1 + site.place.literal.length < target.place.before.length + 1 ∧
      renderUpdate (site.place.replaced encoded) other value' =
        .ok (splice (site.place.replaced encoded)
          (target.place.before.length + 1 - site.place.literal.length + encoded.length) target.place.literal.length encoded')) := by
  have hNew := literalBody_encoded site.quote_isQuote hEncoded
  obtain ⟨moved, hMoved⟩ := site.place.exists_moved hNew target.unique
  have hConditional : moved.call.conditional = false := by
    rw [hMoved]
    exact target.unconditional
  rcases site.place.span_moved_other target.place (site.call_other target hField) hMoved with ⟨hLt, hSpan⟩ | ⟨hLt, hSpan⟩
  · exact .inl ⟨hLt, renderUpdate_of_unique moved hConditional hSpan hEncoded'⟩
  · exact .inr ⟨hLt, renderUpdate_of_unique moved hConditional hSpan hEncoded'⟩

end UpdateSite

/-- Two fields are updated in either order with the same content. -/
theorem renderUpdate_comm {content value value' out out' : Bytes} {field field' : WordPressConfigUpdateField} (hField : field ≠ field')
    (h : renderUpdate content field value = .ok out) (h' : renderUpdate content field' value' = .ok out') :
    ∃ both, renderUpdate out field' value' = .ok both ∧ renderUpdate out' field value = .ok both := by
  obtain ⟨site, encoded, hEncoded, rfl⟩ := UpdateSite.exists_of_update h
  obtain ⟨site', encoded', hEncoded', rfl⟩ := UpdateSite.exists_of_update h'
  rcases site.update_other site' hField.symm hEncoded hEncoded' with ⟨hLt, hFirst⟩ | ⟨hLt, hFirst⟩
  · rcases site'.update_other site hField hEncoded' hEncoded with ⟨hNot, -⟩ | ⟨-, hSecond⟩
    · omega
    · refine ⟨_, hFirst, ?_⟩
      rw [hSecond]
      exact congrArg _ (splice_comm hLt.le site.end_le encoded' encoded)
  · rcases site'.update_other site hField hEncoded' hEncoded with ⟨-, hSecond⟩ | ⟨hNot, -⟩
    · refine ⟨_, hFirst, ?_⟩
      rw [hSecond]
      exact congrArg _ (splice_comm hLt.le site'.end_le encoded encoded').symm
    · omega

/-- An update that was made already changes nothing. -/
theorem renderUpdate_idem {content value out : Bytes} {field : WordPressConfigUpdateField} (h : renderUpdate content field value = .ok out) :
    renderUpdate out field value = .ok out := by
  obtain ⟨site, encoded, hEncoded, rfl⟩ := UpdateSite.exists_of_update h
  exact site.update_again hEncoded hEncoded

/-- The bytes that an update leaves alone: all but the literal in the value argument of the one
call that defines the constant. -/
structure KeepsRest (content : Bytes) (field : WordPressConfigUpdateField) (out : Bytes) (arg : PhpArgumentSpan)
    (span : PhpLiteralValueSpan) (encoded : Bytes) : Prop where
  argument : ∃ call ∈ findPhpDefineCalls content, valueArgument (wordpressUpdateFieldName field) call = some arg
  literal : phpLiteralValueSpan arg = some span
  inside : span.valueStart ≤ span.valueEnd ∧ span.valueEnd ≤ content.length
  before : out.take span.valueStart = content.take span.valueStart
  new : (out.drop span.valueStart).take encoded.length = encoded
  behind : out.drop (span.valueStart + encoded.length) = content.drop span.valueEnd

theorem renderUpdate_keepsRest {content value out : Bytes} {field : WordPressConfigUpdateField}
    (h : renderUpdate content field value = .ok out) :
    ∃ arg span encoded, encodePhpLiteralValue value span.quote = some encoded ∧ KeepsRest content field out arg span encoded := by
  obtain ⟨site, encoded, hEncoded, rfl⟩ := UpdateSite.exists_of_update h
  obtain ⟨front, literal, behind, hContent, hStart, hLength⟩ := exists_split site.end_le
  have hReplaced : site.place.replaced encoded = front ++ (encoded ++ behind) := by
    rw [ContentSite.replaced, ← hStart, ← hLength]
    conv_lhs => rw [hContent]
    exact splice_append front literal behind encoded
  have hTake : content.take (site.place.before.length + 1) = front :=
    (congrArg (List.take _) hContent).trans (by rw [← hStart, List.take_left])
  have hDrop : content.drop (site.place.before.length + 1 + site.place.literal.length) = behind :=
    (congrArg (List.drop _) hContent).trans (by rw [← hStart, ← hLength, ← List.append_assoc, ← List.length_append, List.drop_left])
  refine ⟨site.unique.arg, _, encoded, hEncoded, ⟨site.unique.call, site.unique.mem_calls, site.unique.arg_eq⟩, site.place.span_eq,
    ⟨Nat.le_add_right _ _, site.end_le⟩, ?_, ?_, ?_⟩
  · rw [hTake, hReplaced, ← hStart, List.take_left]
  · rw [hReplaced, ← hStart, List.drop_left, List.take_left]
  · rw [hDrop, hReplaced, ← hStart, ← List.append_assoc, ← List.length_append, List.drop_left]

/-- Updates of fields that are all different, each of which can be made, are made with one result
in any order. -/
theorem renderUpdates_perm {updates updates' : List WordPressConfigFieldUpdate} (h : updates.Perm updates') {content : Bytes}
    (hFields : (updates.map WordPressConfigFieldUpdate.field).Nodup)
    (hEach : ∀ update ∈ updates, ∃ out, renderUpdate content update.field update.value = .ok out) :
    renderUpdates content updates = renderUpdates content updates' := by
  induction h generalizing content with
  | nil => rfl
  | cons update hPerm ih =>
      obtain ⟨hNew, hFields⟩ := List.nodup_cons.mp hFields
      obtain ⟨out, hOut⟩ := hEach update List.mem_cons_self
      rw [renderUpdates, renderUpdates, hOut]
      refine ih hFields fun other hOther => ?_
      obtain ⟨out', hOut'⟩ := hEach other (List.mem_cons_of_mem _ hOther)
      have hField : update.field ≠ other.field := fun hSame => hNew (hSame ▸ List.mem_map_of_mem hOther)
      obtain ⟨both, hBoth, -⟩ := renderUpdate_comm hField hOut hOut'
      exact ⟨both, hBoth⟩
  | swap first second rest =>
      obtain ⟨out, hOut⟩ := hEach second List.mem_cons_self
      obtain ⟨out', hOut'⟩ := hEach first (by simp)
      have hField : second.field ≠ first.field := by
        intro hSame
        simp [hSame] at hFields
      obtain ⟨both, hBoth, hBoth'⟩ := renderUpdate_comm hField hOut hOut'
      simp only [renderUpdates, hOut, hOut', hBoth, hBoth']
  | trans hFirst hSecond ih ih' =>
      rw [ih hFields hEach]
      exact ih' ((hFirst.map _).nodup_iff.mp hFields) fun update hUpdate => hEach update (hFirst.mem_iff.mpr hUpdate)

/-- Updates of different fields, each of which can be made, can be made one after the other. -/
theorem renderUpdates_ok {updates : List WordPressConfigFieldUpdate} {content : Bytes}
    (hFields : (updates.map WordPressConfigFieldUpdate.field).Nodup)
    (hEach : ∀ update ∈ updates, ∃ out, renderUpdate content update.field update.value = .ok out) :
    ∃ out, renderUpdates content updates = .ok out := by
  induction updates generalizing content with
  | nil => exact ⟨content, rfl⟩
  | cons update updates ih =>
      obtain ⟨hNew, hFields⟩ := List.nodup_cons.mp hFields
      obtain ⟨out, hOut⟩ := hEach update List.mem_cons_self
      rw [renderUpdates, hOut]
      refine ih hFields fun other hOther => ?_
      obtain ⟨out', hOut'⟩ := hEach other (List.mem_cons_of_mem _ hOther)
      have hField : update.field ≠ other.field := fun hSame => hNew (hSame ▸ List.mem_map_of_mem hOther)
      obtain ⟨both, hBoth, -⟩ := renderUpdate_comm hField hOut hOut'
      exact ⟨both, hBoth⟩

/-- Updates of fields that are all different, each of which can be made, are all made, and with
one result in every order. -/
theorem renderUpdates_anyOrder {updates : List WordPressConfigFieldUpdate} {content : Bytes}
    (hFields : (updates.map WordPressConfigFieldUpdate.field).Nodup)
    (hEach : ∀ update ∈ updates, ∃ out, renderUpdate content update.field update.value = .ok out) :
    ∃ out, ∀ updates', updates.Perm updates' → renderUpdates content updates' = .ok out := by
  obtain ⟨out, hOut⟩ := renderUpdates_ok hFields hEach
  exact ⟨out, fun updates' hPerm => (renderUpdates_perm hPerm hFields hEach).symm.trans hOut⟩

theorem renderUpdates_anyOrder_nameUser :
    ∃ out, ∀ updates', [⟨.dbName, bytes "shop"⟩, ⟨.dbUser, bytes "o'neil"⟩].Perm updates' →
      renderUpdates (bytes "define('DB_NAME','a'); define( \"DB_USER\", \"b\" );") updates' = .ok out := by
  refine renderUpdates_anyOrder (by decide) ?_
  simp only [List.forall_mem_cons, List.not_mem_nil, false_imp_iff, implies_true, and_true]
  constructor
  · refine ⟨bytes "define('DB_NAME','shop'); define( \"DB_USER\", \"b\" );", ?_⟩
    repeat rw [bytes_ofList]
    decide +kernel
  · refine ⟨bytes "define('DB_NAME','a'); define( \"DB_USER\", \"o'neil\" );", ?_⟩
    repeat rw [bytes_ofList]
    decide +kernel

/-- Updates compose: those of two fields in either order, one made twice is one, and each leaves
every byte outside of its literal. -/
theorem updates_compose (content : Bytes) :
    (∀ field field' value value' out out', field ≠ field' → renderUpdate content field value = .ok out →
      renderUpdate content field' value' = .ok out' →
      ∃ both, renderUpdate out field' value' = .ok both ∧ renderUpdate out' field value = .ok both) ∧
    (∀ field value out, renderUpdate content field value = .ok out → renderUpdate out field value = .ok out) ∧
    ∀ field value out, renderUpdate content field value = .ok out →
      ∃ arg span encoded, encodePhpLiteralValue value span.quote = some encoded ∧ KeepsRest content field out arg span encoded :=
  ⟨fun _ _ _ _ _ _ hField h h' => renderUpdate_comm hField h h', fun _ _ _ h => renderUpdate_idem h,
    fun _ _ _ h => renderUpdate_keepsRest h⟩

end ContainerCP.Wordpress
