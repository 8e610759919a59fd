import ContainerCP.Storage.MigrationOrchestrator

/-! The activation state from the migration that writes it to the start that reads it. -/
namespace ContainerCP.Storage

open Json (quote backslash)
open ActivationState

/-! ## What the parser makes of an escaped text -/

/-- A byte that the writer leaves as it is or escapes, and the parser reads again. -/
def isPlain (c : UInt8) : Bool := 32 ≤ c && c < 128

/-- What the parser reads for an escaped byte. -/
def readBack (c : UInt8) : Bytes := if c < 128 then [c] else [0xEF, 0xBF, 0xBF, ascii 'F']

theorem readBack_of_isPlain {c : UInt8} (h : isPlain c = true) : readBack c = [c] := by
  rw [isPlain, Bool.and_eq_true, decide_eq_true_eq, decide_eq_true_eq] at h
  exact if_pos h.2

theorem forall_byte {P : UInt8 → Prop} (h : ∀ n < 256, P (UInt8.ofNat n)) (c : UInt8) : P c := by
  have hByte := h c.toNat c.toNat_lt
  rwa [UInt8.ofNat_toNat] at hByte

/-- A byte below 128 stays, or its escape is read as that byte again. -/
theorem jsonEscapeByte_ascii : ∀ c : UInt8, c < 128 →
    (jsonEscapeByte c = [c] ∧ isPlain c = true ∧ c ≠ quote ∧ c ≠ backslash) ∨
      ((jsonEscapeByte c).head? = some backslash ∧ readEscape (jsonEscapeByte c).tail = some ([c], [])) :=
  forall_byte (by decide +kernel)

/-- Of the escape of a byte above 127 the buffer keeps five digits. -/
theorem jsonEscapeByte_high : ∀ c : UInt8, 128 ≤ c → jsonEscapeByte c = bytes "\\uFFFFF" :=
  forall_byte (by decide +kernel)

theorem readUnit_append {text out behind : Bytes} (h : readUnit text = some (out, behind)) (rest : Bytes) :
    readUnit (text ++ rest) = some (out, behind ++ rest) := by
  rcases text with _ | ⟨a, _ | ⟨b, _ | ⟨c, _ | ⟨d, text⟩⟩⟩⟩
  · cases h
  · cases h
  · cases h
  · cases h
  · simp only [readUnit, List.cons_append] at h ⊢
    split at h
    · split at h
      · cases h
      · obtain ⟨rfl, rfl⟩ := Prod.mk.inj (Option.some.inj h)
        simp [*]
    · cases h

theorem readEscape_append {text out behind : Bytes} (h : readEscape text = some (out, behind)) (rest : Bytes) :
    readEscape (text ++ rest) = some (out, behind ++ rest) := by
  cases text with
  | nil => cases h
  | cons c text =>
      by_cases hUnit : c = ascii 'u'
      · subst hUnit
        exact readUnit_append h rest
      · simp only [readEscape, List.cons_append, if_neg hUnit] at h ⊢
        split_ifs at h ⊢ with h1 h2 h3 h4 h5 h6
        all_goals
          obtain ⟨rfl, rfl⟩ := Prod.mk.inj (Option.some.inj h)
          rfl

/-- The loop takes what stands for one byte in one turn, or in two. -/
theorem readString_byte (c : UInt8) :
    ∃ turns ≤ (jsonEscapeByte c).length, ∀ fuel out rest,
      readString (fuel + turns) out (jsonEscapeByte c ++ rest) = readString fuel (out ++ readBack c) rest := by
  by_cases hAscii : c < 128
  · have hBack : readBack c = [c] := if_pos hAscii
    rcases jsonEscapeByte_ascii c hAscii with ⟨hEscape, hPlain, hQuote, hBackslash⟩ | ⟨hHead, hRead⟩
    · have hControl : ¬c < 32 := by
        rw [isPlain, Bool.and_eq_true, decide_eq_true_eq] at hPlain
        exact UInt8.not_lt.mpr hPlain.1
      have hZero : c ≠ 0 := by
        rintro rfl
        exact hControl (by decide)
      refine ⟨1, by simp [hEscape], fun fuel out rest => ?_⟩
      rw [hEscape, hBack, List.singleton_append, readString, if_neg hQuote, if_neg hZero, if_neg hBackslash,
        if_neg hControl]
    · obtain ⟨tail, hEscape⟩ : ∃ tail, jsonEscapeByte c = backslash :: tail := by
        cases hList : jsonEscapeByte c with
        | nil => simp [hList] at hHead
        | cons d tail =>
            rw [hList] at hHead
            exact ⟨tail, by rw [Option.some.inj hHead]⟩
      rw [hEscape] at hRead ⊢
      refine ⟨1, by simp, fun fuel out rest => ?_⟩
      have hMore := readEscape_append hRead rest
      rw [List.cons_append, readString, if_neg (by decide), if_neg (by decide), if_pos rfl]
      rw [List.tail_cons, List.nil_append] at hMore
      rw [hMore, hBack]
  · have hBack : readBack c = [0xEF, 0xBF, 0xBF, ascii 'F'] := if_neg hAscii
    have hEscape := jsonEscapeByte_high c (UInt8.not_lt.mp hAscii)
    have hText : bytes "\\uFFFFF" = [backslash, ascii 'u', ascii 'F', ascii 'F', ascii 'F', ascii 'F', ascii 'F'] := by
      decide
    have hRead (rest : Bytes) : readEscape (ascii 'u' :: ascii 'F' :: ascii 'F' :: ascii 'F' :: ascii 'F' ::
        ascii 'F' :: rest) = some ([0xEF, 0xBF, 0xBF], ascii 'F' :: rest) := by
      have hAlone : readEscape [ascii 'u', ascii 'F', ascii 'F', ascii 'F', ascii 'F', ascii 'F'] =
          some ([0xEF, 0xBF, 0xBF], [ascii 'F']) := by decide
      exact readEscape_append hAlone rest
    rw [hEscape, hBack, hText]
    refine ⟨2, by simp, fun fuel out rest => ?_⟩
    rw [List.cons_append, readString, if_neg (by decide), if_neg (by decide), if_pos rfl]
    simp only [List.cons_append, List.nil_append, hRead]
    rw [readString, if_neg (by decide), if_neg (by decide), if_neg (by decide), if_neg (by decide), List.append_assoc]
    rfl

/-- The loop takes an escaped text up to its quote, with fuel for each byte of it. -/
theorem readString_jsonEscape (text : Bytes) (fuel : Nat) (out rest : Bytes) :
    readString (fuel + (jsonEscape text).length + 1) out (jsonEscape text ++ quote :: rest) =
      some (out ++ text.flatMap readBack, rest) := by
  induction text generalizing fuel out with
  | nil => simp [jsonEscape, readString]
  | cons c text ih =>
      obtain ⟨turns, hTurns, hByte⟩ := readString_byte c
      have hSplit : jsonEscape (c :: text) = jsonEscapeByte c ++ jsonEscape text := List.flatMap_cons
      have hFuel : fuel + (jsonEscape (c :: text)).length + 1 =
          fuel + ((jsonEscapeByte c).length - turns) + (jsonEscape text).length + 1 + turns := by
        rw [hSplit, List.length_append]
        omega
      rw [hFuel, hSplit, List.append_assoc, hByte, ih, List.flatMap_cons, List.append_assoc]

theorem parseString_jsonEscape (text rest : Bytes) :
    parseString (quote :: (jsonEscape text ++ quote :: rest)) = some (text.flatMap readBack, rest) := by
  have hFuel : (jsonEscape text ++ quote :: rest).length + 1 = rest.length + 1 + (jsonEscape text).length + 1 := by
    simp
    omega
  rw [parseString, if_pos rfl, hFuel, readString_jsonEscape, List.nil_append]

/-! ## Plain texts -/

def Plain (text : Bytes) : Prop := ∀ c ∈ text, isPlain c = true

instance (text : Bytes) : Decidable (Plain text) := List.decidableBAll _ text

theorem Plain.readBack_eq {text : Bytes} (h : Plain text) : text.flatMap readBack = text := by
  induction text with
  | nil => rfl
  | cons c text ih =>
      rw [List.flatMap_cons, readBack_of_isPlain (h c List.mem_cons_self), ih fun d hd => h d (List.mem_cons_of_mem _ hd),
        List.singleton_append]

/-- A byte above 127 comes back as four. -/
theorem length_le_readBack (text : Bytes) : text.length ≤ (text.flatMap readBack).length := by
  induction text with
  | nil => simp
  | cons c text ih =>
      have hByte : 1 ≤ (readBack c).length := by
        rw [readBack]
        split <;> simp
      rw [List.flatMap_cons, List.length_append, List.length_cons]
      omega

theorem ascii_of_readBack_eq {text : Bytes} (h : text.flatMap readBack = text) : ∀ c ∈ text, c < 128 := by
  induction text with
  | nil => simp
  | cons c text ih =>
      by_cases hAscii : c < 128
      · have hBack : readBack c = [c] := if_pos hAscii
        rw [List.flatMap_cons, hBack, List.singleton_append, List.cons_inj_right] at h
        intro d hd
        rcases List.mem_cons.mp hd with rfl | hd
        · exact hAscii
        · exact ih h d hd
      · have hBack : readBack c = [0xEF, 0xBF, 0xBF, ascii 'F'] := if_neg hAscii
        have hLength := congrArg List.length h
        have hRest := length_le_readBack text
        rw [List.flatMap_cons, hBack, List.length_append, List.length_cons] at hLength
        simp only [List.length_cons, List.length_nil] at hLength
        omega

/-- The texts that the parser refuses for a value: the empty one, and those with a control
character. -/
def Refused (text : Bytes) : Prop := text = [] ∨ ∃ c ∈ text, c < 32

instance (text : Bytes) : Decidable (Refused text) := inferInstanceAs (Decidable (_ ∨ _))

/-- What a required string is read as: the empty text and control characters are refused. -/
theorem parseRequiredString_jsonEscape (text rest : Bytes) :
    parseRequiredString (quote :: (jsonEscape text ++ quote :: rest)) =
      if Refused text then none else some (text.flatMap readBack, rest) := by
  have hEmpty : text.flatMap readBack = [] ↔ text = [] := by
    constructor
    · intro h
      have hLength := length_le_readBack text
      rw [h, List.length_nil] at hLength
      exact List.length_eq_zero_iff.mp (Nat.le_zero.mp hLength)
    · rintro rfl
      rfl
  have hControl : (text.flatMap readBack).any (· < 32) = true ↔ ∃ c ∈ text, c < 32 := by
    simp only [List.any_flatMap, List.any_eq_true, decide_eq_true_eq]
    constructor
    · rintro ⟨c, hc, d, hd, hLt⟩
      rw [readBack] at hd
      split at hd
      · exact ⟨c, hc, List.mem_singleton.mp hd ▸ hLt⟩
      · have hHigh : ∀ d ∈ [0xEF, 0xBF, 0xBF, ascii 'F'], ¬d < (32 : UInt8) := by decide +kernel
        exact absurd hLt (hHigh d hd)
    · rintro ⟨c, hc, hLt⟩
      refine ⟨c, hc, c, ?_, hLt⟩
      have hAscii : c < 128 := UInt8.lt_of_lt_of_le hLt (by decide)
      rw [readBack, if_pos hAscii]
      exact List.mem_singleton_self c
  have hCondition : (decide (text.flatMap readBack = []) || (text.flatMap readBack).any (· < 32)) = true ↔
      Refused text := by
    rw [Bool.or_eq_true, decide_eq_true_eq, hEmpty, hControl, Refused]
  rw [parseRequiredString, parseString_jsonEscape]
  simp only [hCondition]

/-! ## The members of the file -/

/-- What stands in front of a key. -/
def lead (first : Bool) : Bytes := if first then bytes "\n    " else bytes ",\n    "

/-- What stands behind a key. -/
def afterKey (value : Bytes) : Bytes := quote :: ascii ':' :: ascii ' ' :: value

theorem skipWs_lead (first : Bool) (text : Bytes) :
    (skipWs (lead first ++ quote :: text) = (if first then [] else bytes ",\n    ") ++ quote :: text) := by
  cases first with
  | true => rfl
  | false => rfl

/-- One turn of the loop reads a key of plain bytes and its value. -/
theorem parseMembers_line {fuel : Nat} {first : Bool} {seen : List Bytes} {state : ActivationState} {key value : Bytes}
    (hEscape : jsonEscape key = key) (hPlain : Plain key) (hNew : key ∉ seen) (hValue : skipWs value = value) :
    parseMembers (fuel + 1) first seen state (lead first ++ quote :: (key ++ afterKey value)) =
      match parseMember key state value with
      | none => none
      | some (state, rest) => parseMembers fuel false (key :: seen) state rest := by
  have hString : parseString (quote :: (key ++ afterKey value)) = some (key, ascii ':' :: ascii ' ' :: value) := by
    have hParse := parseString_jsonEscape key (ascii ':' :: ascii ' ' :: value)
    rwa [hEscape, hPlain.readBack_eq] at hParse
  have hColon : skipByte (ascii ':') (skipWs (ascii ':' :: ascii ' ' :: value)) = some (ascii ' ' :: value) := by
    rw [skipWs, List.dropWhile_cons_of_neg (by decide)]
    rfl
  have hSpace : skipWs (ascii ' ' :: value) = value := by
    rw [skipWs, List.dropWhile_cons_of_pos (by decide)]
    exact hValue
  have hStart : (if first then some (skipWs (lead first ++ quote :: (key ++ afterKey value)))
      else separator (skipWs (lead first ++ quote :: (key ++ afterKey value)))) =
      some (quote :: (key ++ afterKey value)) := by
    rw [skipWs_lead]
    cases first with
    | true => rfl
    | false => rfl
  have hOpen : peek (skipWs (lead first ++ quote :: (key ++ afterKey value))) ≠ ascii '\x7d' := by
    rw [skipWs_lead]
    cases first with
    | true => exact show quote ≠ ascii '\x7d' by decide
    | false => exact show ascii ',' ≠ ascii '\x7d' by decide
  rw [parseMembers, if_neg hOpen, hStart]
  dsimp only
  rw [hString]
  dsimp only
  rw [if_neg hNew, hColon]
  cases hMember : parseMember key state value with
  | none => simp only [hSpace, hMember]
  | some result => simp only [hSpace, hMember]

theorem skipWs_quote (text : Bytes) : skipWs (quote :: text) = quote :: text :=
  List.dropWhile_cons_of_neg (by decide)

theorem Plain.not_refused {text : Bytes} (h : Plain text) (hNe : text ≠ []) : ¬Refused text := by
  rintro (hNil | ⟨c, hc, hLt⟩)
  · exact hNe hNil
  · have hPlain := h c hc
    rw [isPlain, Bool.and_eq_true, decide_eq_true_eq] at hPlain
    exact absurd hLt (UInt8.not_lt.mpr hPlain.1)

theorem stringMember_refused {text : Bytes} (h : Refused text) (rest : Bytes) (valid : Bytes → Bool)
    (set : Bytes → ActivationState) : stringMember (quote :: (jsonEscape text ++ quote :: rest)) valid set = none := by
  rw [stringMember, parseRequiredString_jsonEscape, if_pos h]

theorem stringMember_read {text : Bytes} (h : ¬Refused text) (rest : Bytes) {valid : Bytes → Bool}
    (set : Bytes → ActivationState) (hValid : valid (text.flatMap readBack) = true) :
    stringMember (quote :: (jsonEscape text ++ quote :: rest)) valid set =
      some (set (text.flatMap readBack), rest) := by
  rw [stringMember, parseRequiredString_jsonEscape, if_neg h]
  exact if_pos hValid

theorem textLine_append (key : String) (text rest : Bytes) :
    bytes ",\n" ++ (textLine key text ++ rest) =
      lead false ++ quote :: (bytes key ++ afterKey (quote :: (text ++ quote :: rest))) := by
  have hLead : bytes ",\n" ++ bytes "    \"" = lead false ++ [quote] := by decide
  have hColon : bytes "\": \"" = [quote, ascii ':', ascii ' ', quote] := by decide
  have hClose : bytes "\"" = [quote] := by decide
  rw [textLine, hColon, hClose]
  simp only [List.append_assoc]
  rw [← List.append_assoc, hLead]
  simp [afterKey]

/-- A key that needs no escape. -/
structure IsKey (key : Bytes) : Prop where
  escape : jsonEscape key = key
  plain : Plain key

instance (key : Bytes) : Decidable (IsKey key) :=
  decidable_of_iff (jsonEscape key = key ∧ Plain key) ⟨fun h => ⟨h.1, h.2⟩, fun h => ⟨h.1, h.2⟩⟩

section Lines

variable {fuel : Nat} {seen : List Bytes} {state state' : ActivationState} {key : String} {text rest : Bytes}

/-- One turn of the loop reads a line with a text. -/
theorem parseMembers_textLine (hKey : IsKey (bytes key)) (hNew : bytes key ∉ seen)
    (hMember : parseMember (bytes key) state (quote :: (jsonEscape text ++ quote :: rest)) = some (state', rest)) :
    parseMembers (fuel + 1) false seen state (bytes ",\n" ++ (textLine key (jsonEscape text) ++ rest)) =
      parseMembers fuel false (bytes key :: seen) state' rest := by
  rw [textLine_append, parseMembers_line hKey.escape hKey.plain hNew (skipWs_quote _), hMember]

theorem parseMembers_textLine_none (hKey : IsKey (bytes key)) (hNew : bytes key ∉ seen)
    (hMember : parseMember (bytes key) state (quote :: (jsonEscape text ++ quote :: rest)) = none) :
    parseMembers (fuel + 1) false seen state (bytes ",\n" ++ (textLine key (jsonEscape text) ++ rest)) = none := by
  rw [textLine_append, parseMembers_line hKey.escape hKey.plain hNew (skipWs_quote _), hMember]

end Lines

section Keys

variable (state : ActivationState) (text : Bytes)

theorem parseMember_stateVersion : parseMember (bytes "state_version") state text =
    intMember text (· = 1) fun value => { state with stateVersion := value } := by
  unfold parseMember
  rw [if_pos rfl]

theorem parseMember_schemaVersion : parseMember (bytes "schema_version") state text =
    intMember text (1 ≤ ·) fun value => { state with schemaVersion := value } := by
  unfold parseMember
  rw [if_neg (by decide), if_pos rfl]

theorem parseMember_activeBackend : parseMember (bytes "active_backend") state text =
    stringMember text (· = bytes "sqlite") fun value => { state with activeBackend := value } := by
  unfold parseMember
  rw [if_neg (by decide), if_neg (by decide), if_pos rfl]

theorem parseMember_migrationId : parseMember (bytes "migration_id") state text =
    stringMember text (fun _ => true) fun value => { state with migrationId := value } := by
  unfold parseMember
  rw [if_neg (by decide), if_neg (by decide), if_neg (by decide), if_pos rfl]

theorem parseMember_databasePath : parseMember (bytes "database_path") state text =
    stringMember text (fun _ => true) fun value => { state with databasePath := value } := by
  unfold parseMember
  rw [if_neg (by decide), if_neg (by decide), if_neg (by decide), if_neg (by decide), if_pos rfl]

theorem parseMember_archivePath : parseMember (bytes "archive_path") state text =
    stringMember text (fun _ => true) fun value => { state with archivePath := value } := by
  unfold parseMember
  rw [if_neg (by decide), if_neg (by decide), if_neg (by decide), if_neg (by decide), if_neg (by decide), if_pos rfl]

theorem parseMember_sourceVersion : parseMember (bytes "source_version") state text =
    stringMember text safeVersion fun value => { state with sourceVersion := value } := by
  unfold parseMember
  rw [if_neg (by decide), if_neg (by decide), if_neg (by decide), if_neg (by decide), if_neg (by decide), if_neg (by decide), if_pos rfl]

theorem parseMember_targetVersion : parseMember (bytes "target_version") state text =
    stringMember text safeVersion fun value => { state with targetVersion := value } := by
  unfold parseMember
  rw [if_neg (by decide), if_neg (by decide), if_neg (by decide), if_neg (by decide), if_neg (by decide), if_neg (by decide), if_neg (by decide), if_pos rfl]

theorem parseMember_activationTimestamp : parseMember (bytes "activation_timestamp") state text =
    stringMember text validTimestamp fun value => { state with activationTimestamp := value } := by
  unfold parseMember
  rw [if_neg (by decide), if_neg (by decide), if_neg (by decide), if_neg (by decide), if_neg (by decide), if_neg (by decide), if_neg (by decide), if_neg (by decide), if_pos rfl]

theorem parseMember_verificationResult : parseMember (bytes "verification_result") state text =
    stringMember text (· = bytes "success") fun value => { state with verificationResult := value } := by
  unfold parseMember
  rw [if_neg (by decide), if_neg (by decide), if_neg (by decide), if_neg (by decide), if_neg (by decide), if_neg (by decide), if_neg (by decide), if_neg (by decide), if_neg (by decide), if_pos rfl]

end Keys

/-- What is read of the file. -/
def readState (migrationId databasePath archivePath sourceVersion targetVersion timestamp : Bytes) : ActivationState where
  stateVersion := 1
  schemaVersion := 7
  activeBackend := bytes "sqlite"
  migrationId := migrationId
  databasePath := databasePath.flatMap readBack
  archivePath := archivePath.flatMap readBack
  sourceVersion := sourceVersion
  targetVersion := targetVersion
  activationTimestamp := timestamp
  verificationResult := bytes "success"

/-- The end of the file closes the object. -/
theorem parseMembers_end (fuel : Nat) (seen : List Bytes) (state : ActivationState) :
    parseMembers (fuel + 1) false seen state (bytes "\n\x7d\n") = some (seen, state, bytes "\n") := by
  have hSkip : skipWs (bytes "\n\x7d\n") = bytes "\x7d\n" := by decide
  rw [parseMembers, hSkip]
  rfl

theorem stringMember_plain {text : Bytes} (h : Plain text) (hNe : text ≠ []) (rest : Bytes) {valid : Bytes → Bool}
    (set : Bytes → ActivationState) (hValid : valid text = true) :
    stringMember (quote :: (jsonEscape text ++ quote :: rest)) valid set = some (set text, rest) := by
  have hBack : valid (text.flatMap readBack) = true := by rwa [h.readBack_eq]
  have hRead := stringMember_read (h.not_refused hNe) rest set hBack
  rwa [h.readBack_eq] at hRead

theorem intMember_digit {value : Int} {text rest : Bytes} (hInt : ActivationState.parseInt text = some (value, rest))
    {valid : Int → Bool} (set : Int → ActivationState) (hValid : valid value = true) :
    intMember text valid set = some (set value, rest) := by
  rw [intMember, hInt]
  exact if_pos hValid

theorem safeVersion_ne_nil {version : Bytes} (h : safeVersion version = true) : version ≠ [] := by
  rintro rfl
  exact absurd h (by decide)

theorem validTimestamp_ne_nil {timestamp : Bytes} (h : validTimestamp timestamp = true) : timestamp ≠ [] := by
  rintro rfl
  exact absurd h (by decide)

/-- The lines behind the paths, which are read whatever the paths are. -/
theorem parseMembers_versions {sourceVersion targetVersion timestamp : Bytes}
    (hSource : Plain sourceVersion ∧ safeVersion sourceVersion = true)
    (hTarget : Plain targetVersion ∧ safeVersion targetVersion = true)
    (hTime : Plain timestamp ∧ validTimestamp timestamp = true) (fuel : Nat) (state : ActivationState) :
    parseMembers (fuel + 6) false
        [bytes "archive_path", bytes "database_path", bytes "migration_id", bytes "active_backend",
          bytes "state_version"] state
        (bytes ",\n" ++ (textLine "source_version" (jsonEscape sourceVersion) ++
          (bytes ",\n" ++ (textLine "target_version" (jsonEscape targetVersion) ++
            (bytes ",\n" ++ (textLine "activation_timestamp" (jsonEscape timestamp) ++
              (bytes ",\n" ++ (numberLine "schema_version" "7" ++
                (bytes ",\n" ++ (textLine "verification_result" (jsonEscape (bytes "success")) ++
                  bytes "\n\x7d\n")))))))))) =
      some ([bytes "verification_result", bytes "schema_version", bytes "activation_timestamp",
          bytes "target_version", bytes "source_version", bytes "archive_path", bytes "database_path",
          bytes "migration_id", bytes "active_backend", bytes "state_version"],
        { state with
          sourceVersion := sourceVersion
          targetVersion := targetVersion
          activationTimestamp := timestamp
          schemaVersion := 7
          verificationResult := bytes "success" }, bytes "\n") := by
  have hNumber : ∀ rest, bytes ",\n" ++ (numberLine "schema_version" "7" ++ rest) =
      lead false ++ quote :: (bytes "schema_version" ++ afterKey (bytes "7" ++ rest)) := by
    intro rest
    have hText : bytes ",\n" ++ numberLine "schema_version" "7" =
        lead false ++ quote :: (bytes "schema_version" ++ afterKey (bytes "7")) := by
      decide
    rw [← List.append_assoc, hText]
    simp [afterKey]
  have hSeven : ∀ rest, ActivationState.parseInt (bytes "7" ++ (bytes ",\n" ++ rest)) = some (7, bytes ",\n" ++ rest) := fun _ => rfl
  have hWs : ∀ rest, skipWs (bytes "7" ++ rest) = bytes "7" ++ rest := fun _ => rfl
  rw [parseMembers_textLine (by decide) (by decide)
    ((parseMember_sourceVersion _ _).trans
      (stringMember_plain hSource.1 (safeVersion_ne_nil hSource.2) _ _ hSource.2))]
  rw [parseMembers_textLine (by decide) (by decide)
    ((parseMember_targetVersion _ _).trans
      (stringMember_plain hTarget.1 (safeVersion_ne_nil hTarget.2) _ _ hTarget.2))]
  rw [parseMembers_textLine (by decide) (by decide)
    ((parseMember_activationTimestamp _ _).trans
      (stringMember_plain hTime.1 (validTimestamp_ne_nil hTime.2) _ _ hTime.2))]
  rw [hNumber, parseMembers_line (by decide) (by decide) (by decide) (hWs _),
    parseMember_schemaVersion, intMember_digit (hSeven _) _ (by decide)]
  dsimp only
  rw [parseMembers_textLine (by decide) (by decide)
    ((parseMember_verificationResult _ _).trans
      (stringMember_plain (by decide) (by decide) _ _ (by decide)))]
  rw [parseMembers_end]

theorem parse_activationStateJson {migrationId sourceVersion targetVersion timestamp : Bytes}
    (hId : Plain migrationId ∧ migrationId ≠ []) (hSource : Plain sourceVersion ∧ safeVersion sourceVersion = true)
    (hTarget : Plain targetVersion ∧ safeVersion targetVersion = true)
    (hTime : jsonEscape timestamp = timestamp ∧ Plain timestamp ∧ validTimestamp timestamp = true)
    (databasePath archivePath : Bytes) :
    parse (activationStateJson migrationId databasePath archivePath sourceVersion targetVersion timestamp) =
      if Refused databasePath ∨ Refused archivePath then none
      else some (readState migrationId databasePath archivePath sourceVersion targetVersion timestamp) := by
  have hOpen : ∀ rest, bytes "\x7b\n" ++ (numberLine "state_version" "1" ++ rest) =
      ascii '\x7b' :: (lead true ++ quote :: (bytes "state_version" ++ afterKey (bytes "1" ++ rest))) := by
    intro rest
    have hText : bytes "\x7b\n" ++ numberLine "state_version" "1" =
        ascii '\x7b' :: (lead true ++ quote :: (bytes "state_version" ++ afterKey (bytes "1"))) := by
      decide
    rw [← List.append_assoc, hText]
    simp [afterKey]
  have hOne : ∀ rest, ActivationState.parseInt (bytes "1" ++ (bytes ",\n" ++ rest)) = some (1, bytes ",\n" ++ rest) := fun _ => rfl
  have hWs : ∀ rest, skipWs (bytes "1" ++ rest) = bytes "1" ++ rest := fun _ => rfl
  have hBackend : bytes "sqlite" = jsonEscape (bytes "sqlite") := by decide
  have hResult : bytes "success" = jsonEscape (bytes "success") := by decide
  have hStamp : textLine "activation_timestamp" timestamp = textLine "activation_timestamp" (jsonEscape timestamp) := by
    rw [hTime.1]
  unfold activationStateJson
  simp only [List.append_assoc]
  rw [hOpen, hStamp, hBackend, hResult]
  generalize hBody : lead true ++ quote :: _ = body
  -- the fuel is enough for the ten members and the end
  obtain ⟨fuel, hFuel⟩ : ∃ fuel, body.length + 1 = fuel + 11 := by
    refine ⟨body.length - 10, ?_⟩
    have hLong : 10 ≤ body.length := by
      have hKey : (bytes "state_version").length = 13 := by decide
      rw [← hBody, List.length_append, List.length_cons, List.length_append, hKey]
      omega
    omega
  have hStart : skipByte (ascii '\x7b') (skipWs (ascii '\x7b' :: body)) = some body := by
    rw [skipWs, List.dropWhile_cons_of_neg (by decide)]
    rfl
  rw [parse, hStart]
  dsimp only
  rw [hFuel, ← hBody, parseMembers_line (by decide) (by decide) (by decide) (hWs _),
    parseMember_stateVersion, intMember_digit (hOne _) _ (by decide)]
  dsimp only
  rw [parseMembers_textLine (by decide) (by decide)
    ((parseMember_activeBackend _ _).trans
      (stringMember_plain (by decide) (by decide) _ _ (by decide)))]
  rw [parseMembers_textLine (by decide) (by decide)
    ((parseMember_migrationId _ _).trans (stringMember_plain hId.1 hId.2 _ _ rfl))]
  by_cases hDatabase : Refused databasePath
  · rw [parseMembers_textLine_none (by decide) (by decide)
      ((parseMember_databasePath _ _).trans (stringMember_refused hDatabase _ _ _)), if_pos (Or.inl hDatabase)]
  · rw [parseMembers_textLine (by decide) (by decide)
      ((parseMember_databasePath _ _).trans (stringMember_read hDatabase _ _ rfl))]
    by_cases hArchive : Refused archivePath
    · rw [parseMembers_textLine_none (by decide) (by decide)
        ((parseMember_archivePath _ _).trans (stringMember_refused hArchive _ _ _)), if_pos (Or.inr hArchive)]
    · rw [parseMembers_textLine (by decide) (by decide)
        ((parseMember_archivePath _ _).trans (stringMember_read hArchive _ _ rfl)),
        parseMembers_versions hSource hTarget hTime.2, if_neg (not_or.mpr ⟨hDatabase, hArchive⟩)]
      dsimp only
      rw [if_neg (by decide), if_pos (by decide), readState]

/-! ## The texts of a migration -/

theorem isPlain_of_isDigit : ∀ c, isDigit c = true → isPlain c = true := forall_byte (by decide +kernel)

theorem isPlain_of_isSuffixChar : ∀ c, isSuffixChar c = true → isPlain c = true := forall_byte (by decide +kernel)

theorem Plain.append {first second : Bytes} (h : Plain first) (h' : Plain second) : Plain (first ++ second) :=
  List.forall_mem_append.mpr ⟨h, h'⟩

theorem plain_append_iff {first second : Bytes} : Plain (first ++ second) ↔ Plain first ∧ Plain second :=
  List.forall_mem_append

/-- What stands in front of the rest of a text is plain, if the rest is. -/
theorem plain_of_skipByte {byte : UInt8} {text rest : Bytes} (hByte : isPlain byte = true)
    (h : skipByte byte text = some rest) (hRest : Plain rest) : Plain text := by
  cases text with
  | nil => cases h
  | cons c text =>
      rw [skipByte] at h
      split at h
      · next hEq =>
        subst hEq
        obtain rfl := Option.some.inj h
        exact List.forall_mem_cons.mpr ⟨hByte, hRest⟩
      · cases h

theorem plain_of_skipNumber {text rest : Bytes} (h : skipNumber text = some rest) (hRest : Plain rest) : Plain text := by
  cases text with
  | nil => cases h
  | cons c text =>
      rw [skipNumber] at h
      split at h
      · next hDigit =>
        obtain rfl := Option.some.inj h
        have hSplit : text = text.takeWhile isDigit ++ text.dropWhile isDigit := List.takeWhile_append_dropWhile.symm
        refine List.forall_mem_cons.mpr ⟨isPlain_of_isDigit c hDigit, ?_⟩
        rw [hSplit]
        exact Plain.append (fun d hd => isPlain_of_isDigit d (List.mem_takeWhile_imp hd)) hRest
      · cases h

theorem plain_of_safeVersion {version : Bytes} (h : safeVersion version = true) : Plain version := by
  have hFront : ∀ rest, (((((skipByte (ascii 'v') version).bind skipNumber).bind (skipByte (ascii '.'))).bind
      skipNumber).bind (skipByte (ascii '.'))).bind skipNumber = some rest → Plain rest → Plain version := by
    intro rest hRest hPlain
    obtain ⟨fifth, hFifth, hNumber⟩ := Option.bind_eq_some_iff.mp hRest
    obtain ⟨fourth, hFourth, hDot⟩ := Option.bind_eq_some_iff.mp hFifth
    obtain ⟨third, hThird, hNumber'⟩ := Option.bind_eq_some_iff.mp hFourth
    obtain ⟨second, hSecond, hDot'⟩ := Option.bind_eq_some_iff.mp hThird
    obtain ⟨first, hFirst, hNumber''⟩ := Option.bind_eq_some_iff.mp hSecond
    have hFifthPlain := plain_of_skipNumber hNumber hPlain
    have hFourthPlain := plain_of_skipByte (by decide) hDot hFifthPlain
    have hThirdPlain := plain_of_skipNumber hNumber' hFourthPlain
    have hSecondPlain := plain_of_skipByte (by decide) hDot' hThirdPlain
    exact plain_of_skipByte (by decide) hFirst (plain_of_skipNumber hNumber'' hSecondPlain)
  rw [safeVersion] at h
  split at h
  · cases h
  · next hBehind => exact hFront [] hBehind (by simp [Plain])
  · next c suffix hBehind =>
    simp only [Bool.and_eq_true, decide_eq_true_eq, List.all_eq_true] at h
    obtain ⟨⟨rfl, -⟩, hSuffix⟩ := h
    apply hFront _ hBehind
    exact List.forall_mem_cons.mpr ⟨by decide, fun d hd => isPlain_of_isSuffixChar d (hSuffix d hd)⟩

theorem plain_of_validMigrationId {id : Bytes} (h : validMigrationId id = true) : Plain id ∧ id ≠ [] := by
  have hChar : ∀ c, isDigit c || (97 ≤ c && c ≤ 102) → isPlain c = true := forall_byte (by decide +kernel)
  simp only [validMigrationId, Bool.and_eq_true, decide_eq_true_eq, List.all_eq_true, List.mem_range] at h
  obtain ⟨⟨⟨hLength, hAll⟩, -⟩, -⟩ := h
  constructor
  · intro c hc
    obtain ⟨i, hi, rfl⟩ := List.getElem_of_mem hc
    have hAt := hAll i (hLength ▸ hi)
    rw [List.getD_eq_getElem?_getD, List.getElem?_eq_getElem hi, Option.getD_some] at hAt
    split at hAt
    · rw [decide_eq_true_eq.mp hAt]
      decide
    · exact hChar _ hAt
  · rintro rfl
    exact absurd hLength (by decide)

/-! ## The clock -/

theorem isDigit_digit (n : Nat) : isDigit (digit n) = true := by
  have hTable : ∀ k < 10, isDigit (UInt8.ofNat (48 + k)) = true := by decide
  exact hTable (n % 10) (Nat.mod_lt _ (by decide))

theorem toNat_digit (n : Nat) : (digit n).toNat - 48 = n % 10 := by
  have hTable : ∀ k < 10, (UInt8.ofNat (48 + k)).toNat - 48 = k := by decide
  exact hTable (n % 10) (Nat.mod_lt _ (by decide))

theorem validTimestamp_timestampUtc (time : UtcTime) : validTimestamp (timestampUtc time) = true := by
  have hTwo : ∀ n, n < 100 → n / 10 % 10 * 10 + n % 10 = n := by omega
  have hMonth := hTwo time.month (by have := time.month_range; omega)
  have hDay := hTwo time.day (by have := time.day_range; omega)
  have hHour := hTwo time.hour (by have := time.hour_range; omega)
  have hMinute := hTwo time.minute (by have := time.minute_range; omega)
  have hSecond := hTwo time.second (by have := time.second_range; omega)
  simp [validTimestamp, timestampUtc, twoDigits, twoDigitsAt, List.range_succ, isDigit_digit, toNat_digit, hMonth, hDay,
    hHour, hMinute, hSecond, time.month_range, time.day_range, time.hour_range, time.minute_range, time.second_range]

theorem plain_timestampUtc (time : UtcTime) : Plain (timestampUtc time) := by
  have hDigit : ∀ n, isPlain (digit n) = true := fun n => isPlain_of_isDigit _ (isDigit_digit n)
  have hLetters : isPlain (ascii 'T') = true ∧ isPlain (ascii 'Z') = true := by decide
  simp [Plain, timestampUtc, twoDigits, hDigit, hLetters]

/-- A digit or a letter needs no escape. -/
theorem jsonEscape_timestampUtc (time : UtcTime) : jsonEscape (timestampUtc time) = timestampUtc time := by
  have hTable : ∀ c, isDigit c = true → jsonEscapeByte c = [c] := forall_byte (by decide +kernel)
  have hDigit : ∀ n, jsonEscapeByte (digit n) = [digit n] := fun n => hTable _ (isDigit_digit n)
  have hT : jsonEscapeByte (ascii 'T') = [ascii 'T'] := by decide
  have hZ : jsonEscapeByte (ascii 'Z') = [ascii 'Z'] := by decide
  simp [jsonEscape, timestampUtc, twoDigits, hDigit, hT, hZ]

/-! ## The handover -/

section Handover

variable {orchestrator : MigrationOrchestrator} {stages : Stages} {migration : MigrationResult}

/-- What a migration writes into the activation state. -/
def written (orchestrator : MigrationOrchestrator) (stages : Stages) (migration : MigrationResult) : ActivationState where
  stateVersion := 1
  schemaVersion := 7
  activeBackend := bytes "sqlite"
  migrationId := migration.migrationId
  databasePath := orchestrator.databasePath
  archivePath := migration.archivePath
  sourceVersion := orchestrator.sourceVersion
  targetVersion := orchestrator.targetVersion
  activationTimestamp := timestampUtc stages.activatedAt
  verificationResult := bytes "success"

/-- What a successful run has checked. -/
structure Checked (orchestrator : MigrationOrchestrator) (stages : Stages) (migration : MigrationResult) : Prop where
  source : safeVersion orchestrator.sourceVersion = true
  target : safeVersion orchestrator.targetVersion = true
  id : validMigrationId stages.migrationId = true
  database : orchestrator.databasePath ≠ []
  result : migration = ⟨stages.migrationId,
    archivePathOf orchestrator.archiveRoot orchestrator.sourceVersion stages.migrationId stages.archivedAt,
    activationStateJson stages.migrationId orchestrator.databasePath
      (archivePathOf orchestrator.archiveRoot orchestrator.sourceVersion stages.migrationId stages.archivedAt)
      orchestrator.sourceVersion orchestrator.targetVersion (timestampUtc stages.activatedAt)⟩

theorem checked_of_ok (h : migrateToSqlite orchestrator stages = .ok migration) :
    Checked orchestrator stages migration := by
  simp only [migrateToSqlite, require_bind, refuse_bind] at h
  obtain ⟨-, -, -, hSource, hTarget, hId, -, -, -, -, -, -, -, hRest⟩ := h
  rw [createArchive] at hRest
  split at hRest
  · cases hRest
  · next archivePath hArchive =>
    split at hArchive
    · cases hArchive
    · split at hArchive
      · cases hArchive
      · obtain rfl := Except.ok.inj hArchive
        simp only [require_bind, refuse_bind] at hRest
        obtain ⟨-, hPublish, -, hResult⟩ := hRest
        have hDatabase : orchestrator.databasePath ≠ [] := by
          intro hEmpty
          rw [publishDatabase, if_pos hEmpty] at hPublish
          cases hPublish
        exact ⟨hSource, hTarget, hId, hDatabase, (Except.ok.inj hResult).symm⟩

theorem plain_archivePathOf_iff {archiveRoot sourceVersion migrationId : Bytes} (hSource : Plain sourceVersion)
    (hId : Plain migrationId) (time : UtcTime) :
    Plain (archivePathOf archiveRoot sourceVersion migrationId time) ↔
      Plain (normalizeArchiveIdentityPath archiveRoot) := by
  have hSlash : Plain [Posix.slash] := by decide
  have hLegacy : Plain (bytes "legacy-") := by decide
  have hDash : Plain (bytes "-") := by decide
  simp only [archivePathOf, plain_append_iff, hSlash, hLegacy, hDash, hSource, hId, plain_timestampUtc, and_true]

/-- A text is read back exactly if it is plain. -/
theorem plain_iff {text : Bytes} (hNe : text ≠ []) : Plain text ↔ ¬Refused text ∧ text.flatMap readBack = text := by
  constructor
  · intro h
    exact ⟨h.not_refused hNe, h.readBack_eq⟩
  · rintro ⟨hRefused, hBack⟩ c hc
    have hControl : ¬c < 32 := fun hLt => hRefused (Or.inr ⟨c, hc, hLt⟩)
    rw [isPlain, Bool.and_eq_true, decide_eq_true_eq, decide_eq_true_eq]
    exact ⟨UInt8.not_lt.mp hControl, ascii_of_readBack_eq hBack c hc⟩

/-- The file that a successful migration writes is accepted with exactly its values, if and
only if the database path and the archive root hold neither control characters nor bytes
above 127. -/
theorem activation_handedOver_iff (h : migrateToSqlite orchestrator stages = .ok migration) :
    parse migration.state = some (written orchestrator stages migration) ↔
      Plain orchestrator.databasePath ∧ Plain (normalizeArchiveIdentityPath orchestrator.archiveRoot) := by
  obtain ⟨hSource, hTarget, hId, hDatabase, rfl⟩ := checked_of_ok h
  have hSourcePlain := plain_of_safeVersion hSource
  have hIdPlain := plain_of_validMigrationId hId
  have hArchiveNe : archivePathOf orchestrator.archiveRoot orchestrator.sourceVersion stages.migrationId
      stages.archivedAt ≠ [] := by
    simp [archivePathOf]
  rw [← plain_archivePathOf_iff hSourcePlain hIdPlain.1 stages.archivedAt, plain_iff hDatabase, plain_iff hArchiveNe,
    parse_activationStateJson hIdPlain ⟨hSourcePlain, hSource⟩ ⟨plain_of_safeVersion hTarget, hTarget⟩
      ⟨jsonEscape_timestampUtc _, plain_timestampUtc _, validTimestamp_timestampUtc _⟩]
  constructor
  · intro hRead
    split at hRead
    · cases hRead
    · next hRefused =>
      have hState := Option.some.inj hRead
      exact ⟨⟨fun hLeft => hRefused (Or.inl hLeft), congrArg ActivationState.databasePath hState⟩,
        fun hRight => hRefused (Or.inr hRight), congrArg ActivationState.archivePath hState⟩
  · rintro ⟨⟨hLeft, hDatabaseBack⟩, hRight, hArchiveBack⟩
    rw [if_neg (not_or.mpr ⟨hLeft, hRight⟩), readState, hDatabaseBack, hArchiveBack]
    rfl

end Handover

/-! ## A database in a directory with an accent -/

def sampleTime : UtcTime where
  year := 2026
  month := 7
  day := 1
  hour := 12
  minute := 30
  second := 0
  year_four := by decide
  month_range := by decide
  day_range := by decide
  hour_range := by decide
  minute_range := by decide
  second_range := by decide

def sampleOrchestrator (databasePath : Bytes) : MigrationOrchestrator where
  sourceDir := bytes "/srv/legacy/"
  databasePath := databasePath
  archiveRoot := bytes "/srv/archive"
  sourceVersion := bytes "v0.6.0"
  targetVersion := bytes "v0.7.0"

/-- Stages that all go well. -/
def sampleStages : Stages where
  sourceIsDirectory := true
  databaseParentExists := true
  archiveRootReady := true
  migrationId := bytes "01234567-89ab-4def-8123-456789abcdef"
  stagingCreated := true
  poolInitialized := true
  databaseOpened := true
  schemaError := none
  importError := none
  verificationError := none
  bothVerified := true
  archiveError := none
  archivedAt := sampleTime
  archiveVerified := true
  publishError := none
  activatedAt := sampleTime
  stateWritten := true

/-- `/srv/é/containercp.db`, in UTF-8. -/
def accentedPath : Bytes := bytes "/srv/" ++ [0xC3, 0xA9] ++ bytes "/containercp.db"

/-- The result of the sample. -/
def sampleMigration (databasePath : Bytes) : MigrationResult where
  migrationId := sampleStages.migrationId
  archivePath := archivePathOf (bytes "/srv/archive") (bytes "v0.6.0") sampleStages.migrationId sampleTime
  state := activationStateJson sampleStages.migrationId databasePath
    (archivePathOf (bytes "/srv/archive") (bytes "v0.6.0") sampleStages.migrationId sampleTime) (bytes "v0.6.0")
    (bytes "v0.7.0") (timestampUtc sampleTime)

theorem sampleMigration_ok {databasePath : Bytes} (h : databasePath ≠ []) :
    migrateToSqlite (sampleOrchestrator databasePath) sampleStages = .ok (sampleMigration databasePath) := by
  have hSource : safeVersion (bytes "v0.6.0") = true := by decide
  have hTarget : safeVersion (bytes "v0.7.0") = true := by decide
  have hId : validMigrationId sampleStages.migrationId = true := by decide
  have hRoot : normalizeArchiveIdentityPath (bytes "/srv/archive") ≠ [] := by decide
  have hArchive : createArchive (sampleOrchestrator databasePath) sampleStages =
      .ok (archivePathOf (bytes "/srv/archive") (bytes "v0.6.0") sampleStages.migrationId sampleTime) := if_neg hRoot
  have hPublish : publishDatabase (sampleOrchestrator databasePath) sampleStages = none := if_neg h
  simp only [migrateToSqlite, require_bind, refuse_bind, hArchive, hPublish]
  exact ⟨rfl, rfl, rfl, hSource, hTarget, hId, rfl, rfl, rfl, rfl, rfl, rfl, rfl, rfl, trivial, rfl, rfl⟩

/-- The migration succeeds, and the start does not read its database path again. -/
theorem activation_not_handedOver :
    migrateToSqlite (sampleOrchestrator accentedPath) sampleStages = .ok (sampleMigration accentedPath) ∧
      parse (sampleMigration accentedPath).state ≠
        some (written (sampleOrchestrator accentedPath) sampleStages (sampleMigration accentedPath)) := by
  refine ⟨sampleMigration_ok (show accentedPath ≠ [] by decide), ?_⟩
  have hPath : accentedPath.flatMap readBack ≠ accentedPath := by decide
  have hId := plain_of_validMigrationId (show validMigrationId sampleStages.migrationId = true by decide)
  have hSource : safeVersion (bytes "v0.6.0") = true := by decide
  have hTarget : safeVersion (bytes "v0.7.0") = true := by decide
  rw [sampleMigration, parse_activationStateJson hId ⟨plain_of_safeVersion hSource, hSource⟩
    ⟨plain_of_safeVersion hTarget, hTarget⟩
    ⟨jsonEscape_timestampUtc _, plain_timestampUtc _, validTimestamp_timestampUtc _⟩]
  intro hRead
  split at hRead
  · cases hRead
  · exact hPath (congrArg ActivationState.databasePath (Option.some.inj hRead))

/-- A path of plain bytes is handed over. -/
theorem activation_handedOver_sample :
    migrateToSqlite (sampleOrchestrator (bytes "/srv/containercp.db")) sampleStages =
        .ok (sampleMigration (bytes "/srv/containercp.db")) ∧
      parse (sampleMigration (bytes "/srv/containercp.db")).state =
        some (written (sampleOrchestrator (bytes "/srv/containercp.db")) sampleStages
          (sampleMigration (bytes "/srv/containercp.db"))) :=
  have hOk := sampleMigration_ok (by decide)
  ⟨hOk, (activation_handedOver_iff hOk).mpr ⟨by decide, by decide⟩⟩

end ContainerCP.Storage
