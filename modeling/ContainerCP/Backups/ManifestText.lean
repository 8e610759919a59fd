import ContainerCP.Api.JsonFormatter
import ContainerCP.Backups.BackupService
import ContainerCP.Text.JsonSearch

/-! The manifest of an archive, as it is written and as it is read back. -/
namespace ContainerCP.Backups

open Json (quote backslash Special Escaped IsKey Follows Skips keyPattern objectText)

/-! ## Writing -/

def jsonString (s : Bytes) : Bytes := quote :: (Api.escape s ++ [quote])

/-- `json_array`. -/
def jsonArray (values : List Bytes) : Bytes :=
  ascii '[' :: ((bytes ",").intercalate (values.map jsonString) ++ bytes "]")

def BackupManifest.members (m : BackupManifest) : List (Bytes × Bytes) :=
  [(bytes "schema_version", jsonString m.schemaVersion),
    (bytes "containercp_version", jsonString m.containercpVersion),
    (bytes "backup_id", decimal m.backupId),
    (bytes "site_id", decimal m.siteId),
    (bytes "site_domain", jsonString m.siteDomain),
    (bytes "created_at", jsonString m.createdAt),
    (bytes "backup_type", jsonString m.backupType),
    (bytes "files_status", jsonString m.filesStatus),
    (bytes "database_status", jsonString m.databaseStatus),
    (bytes "database_engine", jsonString m.databaseEngine),
    (bytes "database_name", jsonString m.databaseName),
    (bytes "database_ownership_state", jsonString m.databaseOwnershipState),
    (bytes "sql_dump_path", jsonString m.sqlDumpPath),
    (bytes "sql_dump_size", decimal m.sqlDumpSize),
    (bytes "sql_dump_checksum", jsonString m.sqlDumpChecksum),
    (bytes "archive_checksum", jsonString m.archiveChecksum),
    (bytes "restore_capability", jsonString m.restoreCapability),
    (bytes "backup_completeness", jsonString m.backupCompleteness),
    (bytes "warnings", jsonArray m.warnings),
    (bytes "compatibility", jsonString m.compatibility)]

/-- `backup_manifest_to_json`. -/
def backupManifestToJson (m : BackupManifest) : Bytes := objectText m.members

/-! ## Reading -/

/-- The loop of `extract_json_string` behind the opening quote. The byte behind a backslash
stands for itself, whichever it is. -/
def readString : Bytes → Bytes
  | [] => []
  | [c] => if c = quote then [] else [c]
  | c :: next :: rest =>
      if c = quote then []
      else if c = backslash then next :: readString rest
      else c :: readString (next :: rest)

def extractJsonString (json : Bytes) (key : String) : Bytes :=
  match cutAtText (keyPattern (bytes key)) json with
  | none => []
  | some (_, behind) =>
      match behind.dropWhile isSpace with
      | [] => []
      | c :: rest => if c = quote then readString rest else []

/-- The loop of `extract_json_uint`, in 64 bits. -/
def readUint (text : Bytes) : Nat :=
  (text.takeWhile isDigit).foldl (fun value c => (value * 10 + (c.toNat - 48)) % 2 ^ 64) 0

def extractJsonUint (json : Bytes) (key : String) : Nat :=
  match cutAtText (keyPattern (bytes key)) json with
  | none => 0
  | some (_, behind) => readUint (behind.dropWhile isSpace)

/-- `backup_manifest_from_json`. -/
def backupManifestFromJson (json : Bytes) : Option BackupManifest :=
  if extractJsonString json "schema_version" = [] then none
  else
    let m : BackupManifest :=
      { schemaVersion := extractJsonString json "schema_version"
        containercpVersion := extractJsonString json "containercp_version"
        backupId := extractJsonUint json "backup_id"
        siteId := extractJsonUint json "site_id"
        siteDomain := extractJsonString json "site_domain"
        createdAt := extractJsonString json "created_at"
        backupType := extractJsonString json "backup_type"
        filesStatus := extractJsonString json "files_status"
        databaseStatus := extractJsonString json "database_status"
        databaseEngine := extractJsonString json "database_engine"
        databaseName := extractJsonString json "database_name"
        databaseOwnershipState := extractJsonString json "database_ownership_state"
        sqlDumpPath := extractJsonString json "sql_dump_path"
        sqlDumpSize := extractJsonUint json "sql_dump_size"
        sqlDumpChecksum := extractJsonString json "sql_dump_checksum"
        archiveChecksum := extractJsonString json "archive_checksum"
        restoreCapability := extractJsonString json "restore_capability"
        backupCompleteness := extractJsonString json "backup_completeness"
        compatibility := extractJsonString json "compatibility" }
    if m.siteId = 0 ∨ m.siteDomain = [] then none else some m

/-! ## Texts and numbers -/

/-- What becomes of a byte. The letter of an escape is taken for the byte. -/
def misreadByte (c : UInt8) : UInt8 :=
  if c = ascii '\n' then ascii 'n' else if c = ascii '\r' then ascii 'r' else if c = ascii '\t' then ascii 't' else c

def misread (s : Bytes) : Bytes := s.map misreadByte

theorem misreadByte_eq_self_iff (c : UInt8) : misreadByte c = c ↔ c ∉ bytes "\n\r\t" := by
  have hBytes : bytes "\n\r\t" = [ascii '\n', ascii '\r', ascii '\t'] := rfl
  rw [misreadByte, hBytes]
  simp only [List.mem_cons, List.not_mem_nil, or_false, not_or]
  split
  · next h => subst h; decide
  · split
    · next h => subst h; decide
    · split
      · next h => subst h; decide
      · next hNewline hReturn hTab => simp [hNewline, hReturn, hTab]

theorem misread_eq_self_iff (s : Bytes) : misread s = s ↔ ∀ c ∈ s, c ∉ bytes "\n\r\t" := by
  induction s with
  | nil => simp [misread]
  | cons c s ih => rw [misread, List.map_cons, List.cons.injEq, ← misread, ih, misreadByte_eq_self_iff, List.forall_mem_cons]

theorem misread_eq_nil_iff {s : Bytes} : misread s = [] ↔ s = [] := List.map_eq_nil_iff

theorem readString_quote (rest : Bytes) : readString (quote :: rest) = [] := by
  cases rest <;> rfl

theorem readString_plain {c : UInt8} {rest : Bytes} (hPlain : ¬Special c) (hRest : rest ≠ []) :
    readString (c :: rest) = c :: readString rest := by
  obtain ⟨next, more, rfl⟩ := List.exists_cons_of_ne_nil hRest
  rw [readString, if_neg fun hQuote => hPlain (.inl hQuote), if_neg fun hBackslash => hPlain (.inr hBackslash)]

theorem readString_backslash (c : UInt8) (rest : Bytes) : readString (backslash :: c :: rest) = c :: readString rest := by
  rw [readString, if_neg (by decide), if_pos rfl]

/-- A byte as it is written and read. -/
theorem readString_escapeByte (c : UInt8) {rest : Bytes} (hRest : rest ≠ []) :
    readString (Api.escapeByte c ++ rest) = misreadByte c :: readString rest := by
  rw [Api.escapeByte, misreadByte]
  split
  · next h => subst h; exact readString_backslash _ _
  · next hQuote =>
    split
    · next h => subst h; exact readString_backslash _ _
    · next hBackslash =>
      split
      · exact readString_backslash _ _
      · split
        · exact readString_backslash _ _
        · split
          · exact readString_backslash _ _
          · exact readString_plain (not_or.mpr ⟨hQuote, hBackslash⟩) hRest

theorem readString_escape (s rest : Bytes) : readString (Api.escape s ++ quote :: rest) = misread s := by
  induction s with
  | nil => exact readString_quote rest
  | cons c s ih =>
      have hSplit : Api.escape (c :: s) ++ quote :: rest = Api.escapeByte c ++ (Api.escape s ++ quote :: rest) := by
        rw [Api.escape, List.flatMap_cons, List.append_assoc, ← Api.escape]
      rw [hSplit, readString_escapeByte c (by simp), ih, misread, misread, List.map_cons]

theorem escaped_escape (s : Bytes) : Escaped (Api.escape s) := by
  refine Json.escaped_flatMap fun c _ => ?_
  rw [Api.escapeByte]
  split
  · exact .escape .nil
  · next hQuote =>
    split
    · exact .escape .nil
    · next hBackslash =>
      split
      · exact .escape .nil
      · split
        · exact .escape .nil
        · split
          · exact .escape .nil
          · exact .plain (not_or.mpr ⟨hQuote, hBackslash⟩) .nil

/-- The loop wraps around, as the sum does. -/
theorem readUint_eq {text : Bytes} : readUint text = digitsValue (text.takeWhile isDigit) % 2 ^ 64 := by
  have hFold : ∀ (digits : Bytes) (value : Nat),
      digits.foldl (fun value c => (value * 10 + (c.toNat - 48)) % 2 ^ 64) (value % 2 ^ 64) =
        digits.foldl (fun n c => 10 * n + (c.toNat - 48)) value % 2 ^ 64 := by
    intro digits
    induction digits with
    | nil => exact fun value => rfl
    | cons c digits ih =>
        intro value
        have hStep : (value % 2 ^ 64 * 10 + (c.toNat - 48)) % 2 ^ 64 = (10 * value + (c.toNat - 48)) % 2 ^ 64 := by omega
        rw [List.foldl_cons, List.foldl_cons, hStep, ih]
  exact hFold _ 0

theorem readUint_decimal {n : Nat} {rest : Bytes} (hRest : ∀ c ∈ rest.head?, isDigit c = false) :
    readUint (decimal n ++ rest) = n % 2 ^ 64 := by
  have hEnd : rest.takeWhile isDigit = [] := by
    cases rest with
    | nil => rfl
    | cons c rest => exact List.takeWhile_cons_of_neg (by simp [hRest c rfl])
  have hDigits : (decimal n ++ rest).takeWhile isDigit = decimal n := by
    rw [List.takeWhile_append_of_pos fun c hMem => isDigit_of_mem_decimal hMem, hEnd, List.append_nil]
  rw [readUint_eq, hDigits, digitsValue_decimal]

/-! ## The search -/

section Search

variable (m : BackupManifest)

def manifestKeys : List Bytes := m.members.map Prod.fst

theorem isKey_manifestKeys :
    ∀ key ∈ manifestKeys m, IsKey key ∧ ascii ':' ∉ key ∧ ascii ',' ∉ key ∧ ascii ']' ∉ key := by
  have hKeys : ∀ key ∈ manifestKeys {}, (∀ c ∈ key, ¬Special c) ∧ key ≠ bytes "," ∧
      ascii ':' ∉ key ∧ ascii ',' ∉ key ∧ ascii ']' ∉ key := by decide
  intro key hMem
  obtain ⟨hPlain, hComma, hColon, hRow⟩ := hKeys key hMem
  exact ⟨⟨hPlain, hComma, fun hHead => absurd (List.mem_of_head? hHead) hColon⟩, hColon, hRow⟩

/-- The forms of a value. -/
theorem members_value : ∀ member ∈ m.members,
    (∃ s, member.2 = jsonString s) ∨ (∃ n, member.2 = decimal n) ∨ member.2 = jsonArray m.warnings := by
  simp only [BackupManifest.members, List.forall_mem_cons, List.not_mem_nil, false_imp_iff, implies_true, and_true]
  refine ⟨.inl ⟨_, rfl⟩, .inl ⟨_, rfl⟩, .inr (.inl ⟨_, rfl⟩), .inr (.inl ⟨_, rfl⟩), ?_⟩
  refine ⟨.inl ⟨_, rfl⟩, .inl ⟨_, rfl⟩, .inl ⟨_, rfl⟩, .inl ⟨_, rfl⟩, .inl ⟨_, rfl⟩, .inl ⟨_, rfl⟩, .inl ⟨_, rfl⟩, ?_⟩
  refine ⟨.inl ⟨_, rfl⟩, .inl ⟨_, rfl⟩, .inr (.inl ⟨_, rfl⟩), .inl ⟨_, rfl⟩, .inl ⟨_, rfl⟩, .inl ⟨_, rfl⟩, ?_⟩
  exact ⟨.inl ⟨_, rfl⟩, .inr (.inr trivial), .inl ⟨_, rfl⟩⟩

theorem skips_members {key : Bytes} (hKey : key ∈ manifestKeys m) : ∀ member ∈ m.members, Skips key member.2 := by
  intro member hMember
  obtain ⟨hIsKey, hColon, hComma, hBracket⟩ := isKey_manifestKeys m key hKey
  rcases members_value m member hMember with ⟨s, hValue⟩ | ⟨n, hValue⟩ | hValue
  · rw [hValue]
    exact Json.skips_string hIsKey (escaped_escape s)
  · rw [hValue]
    exact Json.skips_bare hIsKey (not_mem_decimal (by decide))
  · have hBodies : ∀ body ∈ m.warnings.map Api.escape, Escaped body := fun body hBody => by
      obtain ⟨warning, -, rfl⟩ := List.mem_map.mp hBody
      exact escaped_escape warning
    have hRow := Json.skips_row hIsKey.plain hColon hComma hBracket hBodies
    rw [List.map_map] at hRow
    rw [hValue]
    exact hRow

/-- Whatever the texts are, a member is found by its name. -/
theorem cutAtText_manifest {key value : Bytes} (h : (key, value) ∈ m.members) :
    ∃ front rest, Follows rest ∧ cutAtText (keyPattern key) (backupManifestToJson m) = some (front, value ++ rest) := by
  have hName : key ∈ manifestKeys m := List.mem_map.mpr ⟨_, h, rfl⟩
  have hNodup : (m.members.map Prod.fst).Nodup := show (manifestKeys {}).Nodup by decide
  have hMembers : ∀ member ∈ m.members, Escaped member.1 ∧ ¬(backslash :: quote :: key) <:+ member.1 ∧ Skips key member.2 := by
    intro member hMember
    have hOther := (isKey_manifestKeys m member.1 (List.mem_map_of_mem hMember)).1.plain
    exact ⟨Json.escaped_of_plain hOther, fun hEnd => hOther backslash (hEnd.subset List.mem_cons_self) (.inr rfl),
      skips_members m hName member hMember⟩
  have hSearch := Json.cutAtText_objectText (isKey_manifestKeys m key hName).1 hMembers
  obtain ⟨more, hBehind⟩ := Json.behindKey_of_mem hNodup h
  rw [hBehind] at hSearch
  obtain ⟨⟨front, behind⟩, hCut, rfl⟩ := Option.map_eq_some_iff.mp hSearch
  exact ⟨front, _, Json.follows_tailText more, hCut⟩

theorem extractJsonString_toJson {key : String} {s : Bytes} (h : (bytes key, jsonString s) ∈ m.members) :
    extractJsonString (backupManifestToJson m) key = misread s := by
  obtain ⟨front, rest, -, hCut⟩ := cutAtText_manifest m h
  have hBehind : (jsonString s ++ rest).dropWhile isSpace = quote :: (Api.escape s ++ quote :: rest) := by
    rw [jsonString, List.cons_append, List.append_assoc]
    exact List.dropWhile_cons_of_neg (by decide)
  rw [extractJsonString, hCut]
  simp only [hBehind, if_true, readString_escape]

theorem extractJsonUint_toJson {key : String} {n : Nat} (h : (bytes key, decimal n) ∈ m.members) :
    extractJsonUint (backupManifestToJson m) key = n % 2 ^ 64 := by
  obtain ⟨front, rest, hFollows, hCut⟩ := cutAtText_manifest m h
  have hBehind : (decimal n ++ rest).dropWhile isSpace = decimal n ++ rest := by
    obtain ⟨c, digits, hDigits⟩ := List.exists_cons_of_ne_nil (decimal_ne_nil n)
    have hFirst : isDigit c = true := isDigit_of_mem_decimal (n := n) (by rw [hDigits]; exact List.mem_cons_self)
    rw [hDigits, List.cons_append, List.dropWhile_cons_of_neg (by simp [isDigit_imp_not_isSpace hFirst])]
  have hRest : ∀ c ∈ rest.head?, isDigit c = false := by
    rcases hFollows with rfl | ⟨more, rfl⟩
    · intro c hHead
      rw [← Option.some.inj hHead]
      decide
    · rintro c ⟨⟩
      decide
  rw [extractJsonUint, hCut]
  exact (congrArg readUint hBehind).trans (readUint_decimal hRest)

end Search

/-! ## The round trip -/

/-- The numbers of a manifest are 64 bits wide. -/
structure BackupManifest.Fits (m : BackupManifest) : Prop where
  backupId : m.backupId < 2 ^ 64
  siteId : m.siteId < 2 ^ 64
  sqlDumpSize : m.sqlDumpSize < 2 ^ 64

/-- The manifest that is read back. -/
def BackupManifest.misread (m : BackupManifest) : BackupManifest where
  schemaVersion := Backups.misread m.schemaVersion
  containercpVersion := Backups.misread m.containercpVersion
  backupId := m.backupId
  siteId := m.siteId
  siteDomain := Backups.misread m.siteDomain
  createdAt := Backups.misread m.createdAt
  backupType := Backups.misread m.backupType
  filesStatus := Backups.misread m.filesStatus
  databaseStatus := Backups.misread m.databaseStatus
  databaseEngine := Backups.misread m.databaseEngine
  databaseName := Backups.misread m.databaseName
  databaseOwnershipState := Backups.misread m.databaseOwnershipState
  sqlDumpPath := Backups.misread m.sqlDumpPath
  sqlDumpSize := m.sqlDumpSize
  sqlDumpChecksum := Backups.misread m.sqlDumpChecksum
  archiveChecksum := Backups.misread m.archiveChecksum
  restoreCapability := Backups.misread m.restoreCapability
  backupCompleteness := Backups.misread m.backupCompleteness
  warnings := []
  compatibility := Backups.misread m.compatibility

/-- The texts of a manifest, but for its warnings. -/
def BackupManifest.texts (m : BackupManifest) : List Bytes :=
  [m.schemaVersion, m.containercpVersion, m.siteDomain, m.createdAt, m.backupType, m.filesStatus, m.databaseStatus,
    m.databaseEngine, m.databaseName, m.databaseOwnershipState, m.sqlDumpPath, m.sqlDumpChecksum, m.archiveChecksum,
    m.restoreCapability, m.backupCompleteness, m.compatibility]

theorem BackupManifest.misread_eq_self_iff (m : BackupManifest) :
    m.misread = m ↔ m.warnings = [] ∧ ∀ text ∈ m.texts, Backups.misread text = text := by
  cases m
  simp only [BackupManifest.misread, BackupManifest.texts, BackupManifest.mk.injEq, List.forall_mem_cons, List.not_mem_nil,
    false_imp_iff, implies_true, and_true, true_and, @eq_comm _ ([] : List Bytes)]
  tauto

theorem fromJson_toJson {m : BackupManifest} (hFits : m.Fits) (hSchema : m.schemaVersion ≠ []) (hSite : m.siteId ≠ 0)
    (hDomain : m.siteDomain ≠ []) : backupManifestFromJson (backupManifestToJson m) = some m.misread := by
  have hText : ∀ {key : String} {s : Bytes} (i : Nat), m.members[i]? = some (bytes key, jsonString s) →
      extractJsonString (backupManifestToJson m) key = Backups.misread s := fun i h =>
    extractJsonString_toJson m (List.mem_of_getElem? h)
  have hNumber : ∀ {key : String} {n : Nat} (i : Nat), n < 2 ^ 64 → m.members[i]? = some (bytes key, decimal n) →
      extractJsonUint (backupManifestToJson m) key = n := fun i hBound h =>
    (extractJsonUint_toJson m (List.mem_of_getElem? h)).trans (Nat.mod_eq_of_lt hBound)
  simp only [backupManifestFromJson, hText 0 rfl, hText 1 rfl, hNumber 2 hFits.backupId rfl, hNumber 3 hFits.siteId rfl,
    hText 4 rfl, hText 5 rfl, hText 6 rfl, hText 7 rfl, hText 8 rfl, hText 9 rfl, hText 10 rfl, hText 11 rfl, hText 12 rfl,
    hNumber 13 hFits.sqlDumpSize rfl, hText 14 rfl, hText 15 rfl, hText 16 rfl, hText 17 rfl, hText 19 rfl,
    misread_eq_nil_iff, hSchema, hSite, hDomain, or_self, if_false]
  rfl

/-- A manifest comes back as it was if it has no warnings, and no line breaks and tabs in its
texts. -/
theorem manifest_roundTrip_iff (m : BackupManifest) (hFits : m.Fits) (hSchema : m.schemaVersion ≠ []) (hSite : m.siteId ≠ 0)
    (hDomain : m.siteDomain ≠ []) :
    backupManifestFromJson (backupManifestToJson m) = some m ↔
      m.warnings = [] ∧ ∀ text ∈ m.texts, ∀ c ∈ text, c ∉ bytes "\n\r\t" := by
  rw [fromJson_toJson hFits hSchema hSite hDomain, Option.some.injEq, m.misread_eq_self_iff]
  exact and_congr_right fun _ => forall₂_congr fun text _ => Backups.misread_eq_self_iff text

/-- A manifest without warnings, with quotes in a text. -/
def shopManifest : BackupManifest where
  siteId := 7
  siteDomain := bytes "shop.test"
  databaseName := bytes "\"compatibility\":\"\\"

theorem manifest_roundTrip_iff_shop :
    backupManifestFromJson (backupManifestToJson shopManifest) = some shopManifest ↔
      shopManifest.warnings = [] ∧ ∀ text ∈ shopManifest.texts, ∀ c ∈ text, c ∉ bytes "\n\r\t" :=
  manifest_roundTrip_iff shopManifest ⟨by decide, by decide, by decide⟩ (by decide) (by decide) (by decide)

/-- A warning is lost, and a line break becomes a letter. -/
theorem manifest_roundTrip_warned : ∃ m : BackupManifest, m.Fits ∧ m.schemaVersion ≠ [] ∧ m.siteId ≠ 0 ∧ m.siteDomain ≠ [] ∧
    backupManifestFromJson (backupManifestToJson m) ≠ some m ∧
      (backupManifestFromJson (backupManifestToJson m)).map (·.warnings) ≠ some m.warnings ∧
      (backupManifestFromJson (backupManifestToJson m)).map (·.createdAt) ≠ some m.createdAt :=
  let m := { shopManifest with warnings := [bytes "legacy_backup_database_unknown"], createdAt := bytes "2026\n" }
  have hRead := fromJson_toJson (m := m) ⟨by decide, by decide, by decide⟩ (by decide) (by decide) (by decide)
  ⟨m, ⟨by decide, by decide, by decide⟩, by decide, by decide, by decide, by rw [hRead]; decide, by rw [hRead]; decide,
    by rw [hRead]; decide⟩

end ContainerCP.Backups
