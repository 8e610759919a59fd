import ContainerCP.Storage.ManifestParser
import ContainerCP.Storage.MigrationOrchestrator
import ContainerCP.Text.Lines
import Mathlib.Data.List.Perm.Subperm

/-! The check of an archive of the legacy files, which a rollback relies on: the checksums,
the manifest and the directory, each against the others. -/
namespace ContainerCP.Storage

open Json (quote backslash)
open Posix (slash parent here)
open ManifestParser (parseManifest)

/-! ## `LegacyFileInventory` -/

structure LegacyFileInfo where
  filename : Bytes
  required : Bool
  deriving DecidableEq

/-- `legacy_file_inventory`. -/
def legacyFileInventory : List LegacyFileInfo :=
  [⟨bytes "nodes.db", true⟩, ⟨bytes "php_versions.db", true⟩, ⟨bytes "profiles.db", true⟩,
    ⟨bytes "template_profiles.db", false⟩, ⟨bytes "users.db", true⟩, ⟨bytes "sites.db", true⟩,
    ⟨bytes "domains.db", true⟩, ⟨bytes "databases.db", true⟩, ⟨bytes "backups.db", true⟩,
    ⟨bytes "reverse_proxies.db", true⟩, ⟨bytes "access_users.db", false⟩, ⟨bytes "access_grants.db", false⟩,
    ⟨bytes "auth_users.db", false⟩, ⟨bytes "ssl_certificates.db", false⟩, ⟨bytes "mail_domains.db", false⟩,
    ⟨bytes "mail_mailboxes.db", false⟩, ⟨bytes "mail_aliases.db", false⟩, ⟨bytes "mail_state.db", false⟩,
    ⟨bytes "mail_smarthost.db", false⟩]

/-! ## The directory -/

/-- What stands under a name of a directory. -/
inductive ArchiveNode where
  | file (content : Bytes) (readable : Bool)
  /-- Whether something is found behind the link, or nothing for a search that fails. -/
  | link (reached : Option Bool)
  | directory
  | other
  deriving DecidableEq

/-- The text names an entry of the directory, and no path behind it. -/
def PlainName (name : Bytes) : Prop :=
  name ≠ [] ∧ name ≠ here ∧ name ≠ parent ∧ slash ∉ name ∧ 0 ∉ name ∧ name.length ≤ 255

instance (name : Bytes) : Decidable (PlainName name) := inferInstanceAs (Decidable (_ ∧ _))

/-- An archive on the disk. Behind the path stands a slash when its directory is looked up,
so that a link to a directory counts as the directory. -/
structure Archive where
  path : Bytes
  directory : Bool
  entries : List (Bytes × ArchiveNode)
  /-- What is found under a text that is no plain name, or nothing for a search that fails. -/
  elsewhere : Bytes → Option (Option ArchiveNode)
  plain : ∀ entry ∈ entries, PlainName entry.1
  distinct : (entries.map Prod.fst).Nodup

namespace Archive

def find (archive : Archive) (name : Bytes) : Option (Option ArchiveNode) :=
  if PlainName name then some (archive.entries.lookup name) else archive.elsewhere name

/-- `fs::exists`. Nothing stands for the exception. -/
def fileExists (archive : Archive) (name : Bytes) : Option Bool :=
  match archive.find name with
  | none => none
  | some none => some false
  | some (some (.link reached)) => reached
  | some (some _) => some true

/-- The regular file under a name, which is no link. Nothing stands for the exception. -/
def regularFile (archive : Archive) (name : Bytes) : Option (Option (Bytes × Bool)) :=
  match archive.find name with
  | none => none
  | some (some (.file content readable)) => some (some (content, readable))
  | some (some (.link none)) => none
  | some _ => some none

end Archive

/-! ## `LegacyArchive` -/

def hexByte (byte : UInt8) : Bytes := [Json.hexDigit 'a' (byte.toNat / 16), Json.hexDigit 'a' (byte.toNat % 16)]

/-- `sha256_file`. -/
def sha256File (digest : Bytes → Bytes) (file : Bytes × Bool) : Bytes :=
  if file.2 then (digest file.1).flatMap hexByte else []

def isLowerHex (c : UInt8) : Bool := isDigit c || (97 ≤ c && c ≤ 102)

/-- A line of the checksums. -/
def sumsLine (sums : List (Bytes × Bytes)) (line : Bytes) : Option (List (Bytes × Bytes)) :=
  if line = [] then some sums
  else if line.length < 67 || line.getD 64 0 ≠ ascii ' ' || line.getD 65 0 ≠ ascii ' ' then none
  else if !(line.take 64).all isLowerHex then none
  else
    let fn := line.drop 66
    if fn = [] || slash ∈ fn || backslash ∈ fn || fn = here || fn = parent then none
    else if !legacyFileInventory.any (·.filename = fn) then none
    else if (sums.lookup fn).isSome then none
    else some (sums ++ [(fn, line.take 64)])

/-- The checksums. -/
def readSums (archive : Archive) : Option (List (Bytes × Bytes)) :=
  match archive.regularFile (bytes "SHA256SUMS") with
  | some (some (content, readable)) =>
      match legacyFileInventory.mapM fun info => archive.fileExists info.filename with
      | none => none
      | some found =>
          match (getlines newline (if readable then content else [])).foldlM sumsLine [] with
          | none => none
          | some sums => if found.any id && sums = [] then none else some sums
  | _ => none

/-- The checksums against the disk. -/
def sumsHold (digest : Bytes → Bytes) (archive : Archive) (sums : List (Bytes × Bytes)) : Bool :=
  sums.all fun (fn, expectedHash) =>
    match archive.regularFile fn with
    | some (some file) => sha256File digest file = expectedHash
    | _ => false

structure ArchiveFileEntry where
  filename : Bytes
  size : Nat := 0
  sha256 : Bytes := []
  recordCount : Nat := 0
  optional : Bool := false
  present : Bool := false
  deriving DecidableEq

structure ArchiveManifest where
  manifestVersion : Bytes
  migrationId : Bytes
  sourceVersion : Bytes
  targetVersion : Bytes
  migrationTimestamp : Bytes
  sourceDirectory : Bytes
  archiveDirectory : Bytes
  files : List ArchiveFileEntry
  checksumMatch : Bool
  initialIntegrityCheck : Bytes
  reopenedIntegrityCheck : Bytes
  initialFkViolations : Int
  reopenedFkViolations : Int
  verificationResult : Bytes
  deriving DecidableEq

namespace ParsedManifest

/-- A string that is not there is empty. -/
def string (manifest : ParsedManifest) (key : Bytes) : Bytes := (manifest.strings.lookup key).getD []

/-- The strings, the boolean and the integers. -/
def fieldsHold (manifest : ParsedManifest) (expected : Bytes) : Bool :=
  manifest.string (bytes "manifest_version") = bytes "1.0" &&
    validMigrationId (manifest.string (bytes "migration_id")) &&
    safeVersion (manifest.string (bytes "source_version")) &&
    safeVersion (manifest.string (bytes "target_version")) &&
    manifest.string (bytes "verification_result") = bytes "success" &&
    manifest.string (bytes "initial_integrity_check") = bytes "ok" &&
    manifest.string (bytes "reopened_integrity_check") = bytes "ok" &&
    validTimestamp (manifest.string (bytes "migration_timestamp")) &&
    manifest.string (bytes "source_directory") ≠ [] &&
    manifest.string (bytes "archive_directory") = expected &&
    manifest.bools.lookup (bytes "checksum_match") = some true &&
    manifest.ints.lookup (bytes "initial_fk_violations") = some 0 &&
    manifest.ints.lookup (bytes "reopened_fk_violations") = some 0

end ParsedManifest

/-- Whether the inventory has the name for an optional file. -/
def isOptional (filename : Bytes) : Bool :=
  match legacyFileInventory.find? (·.filename = filename) with
  | some info => !info.required
  | none => false

/-- One entry of the manifest against the checksums and the disk. -/
def entryHolds (digest : Bytes → Bytes) (archive : Archive) (sums : List (Bytes × Bytes)) (pfe : ParsedFileEntry) : Bool :=
  pfe.optional = isOptional pfe.filename &&
    match archive.regularFile pfe.filename with
    | none => false
    | some disk =>
        if pfe.present then
          match disk, sums.lookup pfe.filename with
          | some file, some hash =>
              pfe.sha256 = hash && sha256File digest file ≠ [] && pfe.sha256 = sha256File digest file &&
                pfe.size = file.1.length
          | _, _ => false
        else
          disk.isNone && (sums.lookup pfe.filename).isNone && isOptional pfe.filename && pfe.sha256 = [] &&
            pfe.size = 0 && pfe.recordCount = 0

/-- The loop over the entries, with the names before them. -/
def entriesHold (digest : Bytes → Bytes) (archive : Archive) (sums : List (Bytes × Bytes)) :
    List Bytes → List ParsedFileEntry → Bool
  | _, [] => true
  | seen, pfe :: rest =>
      pfe.filename ≠ [] && pfe.valid && !seen.contains pfe.filename && entryHolds digest archive sums pfe &&
        entriesHold digest archive sums (pfe.filename :: seen) rest

def requiredListed (entries : List ParsedFileEntry) : Bool :=
  legacyFileInventory.all fun info => !info.required || entries.any (·.filename = info.filename)

/-- The exact content of the directory. -/
def directoryHolds (archive : Archive) : Bool :=
  archive.entries.all fun (fn, node) =>
    (match node with
      | .file _ _ => true
      | _ => false) &&
      (fn = bytes "manifest.json" || fn = bytes "SHA256SUMS" || legacyFileInventory.any (·.filename = fn))

/-- The entry that is handed out. -/
def fileEntryOf (pfe : ParsedFileEntry) : ArchiveFileEntry :=
  if pfe.present then ⟨pfe.filename, pfe.size, pfe.sha256, pfe.recordCount, pfe.optional, true⟩
  else { filename := pfe.filename, optional := pfe.optional }

def manifestOf (manifest : ParsedManifest) : ArchiveManifest where
  manifestVersion := manifest.string (bytes "manifest_version")
  migrationId := manifest.string (bytes "migration_id")
  sourceVersion := manifest.string (bytes "source_version")
  targetVersion := manifest.string (bytes "target_version")
  migrationTimestamp := manifest.string (bytes "migration_timestamp")
  sourceDirectory := manifest.string (bytes "source_directory")
  archiveDirectory := manifest.string (bytes "archive_directory")
  files := manifest.fileEntries.map fileEntryOf
  checksumMatch := (manifest.bools.lookup (bytes "checksum_match")).getD false
  initialIntegrityCheck := manifest.string (bytes "initial_integrity_check")
  reopenedIntegrityCheck := manifest.string (bytes "reopened_integrity_check")
  initialFkViolations := (manifest.ints.lookup (bytes "initial_fk_violations")).getD 0
  reopenedFkViolations := (manifest.ints.lookup (bytes "reopened_fk_violations")).getD 0
  verificationResult := manifest.string (bytes "verification_result")

/-- The path that the manifest must name. -/
def expectedArchivePath (given : Option Bytes) (archive : Archive) : Option Bytes :=
  match given with
  | some expected => some expected
  | none =>
      let ap := if archive.path.getLast? = some slash then archive.path else archive.path ++ [slash]
      let expected := normalizeArchiveIdentityPath ap
      if expected = [] then none else some expected

/-- `verify_archive_internal`. Nothing stands for a failure, and for an exception. -/
def verifyArchiveInternal (digest : Bytes → Bytes) (given : Option Bytes) (archive : Archive) : Option ArchiveManifest :=
  if archive.path = [] || !archive.directory then none
  else
    match readSums archive with
    | none => none
    | some sums =>
        if !sumsHold digest archive sums then none
        else
          match archive.regularFile (bytes "manifest.json") with
          | some (some (content, readable)) =>
              match parseManifest (if readable then content else []) with
              | none => none
              | some manifest =>
                  match expectedArchivePath given archive with
                  | none => none
                  | some expected =>
                      if !manifest.fieldsHold expected then none
                      else if manifest.fileEntries.length ≠ 19 then none
                      else if !entriesHold digest archive sums [] manifest.fileEntries then none
                      else if !requiredListed manifest.fileEntries then none
                      else if !directoryHolds archive then none
                      else some (manifestOf manifest)
          | _ => none

/-! ## What a check that succeeds says -/

namespace Archive

theorem mem_of_lookup {α : Type} {entries : List (Bytes × α)} {name : Bytes} {a : α}
    (h : entries.lookup name = some a) : (name, a) ∈ entries := by
  obtain ⟨front, back, rfl, -⟩ := List.lookup_eq_some_iff.mp h
  exact List.mem_append_right _ List.mem_cons_self

theorem regularFile_mem {archive : Archive} {name : Bytes} (hPlain : PlainName name) {file : Bytes × Bool}
    (h : archive.regularFile name = some (some file)) : (name, .file file.1 file.2) ∈ archive.entries := by
  rw [regularFile, find, if_pos hPlain] at h
  split at h
  · exact absurd h (by simp)
  · next content readable hFind =>
    obtain rfl := Option.some.inj (Option.some.inj h)
    exact mem_of_lookup (Option.some.inj hFind)
  · exact absurd h (by simp)
  · exact absurd (Option.some.inj h) (by simp)

/-- A directory has a name once, so that an entry is what is found under its name. -/
theorem find_of_mem {archive : Archive} {name : Bytes} {node : ArchiveNode} (h : (name, node) ∈ archive.entries) :
    archive.find name = some (some node) := by
  rw [find, if_pos (archive.plain _ h)]
  obtain ⟨found, hFound⟩ := Option.isSome_iff_exists.mp (List.lookup_isSome_iff.mpr ⟨_, h, beq_self_eq_true name⟩)
  have hSame := List.inj_on_of_nodup_map archive.distinct (mem_of_lookup hFound) h rfl
  rw [hFound, (Prod.mk.inj hSame).2]

theorem regularFile_of_mem {archive : Archive} {name content : Bytes} {readable : Bool}
    (h : (name, .file content readable) ∈ archive.entries) :
    archive.regularFile name = some (some (content, readable)) := by
  rw [regularFile, find_of_mem h]

end Archive

/-- An archive keeps the files that are listed: the names are different ones of the inventory,
what is listed as present stands there with its size and its checksum, what is listed as absent
is optional and is not there, and nothing else is there. -/
structure Keeps (digest : Bytes → Bytes) (archive : Archive) (entries : List ParsedFileEntry) : Prop where
  distinct : (entries.map ParsedFileEntry.filename).Nodup
  known : ∀ pfe ∈ entries, ∃ info ∈ legacyFileInventory, info.filename = pfe.filename ∧ pfe.optional = !info.required
  present : ∀ pfe ∈ entries, pfe.present = true → ∃ content, (pfe.filename, .file content true) ∈ archive.entries ∧
    pfe.size = content.length ∧ pfe.sha256 = (digest content).flatMap hexByte
  absent : ∀ pfe ∈ entries, pfe.present = false → pfe.optional = true ∧ pfe.filename ∉ archive.entries.map Prod.fst
  nothingElse : ∀ entry ∈ archive.entries, entry.1 = bytes "manifest.json" ∨ entry.1 = bytes "SHA256SUMS" ∨
    ∃ pfe ∈ entries, pfe.present = true ∧ pfe.filename = entry.1

theorem inventory_plain : ∀ info ∈ legacyFileInventory, PlainName info.filename := by
  decide

/-- The checksums are for files of the inventory. -/
theorem known_of_sumsLines (lines : List Bytes) (sums : List (Bytes × Bytes)) {last : List (Bytes × Bytes)}
    (hSums : ∀ entry ∈ sums, legacyFileInventory.any (·.filename = entry.1) = true)
    (h : lines.foldlM sumsLine sums = some last) :
    ∀ entry ∈ last, legacyFileInventory.any (·.filename = entry.1) = true := by
  induction lines generalizing sums with
  | nil =>
      obtain rfl : sums = last := Option.some.inj h
      exact hSums
  | cons line rest ih =>
      rw [List.foldlM_cons] at h
      obtain ⟨next, hLine, hRest⟩ := Option.bind_eq_some_iff.mp h
      refine ih next ?_ hRest
      unfold sumsLine at hLine
      simp only at hLine
      split at hLine
      · rw [← Option.some.inj hLine]
        exact hSums
      · split at hLine
        · exact absurd hLine (by simp)
        · split at hLine
          · exact absurd hLine (by simp)
          · split at hLine
            · exact absurd hLine (by simp)
            · split at hLine
              · exact absurd hLine (by simp)
              · next hKnown =>
                split at hLine
                · exact absurd hLine (by simp)
                · obtain rfl := Option.some.inj hLine
                  intro entry hEntry
                  rcases List.mem_append.mp hEntry with hOld | hNew
                  · exact hSums entry hOld
                  · rw [List.mem_singleton.mp hNew]
                    simpa using hKnown

theorem known_of_readSums {archive : Archive} {sums : List (Bytes × Bytes)} (h : readSums archive = some sums) :
    ∀ entry ∈ sums, legacyFileInventory.any (·.filename = entry.1) = true := by
  rw [readSums] at h
  split at h
  · split at h
    · exact absurd h (by simp)
    · split at h
      · exact absurd h (by simp)
      · next hLines =>
        split at h
        · exact absurd h (by simp)
        · obtain rfl := Option.some.inj h
          exact known_of_sumsLines _ [] (by simp) hLines
  · exact absurd h (by simp)

/-- What the loop finds of its entries, one by one and together. -/
theorem entriesHold_iff (digest : Bytes → Bytes) (archive : Archive) (sums : List (Bytes × Bytes)) (seen : List Bytes)
    (entries : List ParsedFileEntry) :
    entriesHold digest archive sums seen entries = true ↔
      (∀ pfe ∈ entries, pfe.filename ≠ [] ∧ pfe.valid = true ∧ pfe.filename ∉ seen ∧
        entryHolds digest archive sums pfe = true) ∧ (entries.map ParsedFileEntry.filename).Nodup := by
  induction entries generalizing seen with
  | nil => simp [entriesHold]
  | cons pfe rest ih =>
      rw [entriesHold, Bool.and_eq_true, ih, List.forall_mem_cons, List.map_cons, List.nodup_cons]
      simp only [Bool.and_eq_true, decide_eq_true_eq, Bool.not_eq_true', List.contains_eq_mem, decide_eq_false_iff_not,
        List.mem_cons, not_or]
      constructor
      · rintro ⟨⟨⟨⟨hNe, hValid⟩, hNew⟩, hHolds⟩, hRest, hNodup⟩
        refine ⟨⟨⟨hNe, hValid, hNew, hHolds⟩, fun next hNext => ?_⟩, fun hMem => ?_, hNodup⟩
        · obtain ⟨hNe, hValid, ⟨-, hNew⟩, hHolds⟩ := hRest next hNext
          exact ⟨hNe, hValid, hNew, hHolds⟩
        · obtain ⟨next, hNext, hSame⟩ := List.mem_map.mp hMem
          exact (hRest next hNext).2.2.1.1 hSame
      · rintro ⟨⟨⟨hNe, hValid, hNew, hHolds⟩, hRest⟩, hFresh, hNodup⟩
        refine ⟨⟨⟨⟨hNe, hValid⟩, hNew⟩, hHolds⟩, fun next hNext => ?_, hNodup⟩
        obtain ⟨hNextNe, hNextValid, hNextNew, hNextHolds⟩ := hRest next hNext
        exact ⟨hNextNe, hNextValid, ⟨fun hSame => hFresh (List.mem_map.mpr ⟨next, hNext, hSame⟩), hNextNew⟩, hNextHolds⟩

section
variable {digest : Bytes → Bytes} {archive : Archive} {sums : List (Bytes × Bytes)} {pfe : ParsedFileEntry}

theorem known_of_isOptional (h : isOptional pfe.filename = true) :
    ∃ info ∈ legacyFileInventory, info.filename = pfe.filename := by
  rw [isOptional] at h
  split at h
  · next info hFind => exact ⟨info, List.mem_of_find?_eq_some hFind, by simpa using List.find?_some hFind⟩
  · exact absurd h (by simp)

/-- Only files of the inventory have a checksum, and only these are optional. -/
theorem known_of_entryHolds (hSums : ∀ entry ∈ sums, legacyFileInventory.any (·.filename = entry.1) = true)
    (h : entryHolds digest archive sums pfe = true) :
    ∃ info ∈ legacyFileInventory, info.filename = pfe.filename ∧ pfe.optional = !info.required := by
  rw [entryHolds, Bool.and_eq_true, decide_eq_true_eq] at h
  have hListed : ∃ info ∈ legacyFileInventory, info.filename = pfe.filename := by
    replace h := h.2
    split at h
    · exact absurd h (by simp)
    · split at h
      · split at h
        · next hash hLookup _ => simpa using hSums _ (Archive.mem_of_lookup hLookup)
        · exact absurd h (by simp)
      · simp only [Bool.and_eq_true] at h
        exact known_of_isOptional h.1.1.1.2
  have hFound : (legacyFileInventory.find? (·.filename = pfe.filename)).isSome = true := by
    simpa [List.find?_isSome] using hListed
  obtain ⟨info, hFind⟩ := Option.isSome_iff_exists.mp hFound
  refine ⟨info, List.mem_of_find?_eq_some hFind, by simpa using List.find?_some hFind, ?_⟩
  rw [h.1, isOptional, hFind]

theorem present_of_entryHolds (hPlain : PlainName pfe.filename) (hPresent : pfe.present = true)
    (h : entryHolds digest archive sums pfe = true) :
    ∃ content, (pfe.filename, .file content true) ∈ archive.entries ∧ pfe.size = content.length ∧
      pfe.sha256 = (digest content).flatMap hexByte := by
  rw [entryHolds, Bool.and_eq_true] at h
  replace h := h.2
  split at h
  · exact absurd h (by simp)
  · next disk hDisk =>
    rw [if_pos hPresent] at h
    split at h
    · next file hash _ =>
      obtain ⟨content, readable⟩ := file
      simp only [Bool.and_eq_true, decide_eq_true_eq, sha256File] at h
      obtain ⟨⟨⟨-, hRead⟩, hSha⟩, hSize⟩ := h
      cases readable with
      | false => exact absurd rfl hRead
      | true => exact ⟨content, Archive.regularFile_mem hPlain hDisk, hSize, hSha⟩
    · exact absurd h (by simp)

theorem absent_of_entryHolds (hDirectory : directoryHolds archive = true) (hAbsent : pfe.present = false)
    (h : entryHolds digest archive sums pfe = true) :
    pfe.optional = true ∧ pfe.filename ∉ archive.entries.map Prod.fst := by
  rw [entryHolds, Bool.and_eq_true, decide_eq_true_eq] at h
  obtain ⟨hOptional, h⟩ := h
  split at h
  · exact absurd h (by simp)
  · next disk hDisk =>
    rw [if_neg (by simp [hAbsent])] at h
    simp only [Bool.and_eq_true] at h
    refine ⟨hOptional.trans h.1.1.1.2, fun hMem => ?_⟩
    -- What stands under the name would be a regular file.
    obtain ⟨⟨name, node⟩, hEntry, rfl⟩ := List.mem_map.mp hMem
    have hNode := List.all_eq_true.mp hDirectory _ hEntry
    simp only [Bool.and_eq_true] at hNode
    cases node with
    | file content readable =>
        rw [Archive.regularFile_of_mem hEntry] at hDisk
        rw [← Option.some.inj hDisk] at h
        exact absurd h.1.1.1.1.1 (by simp)
    | link reached => exact absurd hNode.1 (by simp)
    | directory => exact absurd hNode.1 (by simp)
    | other => exact absurd hNode.1 (by simp)

end

/-- As many different names as the inventory has, all of the inventory, are all of them. -/
theorem listed_of_known {entries : List ParsedFileEntry} (hDistinct : (entries.map ParsedFileEntry.filename).Nodup)
    (hKnown : ∀ pfe ∈ entries, ∃ info ∈ legacyFileInventory, info.filename = pfe.filename)
    (hLength : entries.length = 19) {info : LegacyFileInfo} (hInfo : info ∈ legacyFileInventory) :
    ∃ pfe ∈ entries, pfe.filename = info.filename := by
  have hSubset : entries.map ParsedFileEntry.filename ⊆ legacyFileInventory.map LegacyFileInfo.filename := by
    intro name hName
    obtain ⟨pfe, hPfe, rfl⟩ := List.mem_map.mp hName
    obtain ⟨info, hInfo, hSame⟩ := hKnown pfe hPfe
    exact hSame ▸ List.mem_map_of_mem hInfo
  have hPerm : (entries.map ParsedFileEntry.filename).Perm (legacyFileInventory.map LegacyFileInfo.filename) :=
    (List.subperm_of_subset hDistinct hSubset).perm_of_length_le (by simp [hLength, legacyFileInventory])
  exact List.mem_map.mp (hPerm.mem_iff.mpr (List.mem_map_of_mem hInfo))

/-- The archive keeps what its manifest lists, where a check succeeds. -/
theorem keeps_of_checks {digest : Bytes → Bytes} {archive : Archive} {sums : List (Bytes × Bytes)}
    {entries : List ParsedFileEntry} (hSums : readSums archive = some sums) (hLength : entries.length = 19)
    (hEntries : entriesHold digest archive sums [] entries = true) (hDirectory : directoryHolds archive = true) :
    Keeps digest archive entries := by
  obtain ⟨hEach, hDistinct⟩ := (entriesHold_iff ..).mp hEntries
  have hKnown : ∀ pfe ∈ entries, ∃ info ∈ legacyFileInventory, info.filename = pfe.filename ∧
      pfe.optional = !info.required := fun pfe hPfe =>
    known_of_entryHolds (known_of_readSums hSums) (hEach pfe hPfe).2.2.2
  have hPlain : ∀ pfe ∈ entries, PlainName pfe.filename := by
    intro pfe hPfe
    obtain ⟨info, hInfo, hName, -⟩ := hKnown pfe hPfe
    exact hName ▸ inventory_plain info hInfo
  have hAbsent : ∀ pfe ∈ entries, pfe.present = false →
      pfe.optional = true ∧ pfe.filename ∉ archive.entries.map Prod.fst := fun pfe hPfe hFalse =>
    absent_of_entryHolds hDirectory hFalse (hEach pfe hPfe).2.2.2
  refine ⟨hDistinct, hKnown, fun pfe hPfe hTrue => ?_, hAbsent, fun entry hEntry => ?_⟩
  · exact present_of_entryHolds (hPlain pfe hPfe) hTrue (hEach pfe hPfe).2.2.2
  · have hName := List.all_eq_true.mp hDirectory entry hEntry
    simp only [Bool.and_eq_true, Bool.or_eq_true, decide_eq_true_eq] at hName
    rcases hName.2 with (hManifest | hSumsFile) | hInventory
    · exact .inl hManifest
    · exact .inr (.inl hSumsFile)
    · obtain ⟨info, hInfo, hSame⟩ : ∃ info ∈ legacyFileInventory, info.filename = entry.1 := by
        simpa using hInventory
      obtain ⟨pfe, hPfe, hListed⟩ := listed_of_known hDistinct
        (fun pfe hPfe => (hKnown pfe hPfe).imp fun _ h => ⟨h.1, h.2.1⟩) hLength hInfo
      refine .inr (.inr ⟨pfe, hPfe, ?_, hListed.trans hSame⟩)
      by_contra hFalse
      have hGone := (hAbsent pfe hPfe (by simpa using hFalse)).2
      rw [hListed, hSame] at hGone
      exact hGone (List.mem_map_of_mem hEntry)

/-- Where the check succeeds, the manifest is a JSON object that lists nineteen files, and the
archive keeps them. -/
theorem verifyArchiveInternal_sound (digest : Bytes → Bytes) (given : Option Bytes) (archive : Archive)
    (manifest : ArchiveManifest) (h : verifyArchiveInternal digest given archive = some manifest) :
    ∃ json value entries, (bytes "manifest.json", .file json true) ∈ archive.entries ∧ Json.IsDocument json value ∧
      ManifestParser.Lists value entries ∧ entries.length = 19 ∧ manifest.files = entries.map fileEntryOf ∧
      Keeps digest archive entries := by
  rw [verifyArchiveInternal] at h
  split at h
  · exact absurd h (by simp)
  · split at h
    · exact absurd h (by simp)
    · next sums hSums =>
      split at h
      · exact absurd h (by simp)
      · split at h
        · next content readable hManifest =>
          split at h
          · exact absurd h (by simp)
          · next parsed hParsed =>
            split at h
            · exact absurd h (by simp)
            · split at h
              · exact absurd h (by simp)
              · split at h
                · exact absurd h (by simp)
                · next hLength =>
                  split at h
                  · exact absurd h (by simp)
                  · next hEntries =>
                    split at h
                    · exact absurd h (by simp)
                    · split at h
                      · exact absurd h (by simp)
                      · next hDirectory =>
                        obtain rfl := Option.some.inj h
                        cases readable with
                        | false =>
                            have hEmpty : parseManifest [] = none := by decide
                            rw [if_neg (by decide), hEmpty] at hParsed
                            exact absurd hParsed (by simp)
                        | true =>
                            obtain ⟨members, hDocument, hNodup, hFiles⟩ := ManifestParser.parseManifest_sound hParsed
                            have hLength : parsed.fileEntries.length = 19 := by simpa using hLength
                            refine ⟨content, .object members, parsed.fileEntries, ?_, hDocument, ?_, hLength, rfl, ?_⟩
                            · exact Archive.regularFile_mem (by decide) hManifest
                            · refine ManifestParser.lists_of_filesHold hNodup hFiles fun hEmpty => ?_
                              rw [hEmpty] at hLength
                              exact absurd hLength (by decide)
                            · exact keeps_of_checks hSums hLength (by simpa using hEntries) (by simpa using hDirectory)
        · exact absurd h (by simp)


/-! ## An archive without the optional files -/

/-- The checksum of the empty text, for every text. -/
def emptyDigest (_ : Bytes) : Bytes :=
  [0xe3, 0xb0, 0xc4, 0x42, 0x98, 0xfc, 0x1c, 0x14, 0x9a, 0xfb, 0xf4, 0xc8, 0x99, 0x6f, 0xb9, 0x24, 0x27, 0xae, 0x41,
    0xe4, 0x64, 0x9b, 0x93, 0x4c, 0xa4, 0x95, 0x99, 0x1b, 0x78, 0x52, 0xb8, 0x55]

def emptySum : Bytes := (emptyDigest []).flatMap hexByte

def sampleEntry (info : LegacyFileInfo) : Bytes :=
  bytes "\x7b\"filename\":\"" ++ info.filename ++ bytes "\",\"sha256\":\"" ++ (if info.required then emptySum else []) ++
    bytes "\",\"size\":0,\"record_count\":0,\"optional\":" ++ (if info.required then bytes "false" else bytes "true") ++
    bytes ",\"present\":" ++ (if info.required then bytes "true" else bytes "false") ++ bytes "\x7d"

def sampleMember (member : Bytes × Bytes) : Bytes := quote :: (member.1 ++ bytes "\":\"" ++ member.2 ++ bytes "\",")

def sampleManifest : Bytes :=
  bytes "\x7b" ++
    ([(bytes "manifest_version", bytes "1.0"), (bytes "migration_id", bytes "00000000-0000-4000-8000-000000000000"),
      (bytes "source_version", bytes "v0.1.0"), (bytes "target_version", bytes "v0.2.0"),
      (bytes "migration_timestamp", bytes "20260101T000000Z"), (bytes "source_directory", bytes "/srv"),
      (bytes "archive_directory", bytes "/a"), (bytes "verification_result", bytes "success"),
      (bytes "initial_integrity_check", bytes "ok"), (bytes "reopened_integrity_check", bytes "ok")]).flatMap sampleMember ++
    bytes "\"checksum_match\":true,\"initial_fk_violations\":0,\"reopened_fk_violations\":0,\"files\":[" ++
    [ascii ','].intercalate (legacyFileInventory.map sampleEntry) ++ bytes "]\x7d"

def sampleSums : Bytes :=
  (legacyFileInventory.filter (·.required)).flatMap fun info => emptySum ++ bytes "  " ++ info.filename ++ [newline]

def sampleArchive : Archive where
  path := bytes "/a"
  directory := true
  entries :=
    (bytes "manifest.json", .file sampleManifest true) :: (bytes "SHA256SUMS", .file sampleSums true) ::
      (legacyFileInventory.filter (·.required)).map fun info => (info.filename, .file [] true)
  elsewhere := fun _ => some none
  plain := by decide
  distinct := by decide

set_option maxRecDepth 100000 in
theorem sampleArchive_verified :
    ((verifyArchiveInternal emptyDigest none sampleArchive).map fun manifest =>
      manifest.files.any (·.filename = bytes "template_profiles.db")) = some true := by
  decide +kernel

theorem verifyArchiveInternal_sound_sample :
    ∃ manifest, verifyArchiveInternal emptyDigest none sampleArchive = some manifest ∧
      ∃ json value entries, (bytes "manifest.json", .file json true) ∈ sampleArchive.entries ∧
        Json.IsDocument json value ∧ ManifestParser.Lists value entries ∧ entries.length = 19 ∧
        manifest.files = entries.map fileEntryOf ∧ Keeps emptyDigest sampleArchive entries := by
  obtain ⟨manifest, hVerified, -⟩ := Option.map_eq_some_iff.mp sampleArchive_verified
  exact ⟨manifest, hVerified, verifyArchiveInternal_sound emptyDigest none sampleArchive manifest hVerified⟩

/-- A file is listed and not there. -/
theorem listed_absent :
    ∃ manifest, verifyArchiveInternal emptyDigest none sampleArchive = some manifest ∧
      ∃ file ∈ manifest.files, file.filename ∉ sampleArchive.entries.map Prod.fst := by
  obtain ⟨manifest, hVerified, hListed⟩ := Option.map_eq_some_iff.mp sampleArchive_verified
  obtain ⟨file, hFile, hName⟩ := List.any_eq_true.mp hListed
  refine ⟨manifest, hVerified, file, hFile, ?_⟩
  rw [of_decide_eq_true hName]
  decide

end ContainerCP.Storage
