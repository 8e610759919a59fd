import ContainerCP.Database.LifecycleService
import Mathlib.Data.List.DropRight
import Mathlib.Data.List.Infix

/-! `DatabaseDumpService`: the artifact of an export, and which artifacts an import
accepts. -/
namespace ContainerCP.DatabaseDump

open DatabaseLifecycle (validateDatabaseName identifierByte)

/-! ## Artifacts -/

/-- What `lstat` says about a file, apart from its size. -/
structure FileStat where
  regular : Bool := true
  links : Nat := 1
  owned : Bool := true
  ownerOnly : Bool := true
  deriving DecidableEq

structure ArtifactFile where
  content : Bytes
  stat : FileStat := {}
  deriving DecidableEq

/-- `safe_file_stat`: the size of a file that nobody else can reach. -/
def safeFileStat (file : ArtifactFile) : Option Nat :=
  if file.stat.regular && file.stat.links = 1 && file.stat.owned && file.stat.ownerOnly && file.content ≠ [] then
    some file.content.length
  else none

def exportMarker : Bytes := bytes "-- ContainerCP DB-4 logical export"

/-- The two lines that `prepend_export_header` writes. -/
def exportHeader (databaseName : Bytes) : Bytes :=
  exportMarker ++ newline :: (bytes "-- database: " ++ databaseName ++ [newline])

/-- How the steps of an export go: what `mariadb-dump` writes, if it does not fail, and what
becomes of the files. -/
structure ExportOutcome where
  dump : Option Bytes
  dumpStat : FileStat := {}
  headerWritten : Bool := true
  headerStat : FileStat := {}
  checksum : Bool := true
  finalized : Bool := true

/-- `regular_owner_only_file`. -/
def regularOwnerOnlyFile (stat : FileStat) : Bool := stat.regular && stat.owned && stat.ownerOnly

/-- `MariaDBProvider::export_database`, for a name that `resolve_target` has checked. -/
def exportDatabase (outcome : ExportOutcome) (databaseName : Bytes) : Except Bytes ArtifactFile :=
  if !validateDatabaseName databaseName then .error (bytes "identifier_invalid")
  else
    match outcome.dump with
    | none => .error (bytes "mariadb_command_failed")
    | some dump =>
        if regularOwnerOnlyFile outcome.dumpStat && outcome.headerWritten then
          .ok ⟨exportHeader databaseName ++ dump, outcome.headerStat⟩
        else .error (bytes "artifact_finalize_failed")

/-- `exportManagedDatabase` behind its checks, with `finalize_export_artifact`: the artifact
that is kept. -/
def exportArtifact (outcome : ExportOutcome) (databaseName : Bytes) : Except Bytes ArtifactFile :=
  match exportDatabase outcome databaseName with
  | .error code => .error code
  | .ok file =>
      match safeFileStat file with
      | none => .error (bytes "artifact_file_invalid")
      | some _ =>
          if !outcome.checksum then .error (bytes "checksum_failed")
          else if !outcome.finalized then .error (bytes "artifact_finalize_failed")
          else .ok file

/-! ## The policy of an import -/

/-- `std::tolower`. -/
def toLower (c : UInt8) : UInt8 := if 65 ≤ c ∧ c ≤ 90 then c + 32 else c

def lowerCopy (text : Bytes) : Bytes := text.map toLower

def maxImportSizeBytes : Nat := 5 * 1024 * 1024

def rejectedFragments : List Bytes :=
  [bytes "create database", bytes "drop database", bytes "use `", bytes "use ",
    bytes "grant ", bytes "create user", bytes "alter user", bytes "load data local infile", bytes "\nsource ", bytes "\n\\.",
    bytes "definer=", bytes " into outfile", bytes " from infile"]

/-- `database_import_content_policy_allows`: the code and the message of a refusal. -/
def importContentPolicy (file : ArtifactFile) : Option (Bytes × Bytes) :=
  match safeFileStat file with
  | none => some (bytes "artifact_file_invalid", bytes "Import artifact is not a safe regular file")
  | some size =>
      if size > maxImportSizeBytes then
        some (bytes "upload_too_large", bytes "Import artifact exceeds the configured size limit")
      else if ¬exportMarker <:+: file.content then
        some (bytes "unsupported_import_format", bytes "Only ContainerCP-generated .sql exports are supported for DB-4 import")
      else if ∃ fragment ∈ rejectedFragments, fragment <:+: lowerCopy file.content then
        some (bytes "unsupported_sql_construct", bytes "Import artifact contains SQL outside the DB-4 safety policy")
      else none

/-! ## What an export has in it -/

theorem exportArtifact_ok {outcome : ExportOutcome} {databaseName : Bytes} {file : ArtifactFile}
    (h : exportArtifact outcome databaseName = .ok file) :
    ∃ dump, outcome.dump = some dump ∧ validateDatabaseName databaseName = true ∧
      file.content = exportHeader databaseName ++ dump ∧ safeFileStat file = some file.content.length := by
  rw [exportArtifact] at h
  split at h
  · cases h
  · next exported hExported =>
    have hStat : ∀ size, safeFileStat exported = some size → size = exported.content.length := by
      intro size hSize
      rw [safeFileStat] at hSize
      split at hSize
      · exact (Option.some.inj hSize).symm
      · cases hSize
    split at h
    · cases h
    · next size hSize =>
      split at h
      · cases h
      · split at h
        · cases h
        · obtain rfl := Except.ok.inj h
          rw [exportDatabase] at hExported
          split at hExported
          · cases hExported
          · next hName =>
            split at hExported
            · cases hExported
            · next dump hDump =>
              split at hExported
              · obtain rfl := Except.ok.inj hExported
                exact ⟨dump, hDump, by simpa using hName, rfl, by rw [hSize, hStat size hSize]⟩
              · cases hExported

/-! ## Fragments and lines -/

/-- A fragment with no line end but at its front lies before a line end, or behind it. -/
theorem isInfix_of_append_newline {fragment front rest : Bytes} (hTail : newline ∉ fragment.tail)
    (h : fragment <:+: front ++ newline :: rest) : fragment <:+: front ∨ fragment <:+: newline :: rest := by
  obtain ⟨before, behind, hText⟩ := h
  rw [List.append_assoc, List.append_eq_append_iff] at hText
  rcases hText with ⟨more, hFront, hRest⟩ | ⟨more, hBefore, hRest⟩
  · -- The fragment starts in front of the line end.
    rw [List.append_eq_append_iff] at hRest
    rcases hRest with ⟨end', hMore, -⟩ | ⟨end', hFragment, hBehind⟩
    · exact .inl ⟨before, end', by rw [hFront, hMore, List.append_assoc]⟩
    · cases end' with
      | nil => exact .inl ⟨before, [], by rw [hFront, hFragment]; simp⟩
      | cons c end' =>
          obtain ⟨rfl, -⟩ := List.cons.inj hBehind
          cases more with
          | nil =>
              rw [List.nil_append] at hFragment
              exact .inr ⟨[], behind, by rw [hFragment]; exact hBehind.symm⟩
          | cons d more => exact absurd (by simp [hFragment]) hTail
  · exact .inr ⟨more, behind, by rw [List.append_assoc]; exact hRest.symm⟩

/-- Behind its last other byte a fragment can go on into a run of some bytes; the part up
to it cannot. -/
theorem isInfix_of_run {keep : UInt8 → Bool} {fragment front run : Bytes} (hRun : ∀ c ∈ run, keep c = true)
    (hOther : fragment.rdropWhile keep ≠ []) (h : fragment <:+: front ++ run) : fragment.rdropWhile keep <:+: front := by
  have hPart : fragment.rdropWhile keep <:+: front ++ run := (List.rdropWhile_prefix keep fragment).isInfix.trans h
  obtain ⟨before, behind, hText⟩ := hPart
  rw [List.append_eq_append_iff] at hText
  rcases hText with ⟨more, hFront, -⟩ | ⟨more, hFront, hRest⟩
  · exact ⟨before, more, hFront.symm⟩
  · cases more using List.reverseRecOn with
    | nil => exact ⟨before, [], by rw [hFront]; simp⟩
    | append_singleton more last =>
        have hLast : (fragment.rdropWhile keep).getLast hOther = last := by
          have hEnds := congrArg List.getLast? hFront
          rw [List.getLast?_append_of_ne_nil _ hOther, List.getLast?_eq_some_getLast hOther] at hEnds
          simpa using hEnds
        have hKeep := List.rdropWhile_last_not keep fragment hOther
        rw [hLast] at hKeep
        exact absurd (hRun last (by simp [hRest])) hKeep

/-! ## Which exports are accepted -/

/-- No fragment that an import rejects is in the dump, or starts with the line end in front
of it. -/
def Clean (dump : Bytes) : Prop := ∀ fragment ∈ rejectedFragments, ¬fragment <:+: newline :: lowerCopy dump

instance (dump : Bytes) : Decidable (Clean dump) := List.decidableBAll _ rejectedFragments

theorem identifierByte_toLower {c : UInt8} (h : identifierByte c = true) : identifierByte (toLower c) = true := by
  have hAll : ∀ n : Fin 256, identifierByte (UInt8.ofNat n.val) = true →
      identifierByte (toLower (UInt8.ofNat n.val)) = true := by decide +kernel
  have hByte := hAll ⟨c.toNat, c.toNat_lt⟩
  rw [UInt8.ofNat_toNat] at hByte
  exact hByte h

theorem identifierByte_of_valid {name : Bytes} (h : validateDatabaseName name = true) :
    ∀ c ∈ lowerCopy name, identifierByte c = true := by
  intro c hc
  obtain ⟨d, hd, rfl⟩ := List.mem_map.mp hc
  refine identifierByte_toLower ?_
  cases name with
  | nil => exact absurd hd List.not_mem_nil
  | cons first rest =>
      simp only [validateDatabaseName, DatabaseLifecycle.validateIdentifier, Bool.and_eq_true, List.all_eq_true] at h
      exact h.2 d hd

/-- The header has no fragment in it, and none that ends in it begins there. -/
theorem isInfix_lowerCopy_export {name dump fragment : Bytes} (hName : validateDatabaseName name = true)
    (hMem : fragment ∈ rejectedFragments) :
    fragment <:+: lowerCopy (exportHeader name ++ dump) ↔ fragment <:+: newline :: lowerCopy dump := by
  have hText : lowerCopy (exportHeader name ++ dump) = lowerCopy exportMarker ++
      newline :: ((bytes "-- database: " ++ lowerCopy name) ++ newline :: lowerCopy dump) := by
    have hLine : lowerCopy (bytes "-- database: ") = bytes "-- database: " := by decide
    have hEnd : toLower newline = newline := by decide
    have hPlain : bytes "-- database: " = (bytes "-- database: ").map toLower := hLine.symm
    rw [exportHeader, hPlain]
    simp only [lowerCopy, List.map_append, List.map_cons, List.append_assoc, List.cons_append, List.nil_append, hEnd,
      ← hPlain]
  have hFacts : ∀ fragment ∈ rejectedFragments, newline ∉ fragment.tail ∧ ¬fragment <:+: lowerCopy exportMarker ∧
      fragment.rdropWhile identifierByte ≠ [] ∧
      ¬fragment.rdropWhile identifierByte <:+: newline :: bytes "-- database: " := by decide
  obtain ⟨hTail, hMarker, hOther, hLine⟩ := hFacts fragment hMem
  rw [hText]
  constructor
  · intro h
    rcases isInfix_of_append_newline hTail h with hFirst | hRest
    · exact absurd hFirst hMarker
    · rw [← List.cons_append] at hRest
      rcases isInfix_of_append_newline hTail hRest with hSecond | hDump
      · rw [← List.cons_append] at hSecond
        exact absurd (isInfix_of_run (identifierByte_of_valid hName) hOther hSecond) hLine
      · exact hDump
  · intro h
    refine h.trans ?_
    rw [← List.cons_append, ← List.append_assoc]
    exact (List.suffix_append _ _).isInfix

theorem importContentPolicy_export {outcome : ExportOutcome} {name dump : Bytes} {file : ArtifactFile}
    (h : exportArtifact outcome name = .ok file) (hDump : outcome.dump = some dump) :
    importContentPolicy file =
      if file.content.length > maxImportSizeBytes then
        some (bytes "upload_too_large", bytes "Import artifact exceeds the configured size limit")
      else if Clean dump then none
      else some (bytes "unsupported_sql_construct", bytes "Import artifact contains SQL outside the DB-4 safety policy") := by
  obtain ⟨found, hFound, hName, hContent, hStat⟩ := exportArtifact_ok h
  obtain rfl : found = dump := Option.some.inj (hFound.symm.trans hDump)
  have hMarker : exportMarker <:+: file.content := by
    rw [hContent, exportHeader, List.append_assoc]
    exact (List.prefix_append _ _).isInfix
  have hClean : (∃ fragment ∈ rejectedFragments, fragment <:+: lowerCopy file.content) ↔ ¬Clean found := by
    rw [Clean, hContent]
    simp only [not_forall, not_not, exists_prop]
    exact exists_congr fun fragment => and_congr_right fun hMem => isInfix_lowerCopy_export hName hMem
  rw [importContentPolicy, hStat]
  simp only [hMarker, not_true_eq_false, if_false, hClean]
  split
  · rfl
  · by_cases hFragments : Clean found <;> simp [hFragments]

/-- An export is accepted if it is not too large and has no fragment in its dump. One that
is too large is not accepted. -/
theorem export_accepted {outcome : ExportOutcome} {name dump : Bytes} {file : ArtifactFile}
    (h : exportArtifact outcome name = .ok file) (hDump : outcome.dump = some dump) :
    (file.content.length ≤ maxImportSizeBytes → Clean dump → importContentPolicy file = none) ∧
      (maxImportSizeBytes < file.content.length → (importContentPolicy file).map Prod.fst = some (bytes "upload_too_large")) := by
  rw [importContentPolicy_export h hDump]
  constructor
  · intro hSize hClean
    rw [if_neg (Nat.not_lt.mpr hSize), if_pos hClean]
  · intro hSize
    rw [if_pos hSize]
    rfl

/-- A table with one text in it. -/
def tableDump (text : String) : Bytes :=
  bytes "DROP TABLE IF EXISTS `t`;\nCREATE TABLE `t` (\n  `a` text DEFAULT NULL\n);\nINSERT INTO `t` VALUES\n('" ++
    bytes text ++ bytes "');\n"

def exported (dump : Bytes) : ArtifactFile := ⟨exportHeader (bytes "shop") ++ dump, {}⟩

theorem harmless_export_accepted : importContentPolicy (exported (tableDump "hello")) = none := by
  have hExport : exportArtifact { dump := some (tableDump "hello") } (bytes "shop") = .ok (exported (tableDump "hello")) := by
    rfl
  have hSize : (exported (tableDump "hello")).content.length ≤ maxImportSizeBytes := by decide +kernel
  have hClean : Clean (tableDump "hello") := by
    unfold tableDump
    repeat rw [bytes_ofList]
    decide +kernel
  exact (export_accepted hExport rfl).1 hSize hClean

/-- A word in a row is taken for a statement. -/
theorem row_text_rejected :
    exportArtifact { dump := some (tableDump "how to use it") } (bytes "shop") = .ok (exported (tableDump "how to use it")) ∧
      (importContentPolicy (exported (tableDump "how to use it"))).map Prod.fst =
        some (bytes "unsupported_sql_construct") := by
  constructor
  · rfl
  · unfold exported exportHeader tableDump
    repeat rw [bytes_ofList]
    decide +kernel

end ContainerCP.DatabaseDump
