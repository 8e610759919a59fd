import ContainerCP.Migration.ImportSafety

/-! The dump that `inspect` reports, set against the dump that `import_sql` imports. -/
namespace ContainerCP.Migration

/-- The entries of the backup. -/
def entriesOf (reads : Reads) : List Bytes :=
  match tarSafeList reads.listing with
  | .ok entries => entries
  | .error _ => []

/-- A path is not the one of a dump of another database. -/
def OnlyOf (name path : Bytes) : Prop := ∀ other type, parseEntry path other = some type → other = name

/-- Where `inspect` reports a dump, the import imports that one or none; and where the backup
has a dump of the database that the configuration names, neither takes one of another. `tar`
is taken to find only what it lists. -/
structure DryRunAgrees (reads : Reads) (opts : Options) : Prop where
  same : ∀ calls left site path, (∀ path, calls.extracts path = true → path ∈ entriesOf reads) →
    (importSql reads opts calls left site).2.fed = some path → (inspect reads opts).dbDumpPath ≠ [] →
      path = (inspect reads opts).dbDumpPath
  inspected : (inspect reads opts).wpDbName ≠ [] → archived (entriesOf reads) (inspect reads opts).wpDbName = true →
    (inspect reads opts).dbDumpPath ≠ [] → OnlyOf (inspect reads opts).wpDbName (inspect reads opts).dbDumpPath
  imported : archived (entriesOf reads) (inspect reads opts).wpDbName = true → ∀ calls left site path,
    (importSql reads opts calls left site).2.fed = some path → OnlyOf (inspect reads opts).wpDbName path

/-- The condition, where `inspect` looks for a dump and the configuration names a database:
the first name of its search that has a dump is the database where that has one, and the first
one of the search for that name where the import may run; and the dump has no second path
among those that the import tries. -/
def SearchesMeet (reads : Reads) (opts : Options) : Prop :=
  let manifest := inspect reads opts
  let entries := entriesOf reads
  shouldSearchDb opts manifest = true → dbToFind opts manifest ≠ [] → manifest.wpDbName ≠ [] →
    (∀ found, firstArchived entries (candidates (dbToFind opts manifest)) = some found →
      (archived entries manifest.wpDbName = true → found = manifest.wpDbName) ∧
        (manifest.canImportSql = true → ∀ own, firstArchived entries (candidates manifest.wpDbName) = some own → found = own)) ∧
      (manifest.canImportSql = true → ∀ own dump, firstArchived entries (candidates manifest.wpDbName) = some own →
        firstDump entries own = some dump → ∀ path ∈ extractionPaths dump manifest.wpDbName, path ∈ entries → path = dump.1)

/-! ## What `inspect` reports -/

section Inspect

variable (reads : Reads) (opts : Options)

/-- The dump of a manifest, by what it says of the configuration. -/
def reportedDump (entries : List Bytes) (opts : Options) (manifest : Manifest) : Option (Bytes × Bytes) :=
  if shouldSearchDb opts manifest then inspectedDump entries opts manifest else none

/-- What the lookup reads of a manifest. -/
structure SameConfig (first second : Manifest) : Prop where
  found : second.wpConfigFound = first.wpConfigFound
  parsed : second.wpConfigParsed = first.wpConfigParsed
  ambiguous : second.wpDbAmbiguous = first.wpDbAmbiguous
  name : second.wpDbName = first.wpDbName

theorem SameConfig.reportedDump {first second : Manifest} (h : SameConfig first second) (entries : List Bytes) :
    reportedDump entries opts second = reportedDump entries opts first := by
  obtain ⟨hFound, hParsed, hAmbiguous, hName⟩ := h
  cases first
  cases second
  dsimp only at hFound hParsed hAmbiguous hName
  subst hFound hParsed hAmbiguous hName
  rfl

theorem sameConfig_withDatabase (entries : List Bytes) (manifest : Manifest) :
    SameConfig manifest (withDatabase entries opts manifest) := by
  unfold withDatabase
  split
  · dsimp only
    split <;> exact ⟨rfl, rfl, rfl, rfl⟩
  · exact ⟨rfl, rfl, rfl, rfl⟩

theorem sameConfig_withWarnings (manifest : Manifest) : SameConfig manifest (withWarnings manifest) := by
  unfold withWarnings
  dsimp only
  split <;> split <;> exact ⟨rfl, rfl, rfl, rfl⟩

theorem withWarnings_frame (manifest : Manifest) :
    (withWarnings manifest).dbDumpPath = manifest.dbDumpPath ∧ (withWarnings manifest).errors = manifest.errors := by
  unfold withWarnings
  dsimp only
  split <;> split <;> exact ⟨rfl, rfl⟩

theorem errors_withDatabase (entries : List Bytes) (manifest : Manifest) :
    (withDatabase entries opts manifest).errors = manifest.errors := by
  unfold withDatabase
  split
  · dsimp only
    split <;> rfl
  · rfl

theorem dbDumpPath_withDatabase (entries : List Bytes) {manifest : Manifest} (h : manifest.dbDumpPath = []) :
    (withDatabase entries opts manifest).dbDumpPath = ((reportedDump entries opts manifest).map Prod.fst).getD [] := by
  have hDump : inspectedDump entries opts { manifest with allDatabases := allDatabases entries } =
      inspectedDump entries opts manifest := rfl
  unfold withDatabase reportedDump
  split
  · dsimp only
    rw [hDump]
    split
    · next path type hFound => rw [hFound]; rfl
    · next hNone =>
      rw [hNone]
      exact h
  · exact h

theorem withStage_frame (manifest : Manifest) :
    SameConfig manifest (withStage manifest) ∧ (withStage manifest).dbDumpPath = manifest.dbDumpPath ∧
      (withStage manifest).errors = manifest.errors := by
  unfold withStage
  split
  · exact ⟨⟨rfl, rfl, rfl, rfl⟩, rfl, rfl⟩
  split
  · exact ⟨⟨rfl, rfl, rfl, rfl⟩, rfl, rfl⟩
  split <;> exact ⟨⟨rfl, rfl, rfl, rfl⟩, rfl, rfl⟩

theorem withMarker_frame (manifest : Manifest) :
    SameConfig manifest (withMarker reads opts manifest) ∧
      (withMarker reads opts manifest).dbDumpPath = manifest.dbDumpPath ∧
      (withMarker reads opts manifest).errors = manifest.errors := by
  unfold withMarker
  dsimp only
  split
  · generalize hRead : Manifest.mk .. = read
    split
    · obtain ⟨⟨hFound, hParsed, hAmbiguous, hName⟩, hPath, hErrors⟩ := withStage_frame read
      subst hRead
      exact ⟨⟨hFound, hParsed, hAmbiguous, hName⟩, hPath, hErrors⟩
    · subst hRead
      exact ⟨⟨rfl, rfl, rfl, rfl⟩, rfl, rfl⟩
  · exact ⟨⟨rfl, rfl, rfl, rfl⟩, rfl, rfl⟩

theorem extractWpConfig_frame (content : Option Bytes) (manifest : Manifest) :
    (extractWpConfig content manifest).dbDumpPath = manifest.dbDumpPath ∧
      (extractWpConfig content manifest).errors = manifest.errors := by
  cases content <;> exact ⟨rfl, rfl⟩

/-- The name of a database is what was parsed. -/
theorem parsed_extractWpConfig (content : Option Bytes) {manifest : Manifest} (hName : manifest.wpDbName = []) :
    (extractWpConfig content manifest).wpDbName ≠ [] → (extractWpConfig content manifest).wpConfigParsed = true := by
  cases content with
  | none => exact fun h => absurd hName h
  | some content =>
      intro h
      by_contra hNot
      refine h ?_
      unfold extractWpConfig at hNot ⊢
      dsimp only at hNot ⊢
      rw [if_neg hNot]
      exact hName

/-- What `inspect` says: nothing of a database, or what the lookup finds in the entries. -/
theorem inspect_cases :
    ((inspect reads opts).errors ≠ [] ∧ (inspect reads opts).wpDbName = [] ∧ (inspect reads opts).dbDumpPath = []) ∨
      (tarSafeList reads.listing = .ok (entriesOf reads) ∧ (inspect reads opts).errors = [] ∧
        (inspect reads opts).dbDumpPath = ((reportedDump (entriesOf reads) opts (inspect reads opts)).map Prod.fst).getD [] ∧
        ((inspect reads opts).wpDbName ≠ [] → (inspect reads opts).wpConfigParsed = true)) := by
  unfold inspect
  split
  · next hOptions => exact .inl ⟨List.cons_ne_nil _ _, rfl, rfl⟩
  split
  · exact .inl ⟨List.cons_ne_nil _ _, rfl, rfl⟩
  next entries hList =>
  have hEntries : entriesOf reads = entries := by rw [entriesOf, hList]
  rw [hEntries]
  split
  · exact .inl ⟨List.cons_ne_nil _ _, rfl, rfl⟩
  dsimp only
  split
  · exact .inl ⟨List.cons_ne_nil _ _, rfl, rfl⟩
  split
  · exact .inl ⟨List.cons_ne_nil _ _, rfl, rfl⟩
  split
  · exact .inl ⟨List.cons_ne_nil _ _, rfl, rfl⟩
  refine .inr ⟨hList, ?_⟩
  generalize hManifest : Manifest.mk .. = manifest
  have hBlank : manifest.dbDumpPath = [] ∧ manifest.errors = [] ∧ manifest.wpDbName = [] := by
    subst hManifest
    exact ⟨rfl, rfl, rfl⟩
  obtain ⟨hPath, hErrors, hName⟩ := hBlank
  have hParsed := parsed_extractWpConfig reads.config hName
  obtain ⟨hPathConfig, hErrorsConfig⟩ := extractWpConfig_frame reads.config manifest
  generalize extractWpConfig reads.config manifest = manifest at *
  obtain ⟨hSame, hPathMarker, hErrorsMarker⟩ := withMarker_frame reads opts manifest
  have hSameDatabase := sameConfig_withDatabase opts entries (withMarker reads opts manifest)
  have hPathDatabase := dbDumpPath_withDatabase opts entries (hPathMarker.trans (hPathConfig.trans hPath))
  have hErrorsDatabase := errors_withDatabase opts entries (withMarker reads opts manifest)
  generalize withMarker reads opts manifest = marked at *
  have hSameWarnings := sameConfig_withWarnings (withDatabase entries opts marked)
  obtain ⟨hPathWarnings, hErrorsWarnings⟩ := withWarnings_frame (withDatabase entries opts marked)
  refine ⟨?_, ?_, ?_⟩
  · rw [hErrorsWarnings, hErrorsDatabase, hErrorsMarker, hErrorsConfig, hErrors]
  · rw [hPathWarnings, hPathDatabase, hSameWarnings.reportedDump opts, hSameDatabase.reportedDump opts]
  · rw [hSameWarnings.name, hSameWarnings.parsed, hSameDatabase.name, hSameDatabase.parsed, hSame.name, hSame.parsed]
    exact hParsed

end Inspect

/-! ## What `import_sql` imports -/

section Import

variable (opts : Options) (calls : SqlCalls) (left : SqlLeftovers)

theorem copyConfigBack_fed (works : Bool) (junk : Bytes) (disk : SqlDisk) : (copyConfigBack works junk disk).fed = disk.fed := by
  unfold copyConfigBack
  split <;> rfl

theorem cleanupSql_fed (disk : SqlDisk) : (cleanupSql opts calls left disk).fed = disk.fed := by
  unfold cleanupSql
  split <;> rfl

theorem doRollback_fed (copied : Bool) (disk : SqlDisk) : (doRollback calls left copied disk).fed = disk.fed := by
  unfold doRollback
  split
  · rfl
  split
  · rfl
  dsimp only
  split
  · rfl
  split
  · exact copyConfigBack_fed _ _ _
  · rfl

theorem undoSql_fed (result : ImportSqlResult) (copied again : Bool) (error : Bytes) (disk : SqlDisk) :
    (undoSql opts calls left result copied again error disk).2.fed = disk.fed := by
  unfold undoSql
  dsimp only
  rw [cleanupSql_fed]
  split
  · rw [copyConfigBack_fed, doRollback_fed]
  · exact doRollback_fed calls left copied disk

theorem finishSql_fed (prepared : SqlPrepared) (result : ImportSqlResult) (copied : Bool) (disk : SqlDisk) :
    (finishSql opts calls left prepared result copied disk).2.fed = disk.fed := by
  unfold finishSql
  split
  · exact undoSql_fed ..
  split
  · exact undoSql_fed ..
  split
  · exact undoSql_fed ..
  · exact cleanupSql_fed ..

theorem updateConfig_fed (prepared : SqlPrepared) (result : ImportSqlResult) (disk : SqlDisk) :
    (updateConfig opts calls left prepared result disk).2.fed = disk.fed := by
  unfold updateConfig
  split
  · exact finishSql_fed ..
  split
  · exact undoSql_fed ..
  dsimp only
  split
  · exact undoSql_fed ..
  · exact finishSql_fed ..

theorem replaceDatabase_fed (prepared : SqlPrepared) (disk : SqlDisk) :
    (replaceDatabase opts calls left prepared disk).2.fed =
      if calls.dropFails prepared then disk.fed else some prepared.dumpPath := by
  unfold replaceDatabase SqlCalls.dropFails
  dsimp only
  split
  · exact cleanupSql_fed ..
  split
  · exact undoSql_fed ..
  split
  · exact undoSql_fed ..
  split
  · exact undoSql_fed ..
  · exact updateConfig_fed ..

variable {opts calls left} {reads : Reads} {site : SqlSite}

/-- A dump goes into the database only where the preparation chose it. -/
theorem prepared_of_fed {path : Bytes} (h : (importSql reads opts calls left site).2.fed = some path) :
    ∃ prepared, prepareSql reads opts calls = .ok prepared ∧ prepared.dumpPath = path := by
  unfold importSql at h
  dsimp only at h
  split at h
  · split at h
    · rw [cleanupSql_fed] at h
      cases h
    · cases h
  · next prepared hPrepared =>
    rw [replaceDatabase_fed] at h
    split at h
    · cases h
    · exact ⟨prepared, hPrepared, Option.some.inj h⟩

theorem fed_of_prepared {prepared : SqlPrepared} (h : prepareSql reads opts calls = .ok prepared) (hTables : prepared.tables = []) :
    (importSql reads opts calls left site).2.fed = some prepared.dumpPath := by
  unfold importSql
  dsimp only
  rw [h]
  dsimp only
  rw [replaceDatabase_fed, SqlCalls.dropFails, hTables]
  rfl

end Import

section Preparation

variable {reads : Reads} {opts : Options} {calls : SqlCalls}

theorem dumpPath_of_staging {dump : Bytes × Bytes} {name : Bytes} {credentials : DatabaseCredentials} {siteId : UInt64}
    {prepared : SqlPrepared} (h : prepareStaging calls dump name credentials siteId = .ok prepared) :
    (extractionPaths dump name).find? calls.extracts = some prepared.dumpPath := by
  unfold prepareStaging at h
  dsimp only at h
  split at h
  · cases h
  next dumpPath hPath =>
  rw [hPath]
  iterate 5
    split at h
    · cases h
  obtain ⟨rfl⟩ := Except.ok.inj h
  rfl

/-- Behind a preparation there is a dump of a name that the configuration's database stands
for. -/
theorem dump_of_prepareSql {prepared : SqlPrepared} (h : prepareSql reads opts calls = .ok prepared) :
    (inspect reads opts).canImportSql = true ∧ (inspect reads opts).wpDbName ≠ [] ∧
      ∃ dump, findDbInArchive (entriesOf reads) (inspect reads opts).wpDbName = some dump ∧
        (extractionPaths dump (inspect reads opts).wpDbName).find? calls.extracts = some prepared.dumpPath := by
  unfold prepareSql at h
  dsimp only at h
  split at h
  · cases h
  split at h
  · cases h
  next hStage =>
  split at h
  · cases h
  split at h
  · cases h
  next entries hList =>
  have hEntries : entriesOf reads = entries := by rw [entriesOf, hList]
  split at h
  · cases h
  next hName =>
  split at h
  · cases h
  next dump hDump =>
  split at h
  · cases h
  split at h
  · cases h
  rw [hEntries]
  exact ⟨by simpa using hStage, hName, dump, hDump, dumpPath_of_staging h⟩

/-- Commands that all go well, where `tar` finds one path. -/
def extractingCalls (path : Bytes) : SqlCalls where
  env := some (bytes "DB_NAME=d\nDB_USER=u\nDB_PASSWORD=p\n")
  extracts := (· = path)
  tableList := {}
  tableVerify := {}
  connection := {}
  health := fun _ => ({}, {})
  http := {}

theorem readCredentials_extracting (path : Bytes) :
    readCredentials (extractingCalls path).env = .ok ⟨bytes "d", bytes "u", bytes "p"⟩ := by
  have hRead : readCredentials (some (bytes "DB_NAME=d\nDB_USER=u\nDB_PASSWORD=p\n")) = .ok ⟨bytes "d", bytes "u", bytes "p"⟩ := by
    decide +kernel
  exact hRead

theorem prepareStaging_extracting {dump : Bytes × Bytes} {name path : Bytes} (credentials : DatabaseCredentials) (siteId : UInt64)
    (h : path ∈ extractionPaths dump name) :
    prepareStaging (extractingCalls path) dump name credentials siteId = .ok ⟨path, credentials, [], siteId⟩ := by
  have hFirst : (extractionPaths dump name).find? (extractingCalls path).extracts = some path := by
    have hSome : ((extractionPaths dump name).find? (extractingCalls path).extracts).isSome = true :=
      List.find?_isSome.mpr ⟨path, h, decide_eq_true rfl⟩
    obtain ⟨found, hFound⟩ := Option.isSome_iff_exists.mp hSome
    have hEq : (extractingCalls path).extracts found = true := List.find?_some hFound
    rw [hFound, of_decide_eq_true hEq]
  unfold prepareStaging
  rw [hFirst]
  rfl

/-- Each of the paths can be the one that `tar` finds. -/
theorem prepareSql_extracting {dump : Bytes × Bytes} {path : Bytes} (hErrors : (inspect reads opts).errors = [])
    (hList : tarSafeList reads.listing = .ok (entriesOf reads)) (hStage : (inspect reads opts).canImportSql = true)
    (hName : (inspect reads opts).wpDbName ≠ []) (hDump : findDbInArchive (entriesOf reads) (inspect reads opts).wpDbName = some dump)
    (hPath : path ∈ extractionPaths dump (inspect reads opts).wpDbName) :
    prepareSql reads opts (extractingCalls path) =
      .ok ⟨path, ⟨bytes "d", bytes "u", bytes "p"⟩, [], (inspect reads opts).migrationSiteId⟩ := by
  have hRuntime : (extractingCalls path).runtimeError = none := rfl
  have hStaging : (extractingCalls path).staging = true := rfl
  unfold prepareSql
  dsimp only
  rw [hErrors, if_neg (not_not.mpr rfl), hStage, hRuntime, hList]
  dsimp only
  rw [if_neg (by decide), if_neg hName, hDump, readCredentials_extracting, hStaging]
  exact prepareStaging_extracting _ _ hPath

end Preparation

/-! ## The paths of a dump -/

section Paths

variable {name : Bytes}

theorem plainPath_plain (rest : Bytes) : plainPath (bytes "db/" ++ rest) = bytes "db/" ++ rest :=
  if_neg fun h => absurd (List.cons.inj h).1 (by decide)

theorem plainPath_dotted (rest : Bytes) : plainPath (bytes "./" ++ (bytes "db/" ++ rest)) = bytes "db/" ++ rest := if_pos rfl

theorem onlyOf_of_parse {path type : Bytes} (h : parseEntry path name = some type) : OnlyOf name path :=
  fun _ _ hOther => parseEntry_unique hOther h

/-- A dump with another path in front of it is none, or the same one. -/
theorem onlyOf_of_directory {path : Bytes} (h : (cutAt slash ((plainPath path).drop 3)).map Prod.fst = some name) :
    OnlyOf name path := fun _ _ hOther => Option.some.inj ((directory_of_parse hOther).symm.trans h)

theorem db_of_parse {path type : Bytes} (h : parseEntry path name = some type) : (plainPath path).take 3 = bytes "db/" := by
  unfold parseEntry at h
  dsimp only at h
  split at h
  · cases h
  · next hDb => exact not_not.mp hDb

theorem ne_nil_of_parse {path type : Bytes} (h : parseEntry path name = some type) : path ≠ [] := by
  rintro rfl
  cases h

theorem slash_notMem_of_parse {path type : Bytes} (h : parseEntry path name = some type) : slash ∉ name := by
  obtain ⟨cut, hCut, hName⟩ := Option.map_eq_some_iff.mp (directory_of_parse h)
  rw [← hName]
  exact (cutAt_eq_some.mp hCut).2

theorem onlyOf_dotted {path type : Bytes} (h : parseEntry path name = some type) : OnlyOf name (bytes "./" ++ path) := by
  intro other type' hOther
  have hDb := db_of_parse hOther
  unfold plainPath at hDb
  split at hDb
  · next hFront =>
    have hDirect : path.take 3 = bytes "db/" := (List.cons.inj (List.cons.inj hFront).2).2
    have hPlain : plainPath (bytes "./" ++ path) = plainPath path := by
      have hNotDotted : path.take 5 ≠ bytes "./db/" := by
        intro hDotted
        have hTake : path.take 3 = bytes "./d" := by
          have hLe : (path.take 5).take 3 = path.take 3 := List.take_take
          rw [← hLe, hDotted]
          rfl
        rw [hDirect] at hTake
        exact absurd hTake (by decide)
      unfold plainPath
      rw [if_pos hFront, if_neg hNotDotted]
      calc bytes "db/" ++ (bytes "./" ++ path).drop 5 = path.take 3 ++ path.drop 3 := by rw [hDirect]; rfl
        _ = path := List.take_append_drop 3 path
    have hSame := directory_of_parse hOther
    rw [hPlain, directory_of_parse h] at hSame
    exact (Option.some.inj hSame).symm
  · exact absurd (List.cons.inj hDb).1 (by decide)

/-- All paths that are tried for a dump of the database are of this one. -/
theorem onlyOf_extractionPath {dump : Bytes × Bytes} {type path : Bytes} (h : parseEntry dump.1 name = some type)
    (hPath : path ∈ extractionPaths dump name) : OnlyOf name path := by
  have hDirectory : ∀ rest, (cutAt slash (name ++ slash :: rest)).map Prod.fst = some name := by
    intro rest
    rw [cutAt_eq_some.mpr ⟨rfl, slash_notMem_of_parse h⟩]
    rfl
  have hNamed : bytes "db/" ++ name ++ bytes "/" ++ name ++ bytes "." ++ dump.2 ++ bytes ".sql.gz" =
      bytes "db/" ++ (name ++ slash :: (name ++ bytes "." ++ dump.2 ++ bytes ".sql.gz")) := by
    simp only [List.append_assoc]
    rfl
  simp only [extractionPaths, hNamed, List.mem_cons, List.not_mem_nil, or_false] at hPath
  rcases hPath with rfl | rfl | rfl | rfl
  · exact onlyOf_of_parse h
  · exact onlyOf_dotted h
  · refine onlyOf_of_directory ?_
    rw [plainPath_plain]
    exact hDirectory _
  · refine onlyOf_of_directory ?_
    rw [plainPath_dotted]
    exact hDirectory _

end Paths

/-! ## Both -/

section Agreement

variable {reads : Reads} {opts : Options}

/-- Without a search nothing is reported. -/
theorem searched_of_reported (h : (inspect reads opts).dbDumpPath ≠ []) :
    shouldSearchDb opts (inspect reads opts) = true ∧ dbToFind opts (inspect reads opts) ≠ [] := by
  obtain ⟨-, -, hNone⟩ | ⟨-, -, hPath, -⟩ := inspect_cases reads opts
  · exact absurd hNone h
  · rw [hPath, reportedDump, inspectedDump] at h
    constructor
    · by_contra hNot
      rw [if_neg hNot] at h
      exact h rfl
    · intro hName
      rw [if_pos hName, ite_self] at h
      exact h rfl

/-- What is reported, by the first search. -/
theorem reported_of_found {found : Bytes} (hSearch : shouldSearchDb opts (inspect reads opts) = true)
    (hStart : dbToFind opts (inspect reads opts) ≠ []) (hName : (inspect reads opts).wpDbName ≠ [])
    (hFound : firstArchived (entriesOf reads) (candidates (dbToFind opts (inspect reads opts))) = some found) :
    ∃ dump, firstDump (entriesOf reads) found = some dump ∧ (inspect reads opts).dbDumpPath = dump.1 := by
  obtain ⟨-, hNone, -⟩ | ⟨-, -, hPath, -⟩ := inspect_cases reads opts
  · exact absurd hNone hName
  · obtain ⟨dump, hDump⟩ := exists_firstDump (archived_of_firstArchived hFound)
    refine ⟨dump, hDump, ?_⟩
    rw [hPath, reportedDump, if_pos hSearch, inspectedDump, if_neg hStart, findDbInArchive_eq_some.mpr ⟨found, hFound, hDump⟩]
    rfl

/-- What is reported where the first search finds nothing. -/
theorem reported_of_missing {dump : Bytes × Bytes} (hSearch : shouldSearchDb opts (inspect reads opts) = true)
    (hStart : dbToFind opts (inspect reads opts) ≠ []) (hName : (inspect reads opts).wpDbName ≠ [])
    (hFound : firstArchived (entriesOf reads) (candidates (dbToFind opts (inspect reads opts))) = none)
    (hDump : findDbInArchive (entriesOf reads) (inspect reads opts).wpDbName = some dump) :
    (inspect reads opts).dbDumpPath = dump.1 := by
  obtain ⟨-, hNone, -⟩ | ⟨-, -, hPath, hParsed⟩ := inspect_cases reads opts
  · exact absurd hNone hName
  · have hFallback : ((inspect reads opts).wpConfigParsed && decide ((inspect reads opts).wpDbName ≠ [])) = true := by
      rw [hParsed hName, Bool.true_and]
      exact decide_eq_true hName
    rw [hPath, reportedDump, if_pos hSearch, inspectedDump, if_neg hStart, findDbInArchive_eq_none.mpr hFound, if_pos hFallback,
      hDump]
    rfl

/-- An import of a path that `tar` finds. -/
theorem fed_extracting {dump : Bytes × Bytes} {path : Bytes} (hStage : (inspect reads opts).canImportSql = true)
    (hName : (inspect reads opts).wpDbName ≠ []) (hDump : findDbInArchive (entriesOf reads) (inspect reads opts).wpDbName = some dump)
    (hPath : path ∈ extractionPaths dump (inspect reads opts).wpDbName) (site : SqlSite) :
    (importSql reads opts (extractingCalls path) noTablesLeft site).2.fed = some path := by
  obtain ⟨-, hNone, -⟩ | ⟨hList, hErrors, -⟩ := inspect_cases reads opts
  · exact absurd hNone hName
  · exact fed_of_prepared (prepareSql_extracting hErrors hList hStage hName hDump hPath) rfl

/-- What an import takes. -/
theorem taken_of_fed {calls : SqlCalls} {left : SqlLeftovers} {site : SqlSite} {path : Bytes}
    (h : (importSql reads opts calls left site).2.fed = some path) :
    (inspect reads opts).canImportSql = true ∧ (inspect reads opts).wpDbName ≠ [] ∧
      ∃ own dump, firstArchived (entriesOf reads) (candidates (inspect reads opts).wpDbName) = some own ∧
        firstDump (entriesOf reads) own = some dump ∧ path ∈ extractionPaths dump (inspect reads opts).wpDbName ∧
        calls.extracts path = true := by
  obtain ⟨prepared, hPrepared, rfl⟩ := prepared_of_fed h
  obtain ⟨hStage, hName, dump, hFind, hPath⟩ := dump_of_prepareSql hPrepared
  obtain ⟨own, hOwn, hDump⟩ := findDbInArchive_eq_some.mp hFind
  exact ⟨hStage, hName, own, dump, hOwn, hDump, List.mem_of_find?_eq_some hPath, List.find?_some hPath⟩

theorem searchesMeet_of_dryRunAgrees (h : DryRunAgrees reads opts) : SearchesMeet reads opts := by
  have hSame : ∀ {own : Bytes} {dump : Bytes × Bytes} {path : Bytes}, (inspect reads opts).canImportSql = true →
      (inspect reads opts).wpDbName ≠ [] →
      firstArchived (entriesOf reads) (candidates (inspect reads opts).wpDbName) = some own →
      firstDump (entriesOf reads) own = some dump → path ∈ extractionPaths dump (inspect reads opts).wpDbName →
      path ∈ entriesOf reads → (inspect reads opts).dbDumpPath ≠ [] → path = (inspect reads opts).dbDumpPath := by
    intro own dump path hStage hName hOwn hDump hPath hListed
    refine h.same (extractingCalls path) noTablesLeft ⟨∅, none, none⟩ path (fun other hOther => ?_)
      (fed_extracting hStage hName (findDbInArchive_eq_some.mpr ⟨own, hOwn, hDump⟩) hPath _)
    rw [of_decide_eq_true hOther]
    exact hListed
  intro hSearch hStart hName
  constructor
  · intro found hFound
    obtain ⟨dump, hDump, hReported⟩ := reported_of_found hSearch hStart hName hFound
    obtain ⟨-, hParse⟩ := parse_of_firstDump hDump
    have hSome : (inspect reads opts).dbDumpPath ≠ [] := hReported ▸ ne_nil_of_parse hParse
    constructor
    · intro hArchived
      have hOnly := h.inspected hName hArchived hSome
      rw [hReported] at hOnly
      exact hOnly _ _ hParse
    · intro hStage own hOwn
      obtain ⟨ownDump, hOwnDump⟩ := exists_firstDump (archived_of_firstArchived hOwn)
      have hPath := hSame hStage hName hOwn hOwnDump List.mem_cons_self (parse_of_firstDump hOwnDump).1 hSome
      exact (found_eq_iff hDump hOwnDump).mp (hReported.symm.trans hPath.symm)
  · intro hStage own dump hOwn hDump path hPath hListed
    obtain ⟨hOwnListed, hParse⟩ := parse_of_firstDump hDump
    have hSome : (inspect reads opts).dbDumpPath ≠ [] := by
      cases hFound : firstArchived (entriesOf reads) (candidates (dbToFind opts (inspect reads opts))) with
      | some found =>
          obtain ⟨first, hFirst, hReported⟩ := reported_of_found hSearch hStart hName hFound
          exact hReported ▸ ne_nil_of_parse (parse_of_firstDump hFirst).2
      | none =>
          rw [reported_of_missing hSearch hStart hName hFound (findDbInArchive_eq_some.mpr ⟨own, hOwn, hDump⟩)]
          exact ne_nil_of_parse hParse
    exact (hSame hStage hName hOwn hDump hPath hListed hSome).trans
      (hSame hStage hName hOwn hDump List.mem_cons_self hOwnListed hSome).symm

theorem dryRunAgrees_of_searchesMeet (h : SearchesMeet reads opts) : DryRunAgrees reads opts where
  same := by
    intro calls left site path hListed hFed hReported
    obtain ⟨hSearch, hStart⟩ := searched_of_reported hReported
    obtain ⟨hStage, hName, own, dump, hOwn, hDump, hPath, hExtracts⟩ := taken_of_fed hFed
    obtain ⟨hFirst, hSecond⟩ := h hSearch hStart hName
    rw [hSecond hStage own dump hOwn hDump path hPath (hListed path hExtracts)]
    cases hFound : firstArchived (entriesOf reads) (candidates (dbToFind opts (inspect reads opts))) with
    | some found =>
        obtain ⟨first, hFirstDump, hPathReported⟩ := reported_of_found hSearch hStart hName hFound
        rw [hPathReported]
        exact ((found_eq_iff hFirstDump hDump).mpr ((hFirst found hFound).2 hStage own hOwn)).symm
    | none => exact (reported_of_missing hSearch hStart hName hFound (findDbInArchive_eq_some.mpr ⟨own, hOwn, hDump⟩)).symm
  inspected := by
    intro hName hArchived hReported
    obtain ⟨hSearch, hStart⟩ := searched_of_reported hReported
    obtain ⟨hFirst, -⟩ := h hSearch hStart hName
    cases hFound : firstArchived (entriesOf reads) (candidates (dbToFind opts (inspect reads opts))) with
    | some found =>
        obtain ⟨first, hFirstDump, hPathReported⟩ := reported_of_found hSearch hStart hName hFound
        have hParse := (parse_of_firstDump hFirstDump).2
        rw [(hFirst found hFound).1 hArchived] at hParse
        rw [hPathReported]
        exact onlyOf_of_parse hParse
    | none =>
        obtain ⟨dump, hDump⟩ := exists_firstDump hArchived
        rw [reported_of_missing hSearch hStart hName hFound
          (findDbInArchive_eq_some.mpr ⟨_, firstArchived_self hArchived, hDump⟩)]
        exact onlyOf_of_parse (parse_of_firstDump hDump).2
  imported := by
    intro hArchived calls left site path hFed
    obtain ⟨-, -, own, dump, hOwn, hDump, hPath, -⟩ := taken_of_fed hFed
    obtain rfl := Option.some.inj (hOwn.symm.trans (firstArchived_self hArchived))
    exact onlyOf_extractionPath (parse_of_firstDump hDump).2 hPath

/-- `inspect` and the import agree on the dump exactly where their searches meet. -/
theorem dryRunAgrees_iff (reads : Reads) (opts : Options) : DryRunAgrees reads opts ↔ SearchesMeet reads opts :=
  ⟨searchesMeet_of_dryRunAgrees, dryRunAgrees_of_searchesMeet⟩

end Agreement

/-- With dumps of `u_wp` and of `wp`, the one that is reported for `u_wp` is the one of `wp`. -/
theorem inspect_other_dump : ¬DryRunAgrees waitingReads waitingOptions := by
  intro h
  have hInspect : (inspect waitingReads waitingOptions).wpDbName = bytes "u_wp" ∧
      (inspect waitingReads waitingOptions).dbDumpPath = bytes "./db/wp/wp.mysql.sql.gz" := by
    unfold waitingReads waitingOptions
    repeat rw [bytes_ofList]
    decide +kernel
  obtain ⟨hName, hPath⟩ := hInspect
  have hOnly := h.inspected
  rw [hName, hPath] at hOnly
  have hParse : parseEntry (bytes "./db/wp/wp.mysql.sql.gz") (bytes "wp") = some (bytes "mysql") := by decide +kernel
  exact absurd (hOnly (by decide) (by decide +kernel) (by decide) _ _ hParse) (by decide)

end ContainerCP.Migration
