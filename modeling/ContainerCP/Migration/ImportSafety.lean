import ContainerCP.Migration.FilesSafety
import ContainerCP.Migration.SqlImport

/-! What an import of the database leaves, set against what it says; and both imports
together. -/
namespace ContainerCP.Migration

/-- Where the import fails, the database is as it was or there is a complete dump of it, and
`wp-config.php` is as it was or there is a copy of it; where it succeeds, the next stage is in
the marker. Whether the dump counts that a rollback leaves in the database container is left
open. -/
structure SqlTruth (containerCounts : Bool) (reads : Reads) (site : SqlSite) (run : ImportSqlResult × SqlDisk) : Prop where
  database : run.1.success = false → run.2.database = site.database ∨ run.2.safetyDump = some site.database ∨
    (containerCounts = true ∧ run.2.containerDump = some site.database)
  config : run.1.success = false → run.2.config = site.config ∨ run.2.configBackup = site.config
  advanced : run.1.success = true → AdvancedByOne reads.marker run.2.marker

namespace SqlCalls

variable (calls : SqlCalls) (site : SqlSite)

/-- The dump is in the database, and that answers. -/
def imported : Bool := calls.importDump && calls.tablesFound && calls.connects

/-- The import comes to the copy of `wp-config.php`. -/
def copiesConfig : Bool := calls.imported && site.config.isSome && calls.configInside

/-- All goes well behind the drop of the tables. -/
def accepted : Bool :=
  calls.imported && (site.config.isNone || (calls.configInside && calls.configUpdate)) && calls.healthy && calls.httpAccepted &&
    calls.markerWritten

/-- The drop of the tables fails. -/
def dropFails (prepared : SqlPrepared) : Bool := prepared.tables ≠ [] && !calls.dropTables

end SqlCalls

/-- The condition on a rollback: the safety dump is kept, or it gets into the container and,
where it does not count there, all the tables are dropped and restored. -/
def SqlRestorable (containerCounts : Bool) (opts : Options) (calls : SqlCalls) (site : SqlSite) : Prop :=
  opts.keepStaging = true ∨
    (calls.rollbackCopy = true ∧
      (containerCounts = true ∨
        (calls.rollbackList = true ∧ calls.rollbackDrop = true ∧ (calls.rollbackRestore = true ∨ site.database = ∅))))

/-- The condition: a drop that fails takes nothing, or the safety dump is kept; and where all
does not go well behind it, the rollback can be made up for, and `wp-config.php` was copied
before it was changed. -/
def SqlRecoverable (containerCounts : Bool) (reads : Reads) (opts : Options) (calls : SqlCalls) (site : SqlSite) : Prop :=
  ∀ prepared, prepareSql reads opts calls = .ok prepared →
    if calls.dropFails prepared then
      opts.keepStaging = true ∨ ∀ name ∈ prepared.tables, site.database.get name = none
    else
      calls.accepted site = false →
        SqlRestorable containerCounts opts calls site ∧ (calls.copiesConfig site = true → calls.configBackup = true)

variable {containerCounts : Bool} {reads : Reads} {opts : Options} {calls : SqlCalls} {left : SqlLeftovers} {site : SqlSite}

/-! ## The rollback -/

/-- What a rollback leaves of the database. -/
def rolledBack (calls : SqlCalls) (left : SqlLeftovers) (safety tables : Tables) : Tables :=
  if calls.rollbackCopy then
    (if calls.rollbackRestore then safety else safety.keep fun name _ => left.restored name).above (clearTables calls left tables)
  else tables

theorem copyConfigBack_frame (works : Bool) (junk : Bytes) (disk : SqlDisk) :
    (copyConfigBack works junk disk).database = disk.database ∧ (copyConfigBack works junk disk).configBackup = disk.configBackup ∧
      (copyConfigBack works junk disk).safetyDump = disk.safetyDump ∧
      (copyConfigBack works junk disk).containerDump = disk.containerDump := by
  unfold copyConfigBack
  split <;> exact ⟨rfl, rfl, rfl, rfl⟩

theorem cleanupSql_frame (opts : Options) (calls : SqlCalls) (left : SqlLeftovers) (disk : SqlDisk) :
    (cleanupSql opts calls left disk).database = disk.database ∧ (cleanupSql opts calls left disk).config = disk.config ∧
      (cleanupSql opts calls left disk).configBackup = disk.configBackup ∧
      (cleanupSql opts calls left disk).containerDump = disk.containerDump ∧
      (cleanupSql opts calls left disk).marker = disk.marker := by
  unfold cleanupSql
  split <;> exact ⟨rfl, rfl, rfl, rfl, rfl⟩

/-- The safety dump behind the removal of the staging directory. -/
def dumpLeft (opts : Options) (calls : SqlCalls) (left : SqlLeftovers) (safety : Tables) : Option Tables :=
  if opts.keepStaging then some safety else if calls.cleanup || !left.stagingSpared then none else some safety

theorem cleanupSql_safetyDump {disk : SqlDisk} {safety : Tables} (h : disk.safetyDump = some safety) :
    (cleanupSql opts calls left disk).safetyDump = dumpLeft opts calls left safety := by
  unfold cleanupSql dumpLeft
  split
  · exact h
  · rw [h]

theorem doRollback_spec (calls : SqlCalls) (left : SqlLeftovers) (copied : Bool) {disk : SqlDisk} {safety : Tables} (h : disk.safetyDump = some safety) :
    (doRollback calls left copied disk).database = rolledBack calls left safety disk.database ∧
      (doRollback calls left copied disk).configBackup = disk.configBackup ∧
      (doRollback calls left copied disk).safetyDump = some safety ∧
      (doRollback calls left copied disk).containerDump = (if calls.rollbackCopy then some safety else disk.containerDump) := by
  unfold doRollback rolledBack
  rw [h]
  dsimp only
  cases calls.rollbackCopy with
  | false => exact ⟨rfl, rfl, h, rfl⟩
  | true =>
      cases calls.rollbackRestore with
      | false => exact ⟨rfl, rfl, rfl, rfl⟩
      | true =>
          cases copied with
          | false => exact ⟨rfl, rfl, rfl, rfl⟩
          | true =>
              exact ⟨(copyConfigBack_frame _ _ _).1, (copyConfigBack_frame _ _ _).2.1, (copyConfigBack_frame _ _ _).2.2.1,
                (copyConfigBack_frame _ _ _).2.2.2⟩

theorem doRollback_config (disk : SqlDisk) : (doRollback calls left false disk).config = disk.config := by
  unfold doRollback
  split
  · rfl
  split
  · rfl
  dsimp only
  split <;> rfl

/-- Without a copy there is nothing to copy back. -/
theorem doRollback_config_of_none (copied : Bool) {disk : SqlDisk} (h : disk.configBackup = none) :
    (doRollback calls left copied disk).config = disk.config := by
  unfold doRollback copyConfigBack
  split
  · rfl
  split
  · rfl
  dsimp only
  split
  · rfl
  split
  · rw [h]
  · rfl

/-! ## The ways out -/

/-- A run that was undone behind the import of the dump. -/
structure SqlUndone (opts : Options) (calls : SqlCalls) (left : SqlLeftovers) (site : SqlSite) (run : ImportSqlResult × SqlDisk) :
    Prop where
  failed : run.1.success = false
  database : run.2.database = rolledBack calls left site.database left.imported
  safetyDump : run.2.safetyDump = dumpLeft opts calls left site.database
  containerDump : run.2.containerDump = if calls.rollbackCopy then some site.database else none
  config : calls.copiesConfig site = false → run.2.config = site.config
  configBackup : calls.copiesConfig site = true →
    run.2.configBackup = (if calls.configBackup then site.config else left.backup) ∧
      (calls.configBackup = false → left.backup = none → run.2.config = some left.config)

/-- A way out in front of the copy of `wp-config.php`. -/
theorem undoSql_uncopied {disk : SqlDisk} (result : ImportSqlResult) (error : Bytes) (hCopies : calls.copiesConfig site = false)
    (hFailed : result.success = false) (hDatabase : disk.database = left.imported) (hSafety : disk.safetyDump = some site.database)
    (hContainer : disk.containerDump = none) (hConfig : disk.config = site.config) :
    SqlUndone opts calls left site (undoSql opts calls left result false false error disk) := by
  obtain ⟨hTables, -, hSafety', hContainer'⟩ := doRollback_spec calls left false hSafety
  obtain ⟨hTables'', hConfig'', -, hContainer'', -⟩ :=
    cleanupSql_frame opts calls left (doRollback calls left false disk)
  refine ⟨hFailed, ?_, cleanupSql_safetyDump hSafety', ?_, fun _ => ?_, fun h => ?_⟩
  · exact hTables''.trans (hTables.trans (by rw [hDatabase]))
  · exact hContainer''.trans (hContainer'.trans (by rw [hContainer]))
  · exact hConfig''.trans ((doRollback_config disk).trans hConfig)
  · rw [hCopies] at h
    cases h

/-- A way out behind the copy. -/
theorem undoSql_copied {disk : SqlDisk} (result : ImportSqlResult) (error : Bytes) (hCopies : calls.copiesConfig site = true)
    (hFailed : result.success = false) (hDatabase : disk.database = left.imported) (hSafety : disk.safetyDump = some site.database)
    (hContainer : disk.containerDump = none) (hConfig : disk.config = some left.config)
    (hBackup : disk.configBackup = if calls.configBackup then site.config else left.backup) :
    SqlUndone opts calls left site (undoSql opts calls left result true true error disk) := by
  obtain ⟨hTables, hBackup', hSafety', hContainer'⟩ := doRollback_spec calls left true hSafety
  obtain ⟨hAgain, hBackupAgain, hSafetyAgain, hContainerAgain⟩ :=
    copyConfigBack_frame calls.configRestoreAgain left.restoredConfigAgain (doRollback calls left true disk)
  obtain ⟨hTables'', hConfig'', hBackup'', hContainer'', -⟩ :=
    cleanupSql_frame opts calls left
      (copyConfigBack calls.configRestoreAgain left.restoredConfigAgain (doRollback calls left true disk))
  refine ⟨hFailed, ?_, cleanupSql_safetyDump (hSafetyAgain.trans hSafety'), ?_, fun h => ?_, fun _ => ⟨?_, fun hFails hNone => ?_⟩⟩
  · exact hTables''.trans (hAgain.trans (hTables.trans (by rw [hDatabase])))
  · exact hContainer''.trans (hContainerAgain.trans (hContainer'.trans (by rw [hContainer])))
  · rw [hCopies] at h
    cases h
  · exact hBackup''.trans (hBackupAgain.trans (hBackup'.trans hBackup))
  · have hNoBackup : disk.configBackup = none := by rw [hBackup, hFails, hNone]; rfl
    refine hConfig''.trans ?_
    unfold copyConfigBack
    rw [hBackup', hNoBackup]
    exact (doRollback_config_of_none true hNoBackup).trans hConfig

section Run

variable {prepared : SqlPrepared}

theorem finishSql_undone {disk : SqlDisk} {result : ImportSqlResult} {copied : Bool}
    (hFails : (calls.healthy && calls.httpAccepted && calls.markerWritten) = false)
    (hUndone : ∀ error, SqlUndone opts calls left site (undoSql opts calls left result copied copied error disk)) :
    SqlUndone opts calls left site (finishSql opts calls left prepared result copied disk) := by
  unfold finishSql
  split
  · exact hUndone _
  next hHealthy =>
  split
  · exact hUndone _
  next hHttp =>
  split
  · exact hUndone _
  next hMarker =>
  rw [Bool.not_eq_true', Bool.not_eq_false] at hHealthy hHttp hMarker
  rw [hHealthy, hHttp, hMarker] at hFails
  cases hFails

theorem finishSql_done (disk : SqlDisk) (result : ImportSqlResult) (copied : Bool) (hHealthy : calls.healthy = true)
    (hHttp : calls.httpAccepted = true) (hMarker : calls.markerWritten = true) :
    (finishSql opts calls left prepared result copied disk).1.success = true ∧
      (finishSql opts calls left prepared result copied disk).2.marker = some (sqlMarker opts prepared.siteId).toJson := by
  unfold finishSql
  rw [hHealthy, hHttp, hMarker]
  exact ⟨rfl, (cleanupSql_frame opts calls left _).2.2.2.2⟩

/-- The disk behind the import of the dump. -/
def importedDisk (reads : Reads) (left : SqlLeftovers) (site : SqlSite) (prepared : SqlPrepared) : SqlDisk :=
  { site with
    database := left.imported
    marker := reads.marker
    safetyDump := some site.database
    fed := some prepared.dumpPath }

theorem updateConfig_undone {result : ImportSqlResult} (hResult : result.success = false) (hImported : calls.imported = true)
    (hAccepted : calls.accepted site = false) :
    SqlUndone opts calls left site (updateConfig opts calls left prepared result (importedDisk reads left site prepared)) := by
  rw [SqlCalls.accepted, hImported, Bool.true_and] at hAccepted
  unfold updateConfig
  cases hConfig : site.config with
  | none =>
      have hCopies : calls.copiesConfig site = false := by
        rw [SqlCalls.copiesConfig, hConfig]
        simp
      have hDisk : (importedDisk reads left site prepared).config = none := hConfig
      rw [hDisk]
      rw [hConfig] at hAccepted
      refine finishSql_undone (by simpa [Bool.and_assoc] using hAccepted) fun error => ?_
      exact undoSql_uncopied result error hCopies hResult rfl rfl rfl rfl
  | some content =>
      have hDisk : (importedDisk reads left site prepared).config = some content := hConfig
      rw [hDisk]
      dsimp only
      cases hInside : calls.configInside with
      | false =>
          have hCopies : calls.copiesConfig site = false := by
            rw [SqlCalls.copiesConfig, hInside, Bool.and_false]
          exact undoSql_uncopied result _ hCopies hResult rfl rfl rfl rfl
      | true =>
          have hCopies : calls.copiesConfig site = true := by
            rw [SqlCalls.copiesConfig, hImported, hInside, hConfig]
            rfl
          rw [hConfig, hInside] at hAccepted
          have hUndone : ∀ (result : ImportSqlResult) (error : Bytes), result.success = false →
              SqlUndone opts calls left site (undoSql opts calls left result true true error
                { importedDisk reads left site prepared with
                  configBackup := if calls.configBackup then some content else left.backup, config := some left.config }) := by
            intro result error hFailed
            refine undoSql_copied result error hCopies hFailed rfl rfl rfl rfl ?_
            rw [hConfig]
          cases hUpdate : calls.configUpdate with
          | false => exact hUndone result _ hResult
          | true =>
              rw [hUpdate] at hAccepted
              exact finishSql_undone (by simpa [Bool.and_assoc] using hAccepted) fun error => hUndone _ error hResult

variable (hPrepared : prepareSql reads opts calls = .ok prepared)

include hPrepared

theorem importSql_undone (left : SqlLeftovers) (hDrop : calls.dropFails prepared = false) (hAccepted : calls.accepted site = false) :
    SqlUndone opts calls left site (importSql reads opts calls left site) := by
  have hUncopied : calls.imported = false → ∀ (result : ImportSqlResult) (error : Bytes), result.success = false →
      SqlUndone opts calls left site (undoSql opts calls left result false false error (importedDisk reads left site prepared)) := by
    intro hNot result error hFailed
    have hCopies : calls.copiesConfig site = false := by
      rw [SqlCalls.copiesConfig, hNot]
      rfl
    exact undoSql_uncopied result error hCopies hFailed rfl rfl rfl rfl
  unfold importSql
  rw [hPrepared]
  dsimp only
  unfold replaceDatabase
  dsimp only
  rw [if_neg (by rw [← SqlCalls.dropFails, hDrop]; exact Bool.false_ne_true)]
  split
  · next hImport => exact hUncopied (by simp [SqlCalls.imported, (by simpa using hImport : calls.importDump = false)]) _ _ rfl
  next hImport =>
  split
  · next hTables => exact hUncopied (by simp [SqlCalls.imported, (by simpa using hTables : calls.tablesFound = false)]) _ _ rfl
  next hTables =>
  split
  · next hConnects => exact hUncopied (by simp [SqlCalls.imported, (by simpa using hConnects : calls.connects = false)]) _ _ rfl
  next hConnects =>
  rw [Bool.not_eq_true', Bool.not_eq_false] at hImport hTables hConnects
  refine updateConfig_undone rfl ?_ hAccepted
  rw [SqlCalls.imported, hImport, hTables, hConnects]
  rfl

theorem importSql_done (left : SqlLeftovers) (site : SqlSite) (hDrop : calls.dropFails prepared = false) (hAccepted : calls.accepted site = true) :
    (importSql reads opts calls left site).1.success = true ∧
      (importSql reads opts calls left site).2.marker = some (sqlMarker opts prepared.siteId).toJson := by
  simp only [SqlCalls.accepted, SqlCalls.imported, Bool.and_eq_true, Bool.or_eq_true] at hAccepted
  obtain ⟨⟨⟨⟨⟨⟨hImport, hTables⟩, hConnects⟩, hConfig⟩, hHealthy⟩, hHttp⟩, hMarker⟩ := hAccepted
  unfold importSql
  rw [hPrepared]
  dsimp only
  unfold replaceDatabase
  dsimp only
  rw [if_neg (by rw [← SqlCalls.dropFails, hDrop]; exact Bool.false_ne_true), hImport, hTables, hConnects]
  unfold updateConfig
  simp only [Bool.not_true, Bool.false_eq_true, if_false]
  split
  · exact finishSql_done _ _ _ hHealthy hHttp hMarker
  · next content hContent =>
    have hSome : site.config = some content := hContent
    rw [hSome] at hConfig
    obtain ⟨hInside, hUpdate⟩ := hConfig.resolve_left (by simp)
    rw [hInside, hUpdate]
    exact finishSql_done _ _ _ hHealthy hHttp hMarker

theorem importSql_dropFailed (left : SqlLeftovers) (site : SqlSite) (hDrop : calls.dropFails prepared = true) :
    (importSql reads opts calls left site).1.success = false ∧
      (importSql reads opts calls left site).2.database =
        site.database.keep (fun name _ => !(prepared.tables.contains name && left.dropped name)) ∧
      (importSql reads opts calls left site).2.safetyDump = dumpLeft opts calls left site.database ∧
      (importSql reads opts calls left site).2.containerDump = none ∧
      (importSql reads opts calls left site).2.config = site.config := by
  unfold importSql
  rw [hPrepared]
  dsimp only
  unfold replaceDatabase
  dsimp only
  rw [if_pos (by rw [← SqlCalls.dropFails]; exact hDrop)]
  obtain ⟨hDatabase, hConfig, -, hContainer, -⟩ := cleanupSql_frame opts calls left
    { { site with marker := reads.marker, safetyDump := some site.database : SqlDisk } with
      database := site.database.keep fun name _ => !(prepared.tables.contains name && left.dropped name) }
  exact ⟨rfl, hDatabase, cleanupSql_safetyDump rfl, hContainer, hConfig⟩

end Run

/-! ## The condition -/

theorem atStage_of_prepareSql {prepared : SqlPrepared} (h : prepareSql reads opts calls = .ok prepared) : AtStage reads opts 2 := by
  unfold prepareSql at h
  dsimp only at h
  split at h
  · cases h
  split at h
  · cases h
  next hImport => exact atStage_of_inspect.2 (by simpa using hImport)

theorem failed_of_prepareStaging {failure : SqlFailure} {dump : Bytes × Bytes} {dbName : Bytes}
    {credentials : DatabaseCredentials} {siteId : UInt64}
    (h : prepareStaging calls dump dbName credentials siteId = .error failure) : failure.result.success = false := by
  unfold prepareStaging at h
  dsimp only at h
  repeat' split at h
  all_goals cases h
  all_goals rfl

theorem failed_of_prepareSql {failure : SqlFailure} (h : prepareSql reads opts calls = .error failure) :
    failure.result.success = false := by
  unfold prepareSql at h
  dsimp only at h
  repeat' split at h
  all_goals first
    | exact failed_of_prepareStaging h
    | cases h; rfl

/-- What is left where as much as possible is lost. -/
def noTablesLeft : SqlLeftovers where
  dropped := fun _ => true
  imported := ∅
  backup := none
  config := []
  rollbackDropped := fun _ => false
  restored := fun _ => false
  restoredConfig := []
  restoredConfigAgain := []
  stagingSpared := false

theorem dumpLeft_of_lost (hKeep : opts.keepStaging = false) (hSpared : left.stagingSpared = false) (safety : Tables) :
    dumpLeft opts calls left safety = none := by
  rw [dumpLeft, hKeep, hSpared]
  simp

/-- A rollback that works brings the database back. -/
theorem rolledBack_eq {database : Tables} (hCopy : calls.rollbackCopy = true) (hList : calls.rollbackList = true)
    (hDrop : calls.rollbackDrop = true) (hRestore : calls.rollbackRestore = true ∨ database = ∅) (tables : Tables) :
    rolledBack calls left database tables = database := by
  rw [rolledBack, clearTables, hCopy, hList, hDrop]
  simp only [if_true, Bool.not_true, Bool.false_eq_true, if_false, Store.above_empty]
  rcases hRestore with hRestore | rfl
  · rw [if_pos hRestore]
  · split
    · rfl
    · exact Store.keep_empty _

theorem restorable_of_truth (hTruth : ∀ left, SqlUndone opts calls left site (importSql reads opts calls left site) ∧
    SqlTruth containerCounts reads site (importSql reads opts calls left site)) :
    SqlRestorable containerCounts opts calls site := by
  cases hKeep : opts.keepStaging with
  | true => exact Or.inl hKeep
  | false =>
      have hBack : ∀ left : SqlLeftovers, left.stagingSpared = false →
          rolledBack calls left site.database left.imported = site.database ∨ (containerCounts = true ∧ calls.rollbackCopy = true) := by
        intro left hSpared
        obtain ⟨hUndone, hKept⟩ := hTruth left
        have hDatabase := hKept.database hUndone.failed
        rw [hUndone.database, hUndone.safetyDump, hUndone.containerDump, dumpLeft_of_lost hKeep hSpared] at hDatabase
        rcases hDatabase with hSame | hDump | ⟨hCounts, hCopy⟩
        · exact Or.inl hSame
        · cases hDump
        · refine Or.inr ⟨hCounts, ?_⟩
          by_contra hNot
          rw [if_neg hNot] at hCopy
          cases hCopy
      -- a table that the site does not have stays where nothing drops it
      obtain ⟨name, hName, hNew⟩ := site.database.exists_single_new []
      have hBackNew := hBack { noTablesLeft with imported := Store.single name [] } rfl
      have hCopy : calls.rollbackCopy = true := by
        rcases hBackNew with hSame | ⟨-, hCopy⟩
        · by_contra hNot
          rw [rolledBack, if_neg hNot] at hSame
          exact hNew ∅ rfl ((Store.empty_above _).trans hSame)
        · exact hCopy
      refine Or.inr ⟨hCopy, ?_⟩
      cases hCounts : containerCounts with
      | true => exact Or.inl rfl
      | false =>
          have hUpper : ((if calls.rollbackRestore then site.database
              else site.database.keep fun name _ => noTablesLeft.restored name).get name) = none := by
            split
            · exact hName
            · exact Store.get_keep_eq_none _ hName
          have hSame := hBackNew.resolve_right (by simp [hCounts])
          rw [rolledBack, if_pos hCopy] at hSame
          have hList : calls.rollbackList = true := by
            by_contra hNot
            rw [clearTables, Bool.not_eq_true _ |>.mp hNot] at hSame
            exact hNew _ hUpper hSame
          have hDrop : calls.rollbackDrop = true := by
            by_contra hNot
            rw [clearTables, hList, Bool.not_eq_true _ |>.mp hNot] at hSame
            refine hNew _ hUpper (Eq.trans ?_ hSame)
            exact congrArg _ (Store.keep_true _).symm
          refine Or.inr ⟨hList, hDrop, ?_⟩
          by_contra hNot
          rw [not_or, Bool.not_eq_true] at hNot
          have hNothing := (hBack noTablesLeft rfl).resolve_right (by simp [hCounts])
          rw [rolledBack, if_pos hCopy, clearTables, hList, hDrop, hNot.1] at hNothing
          simp only [Bool.not_true, Bool.false_eq_true, if_false, if_true, Store.above_empty] at hNothing
          exact hNot.2 (hNothing.symm.trans (Store.keep_false _))

/-- The import of the database is truthful, whatever the commands leave, exactly on this
condition. -/
theorem importSql_truth_iff :
    (∀ left, SqlTruth containerCounts reads site (importSql reads opts calls left site)) ↔
      SqlRecoverable containerCounts reads opts calls site := by
  constructor
  · intro hTruth prepared hPrepared
    cases hDrop : calls.dropFails prepared with
    | true =>
        rw [if_pos rfl]
        obtain ⟨hFailed, hDatabase, hDump, hContainer, -⟩ := importSql_dropFailed hPrepared noTablesLeft site hDrop
        have hKept := (hTruth noTablesLeft).database hFailed
        rw [hDatabase, hDump, hContainer] at hKept
        cases hKeep : opts.keepStaging with
        | true => exact Or.inl rfl
        | false =>
            rw [dumpLeft_of_lost hKeep rfl] at hKept
            have hSame := hKept.resolve_right (by simp)
            rw [Store.keep_eq_self_iff] at hSame
            refine Or.inr fun name hName => ?_
            cases hTable : site.database.get name with
            | none => rfl
            | some content =>
                have hLost := hSame name content hTable
                have hListed : prepared.tables.contains name = true := by simpa using hName
                rw [hListed] at hLost
                cases hLost
    | false =>
        rw [if_neg Bool.false_ne_true]
        intro hAccepted
        have hUndone := fun left => importSql_undone hPrepared left hDrop hAccepted
        refine ⟨restorable_of_truth fun left => ⟨hUndone left, hTruth left⟩, fun hCopies => ?_⟩
        by_contra hNot
        obtain ⟨content, hContent⟩ := Option.isSome_iff_exists.mp ((Bool.and_eq_true _ _).mp ((Bool.and_eq_true _ _).mp hCopies).1).2
        have hLeft := hUndone { noTablesLeft with config := 0 :: content }
        have hConfig := (hTruth { noTablesLeft with config := 0 :: content }).config hLeft.failed
        obtain ⟨hBackup, hJunk⟩ := hLeft.configBackup hCopies
        rw [hBackup, hJunk (by simpa using hNot) rfl, hContent, if_neg hNot] at hConfig
        rcases hConfig with hSame | hNone
        · exact absurd (congrArg List.length (Option.some.inj hSame)) (by simp)
        · cases hNone
  · intro hCondition left
    cases hPrepared : prepareSql reads opts calls with
    | error failure =>
        have hRun : importSql reads opts calls left site = (failure.result,
            if failure.staged then cleanupSql opts calls left { site with marker := reads.marker } else { site with marker := reads.marker }) := by
          rw [importSql, hPrepared]
        have hSite : (importSql reads opts calls left site).2.database = site.database ∧
            (importSql reads opts calls left site).2.config = site.config := by
          rw [hRun]
          split
          · obtain ⟨hDatabase, hConfig, -⟩ := cleanupSql_frame opts calls left { site with marker := reads.marker }
            exact ⟨hDatabase, hConfig⟩
          · exact ⟨rfl, rfl⟩
        refine ⟨fun _ => Or.inl hSite.1, fun _ => Or.inl hSite.2, fun hSuccess => ?_⟩
        rw [hRun, failed_of_prepareSql hPrepared] at hSuccess
        cases hSuccess
    | ok prepared =>
        have hHolds := hCondition prepared hPrepared
        cases hDrop : calls.dropFails prepared with
        | true =>
            rw [hDrop, if_pos rfl] at hHolds
            obtain ⟨hFailed, hDatabase, hDump, hContainer, hConfig⟩ := importSql_dropFailed hPrepared left site hDrop
            refine ⟨fun _ => ?_, fun _ => Or.inl hConfig, fun hSuccess => ?_⟩
            · rcases hHolds with hKeep | hAbsent
              · refine Or.inr (Or.inl ?_)
                rw [hDump, dumpLeft, if_pos hKeep]
              · refine Or.inl (hDatabase.trans ?_)
                rw [Store.keep_eq_self_iff]
                intro name content hTable
                have hNot : name ∉ prepared.tables := by
                  intro hName
                  rw [hAbsent name hName] at hTable
                  cases hTable
                simp [hNot]
            · rw [hFailed] at hSuccess
              cases hSuccess
        | false =>
            rw [hDrop, if_neg Bool.false_ne_true] at hHolds
            cases hAccepted : calls.accepted site with
            | true =>
                obtain ⟨hSuccess, hMarker⟩ := importSql_done hPrepared left site hDrop hAccepted
                refine ⟨fun hFailed => ?_, fun hFailed => ?_, fun _ => ?_⟩
                · rw [hSuccess] at hFailed
                  cases hFailed
                · rw [hSuccess] at hFailed
                  cases hFailed
                · rw [hMarker]
                  exact advancedByOne_of_atStage (atStage_of_prepareSql hPrepared) rfl rfl rfl
            | false =>
                obtain ⟨hRestorable, hBackup⟩ := hHolds hAccepted
                have hUndone := importSql_undone hPrepared left hDrop hAccepted
                refine ⟨fun _ => ?_, fun _ => ?_, fun hSuccess => ?_⟩
                · rw [hUndone.database, hUndone.safetyDump, hUndone.containerDump]
                  rcases hRestorable with hKeep | ⟨hCopy, hCounts | ⟨hList, hDropped, hRestore⟩⟩
                  · exact Or.inr (Or.inl (by rw [dumpLeft, if_pos hKeep]))
                  · exact Or.inr (Or.inr ⟨hCounts, by rw [if_pos hCopy]⟩)
                  · exact Or.inl (rolledBack_eq hCopy hList hDropped hRestore _)
                · cases hCopies : calls.copiesConfig site with
                  | false => exact Or.inl (hUndone.config hCopies)
                  | true => exact Or.inr ((hUndone.configBackup hCopies).1.trans (if_pos (hBackup hCopies)))
                · rw [hUndone.failed] at hSuccess
                  cases hSuccess

/-- Neither import loses what was there, nor says that it succeeded without the next stage in
the marker, exactly on their conditions. -/
theorem imports_truth_iff (containerCounts : Bool) (reads : Reads) (opts : Options) (filesCalls : FilesCalls) (sqlCalls : SqlCalls)
    (publicDir : FileTree) (site : SqlSite) :
    ((∀ left, FilesTruth reads publicDir (importFiles reads opts filesCalls left publicDir)) ↔
        FilesRecoverable reads opts filesCalls publicDir) ∧
      ((∀ left, SqlTruth containerCounts reads site (importSql reads opts sqlCalls left site)) ↔
        SqlRecoverable containerCounts reads opts sqlCalls site) :=
  ⟨importFiles_truth_iff, importSql_truth_iff⟩

/-- A site that waits for its database. -/
def waitingReads : Reads where
  listing := { out := bytes "./web/a.pl/domain_data.tar.gz\n./db/u_wp/u_wp.mysql.sql.gz\n./db/wp/wp.mysql.sql.gz\n" }
  webRootType := bytes "public_html"
  config := some (bytes "<?php define('DB_NAME', 'u_wp');")
  site := some 7
  marker := some (bytes ("\x7b\"version\":1,\"domain\":\"a.pl\",\"owner\":\"o\",\"site_id\":7,\"stage\":2,"
    ++ "\"files_pending\":false,\"files_imported\":true,\"sql_pending\":true\x7d"))

def waitingOptions : Options where
  domain := bytes "a.pl"
  owner := bytes "o"

/-- Its two tables. -/
def waitingSite : SqlSite :=
  ⟨(Store.single (bytes "wp_posts") (bytes "posts")).above (Store.single (bytes "wp_users") (bytes "users")), none, none⟩

/-- The drop of its tables fails behind the first of them. -/
def failingDrop : SqlCalls where
  env := some (bytes "DB_NAME=d\nDB_USER=u\nDB_PASSWORD=p\n")
  extracts := fun path => path = bytes "./db/u_wp/u_wp.mysql.sql.gz"
  tableList := { out := bytes "wp_posts\nwp_users\n" }
  dropTables := false
  tableVerify := {}
  connection := {}
  health := fun _ => ({}, {})
  http := {}

/-- The tables that were dropped are lost: the staging directory goes with the safety dump,
and no rollback runs. -/
theorem importSql_not_truthful :
    ¬SqlTruth true waitingReads waitingSite
      (importSql waitingReads waitingOptions failingDrop { noTablesLeft with dropped := fun name => name = bytes "wp_posts" }
        waitingSite) := by
  intro hTruth
  have hPrepared : prepareSql waitingReads waitingOptions failingDrop =
      .ok ⟨bytes "./db/u_wp/u_wp.mysql.sql.gz", ⟨bytes "d", bytes "u", bytes "p"⟩, [bytes "wp_posts", bytes "wp_users"], 7⟩ := by
    unfold waitingReads waitingOptions failingDrop
    repeat rw [bytes_ofList]
    decide +kernel
  obtain ⟨hFailed, hDatabase, hDump, hContainer, -⟩ := importSql_dropFailed hPrepared
    { noTablesLeft with dropped := fun name => name = bytes "wp_posts" } waitingSite rfl
  have hKept := hTruth.database hFailed
  rw [hDatabase, hDump, hContainer, dumpLeft_of_lost rfl rfl] at hKept
  have hSame := hKept.resolve_right (by simp)
  rw [Store.keep_eq_self_iff] at hSame
  have hPosts : waitingSite.database.get (bytes "wp_posts") = some (bytes "posts") := by
    rw [waitingSite, Store.get_above, Store.get_single, Option.some_or]
  exact absurd (hSame (bytes "wp_posts") (bytes "posts") hPosts) (by decide +kernel)

end ContainerCP.Migration
