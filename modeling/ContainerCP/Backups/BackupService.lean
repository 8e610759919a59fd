import ContainerCP.Backups.SiteTree
import ContainerCP.Data.Registry
import ContainerCP.Text.Calendar

/-! `BackupService`: archives of the files and of the database of a site, and what is laid
back from them. -/
namespace ContainerCP.Backups

/-! ## Records -/

structure Site where
  id : Nat
  domain : Bytes
  deriving DecidableEq

structure Database where
  id : Nat
  siteId : Nat
  enabled : Bool
  engine : Bytes
  dbName : Bytes
  dbPassword : Bytes
  deriving DecidableEq

structure Backup where
  id : Nat
  siteId : Nat
  filename : Bytes
  type : Bytes
  size : Nat
  createdAt : Bytes
  filePath : Bytes
  deriving DecidableEq

abbrev BackupManager := Registry Backup Backup.id

structure BackupManifest where
  schemaVersion : Bytes := bytes "1"
  containercpVersion : Bytes := bytes "0.7.0"
  backupId : Nat := 0
  siteId : Nat := 0
  siteDomain : Bytes := []
  createdAt : Bytes := []
  backupType : Bytes := bytes "manual"
  filesStatus : Bytes := bytes "included"
  databaseStatus : Bytes := bytes "included"
  databaseEngine : Bytes := bytes "mariadb"
  databaseName : Bytes := []
  databaseOwnershipState : Bytes := bytes "managed"
  sqlDumpPath : Bytes := bytes "backup-root/database/managed.sql"
  sqlDumpSize : Nat := 0
  sqlDumpChecksum : Bytes := []
  archiveChecksum : Bytes := []
  restoreCapability : Bytes := bytes "full,files_only,database_only"
  backupCompleteness : Bytes := bytes "complete"
  warnings : List Bytes := []
  compatibility : Bytes := bytes "db5"
  deriving DecidableEq

/-- The tables of a database, by name, each with its definition and its rows. -/
abbrev Tables := Bytes → Option Bytes

/-- What an archive holds: a manifest, if it is one of the service, the files of a site, and
the dump of its database. -/
structure Archive where
  manifest : Option BackupManifest
  tree : Tree
  dump : Tables

/-- The managers, the archives by path, the directories of the sites by domain, and the
databases by id. -/
structure World where
  sites : Registry Site Site.id
  databases : Registry Database Database.id
  backups : BackupManager
  backupDir : Bytes
  archives : Bytes → Option Archive
  dirs : Bytes → Tree
  tables : Nat → Tables

structure BackupServiceResult where
  success : Bool
  code : Bytes
  message : Bytes
  siteId : Nat
  backupId : Nat
  recoveryBackupId : Nat := 0
  failureStep : Bytes := []
  manualRecoveryRequired : Bool := false
  compensationStarted : Bool := false
  compensationResult : Bytes := []
  deriving DecidableEq

/-- `result_failure`. -/
def resultFailure (step code message : Bytes) (siteId backupId : Nat) (recoveryId : Nat := 0) (manual : Bool := false) :
    BackupServiceResult where
  success := false
  code := code
  message := message
  siteId := siteId
  backupId := backupId
  recoveryBackupId := recoveryId
  failureStep := step
  manualRecoveryRequired := manual

/-- `result_success`. -/
def resultSuccess (code message : Bytes) (siteId backupId : Nat) (recoveryId : Nat := 0) : BackupServiceResult where
  success := true
  code := code
  message := message
  siteId := siteId
  backupId := backupId
  recoveryBackupId := recoveryId

/-- `managed_database_for_site`: the one database of a site that is enabled. -/
def managedDatabaseForSite (databases : Registry Database Database.id) (siteId : Nat) : Option Database :=
  match databases.records.filter fun database => database.siteId = siteId && database.enabled with
  | [database] => if database.dbPassword = [] || database.engine ≠ bytes "mariadb" then none else some database
  | _ => none

/-! ## Backups -/

/-- `now_filename`. -/
def nowFilename (seconds : Nat) : Bytes :=
  let now := gmtime seconds
  decimal now.year ++ twoDigits now.month ++ twoDigits now.day ++ bytes "T" ++ twoDigits now.hour ++ twoDigits now.minute ++
    twoDigits now.second ++ bytes "Z"

/-- `now_iso`. -/
def nowIso (seconds : Nat) : Bytes :=
  let now := gmtime seconds
  decimal now.year ++ bytes "-" ++ twoDigits now.month ++ bytes "-" ++ twoDigits now.day ++ bytes "T" ++
    twoDigits now.hour ++ bytes ":" ++ twoDigits now.minute ++ bytes ":" ++ twoDigits now.second ++ bytes "Z"

example : nowFilename 1709209845 = bytes "20240229T123045Z" := by decide

/-- The type of the backups that a restore makes first. -/
def preRestoreRecovery : Bytes := bytes "pre_restore_recovery"

/-- The name of the archive of a backup. -/
def archiveName (domain : Bytes) (seconds : Nat) (backupType : Bytes) : Bytes :=
  domain ++ bytes "-" ++ nowFilename seconds ++ (if backupType = preRestoreRecovery then bytes "-recovery" else []) ++
    bytes ".tar.gz"

/-- `operator/` of paths. -/
def joinPath (directory name : Bytes) : Bytes := directory ++ bytes "/" ++ name

/-- How the steps of one backup go, and what the clock says. The dump is the whole of the
database, or an error with its code and its message; `checksum` is that of the dump. -/
structure CreateCalls where
  nowSeconds : Nat
  createdSeconds : Nat
  stagingReady : Bool
  exported : Except (Bytes × Bytes) Bytes
  dumpSize : Option Nat
  metadataWritten : Bool
  manifestWritten : Bool
  copy : CopyCalls
  archived : Except Bytes Unit
  archiveSize : Option Nat
  archiveHashed : Bool
  renamed : Bool

/-- `create_site_backup_internal`. -/
def createSiteBackupInternal (calls : CreateCalls) (siteId : Nat) (backupType : Bytes) (backupId : Nat) (world : World) :
    BackupServiceResult × World :=
  match world.sites.find fun site => site.id = siteId with
  | none => (resultFailure (bytes "Validating Site") (bytes "site_not_found") (bytes "Site was not found") siteId backupId, world)
  | some site =>
      match managedDatabaseForSite world.databases siteId with
      | none =>
          (resultFailure (bytes "Resolving managed database") (bytes "managed_database_unavailable")
            (bytes "Site does not have exactly one managed MariaDB database") siteId backupId, world)
      | some database =>
          let filename := archiveName site.domain calls.nowSeconds backupType
          let finalPath := joinPath world.backupDir filename
          let tmpArchive := joinPath world.backupDir (filename ++ bytes ".tmp")
          let cleaned := { world with archives := Function.update world.archives tmpArchive none }
          if !calls.stagingReady then
            (resultFailure (bytes "Exporting logical database dump") (bytes "staging_unavailable")
              (bytes "Backup staging is unavailable") siteId backupId, world)
          else
            match calls.exported with
            | .error (code, message) =>
                (resultFailure (bytes "Exporting logical database dump") code message siteId backupId, cleaned)
            | .ok checksum =>
                match calls.dumpSize with
                | none =>
                    (resultFailure (bytes "Validating SQL dump") (bytes "database_dump_invalid")
                      (bytes "Database dump validation failed") siteId backupId, cleaned)
                | some dumpSize =>
                    if checksum = [] then
                      (resultFailure (bytes "Validating SQL dump") (bytes "database_dump_invalid")
                        (bytes "Database dump validation failed") siteId backupId, cleaned)
                    else if !calls.metadataWritten then
                      (resultFailure (bytes "Creating backup manifest") (bytes "metadata_write_failed")
                        (bytes "Database metadata could not be written") siteId backupId, cleaned)
                    else if !calls.manifestWritten then
                      (resultFailure (bytes "Creating backup manifest") (bytes "manifest_write_failed")
                        (bytes "Backup manifest could not be written") siteId backupId, cleaned)
                    else
                      let manifest : BackupManifest :=
                        { backupId := backupId, siteId := site.id, siteDomain := site.domain,
                          createdAt := nowIso calls.createdSeconds, backupType := backupType,
                          databaseEngine := database.engine, databaseName := database.dbName,
                          sqlDumpSize := dumpSize, sqlDumpChecksum := checksum }
                      match copySiteTree calls.copy fun _ => none with
                      | (false, _) =>
                          (resultFailure (bytes "Staging Site files") (bytes "site_file_staging_failed")
                            (bytes "Site files could not be staged safely") siteId backupId, cleaned)
                      | (true, staged) =>
                          match calls.archived with
                          | .error message =>
                              (resultFailure (bytes "Creating archive") (bytes "archive_failed") message siteId backupId, cleaned)
                          | .ok () =>
                              match calls.archiveSize with
                              | none =>
                                  (resultFailure (bytes "Validating archive") (bytes "archive_invalid")
                                    (bytes "Backup archive validation failed") siteId backupId, cleaned)
                              | some archiveSize =>
                                  if !calls.archiveHashed then
                                    (resultFailure (bytes "Validating archive") (bytes "archive_invalid")
                                      (bytes "Backup archive validation failed") siteId backupId, cleaned)
                                  else if !calls.renamed then
                                    (resultFailure (bytes "Persisting backup record") (bytes "archive_finalize_failed")
                                      (bytes "Backup archive could not be finalized") siteId backupId, cleaned)
                                  else
                                    -- The rename takes the place of whatever has that name.
                                    let archive : Archive := ⟨some manifest, staged, world.tables database.id⟩
                                    let archives := Function.update cleaned.archives finalPath (some archive)
                                    let record : Backup :=
                                      ⟨backupId, site.id, filename, backupType, archiveSize, manifest.createdAt, finalPath⟩
                                    match world.backups.insert record with
                                    | none =>
                                        (resultFailure (bytes "Persisting backup record") (bytes "metadata_persist_failed")
                                            (bytes "Backup record could not be persisted") siteId backupId,
                                          { cleaned with archives := Function.update archives finalPath none })
                                    | some backups =>
                                        (resultSuccess (bytes "backup_completed")
                                            (bytes "Database-aware site backup completed") siteId backupId,
                                          { cleaned with archives := archives, backups := backups })

/-- `create_site_backup`. -/
def createSiteBackup (calls : CreateCalls) (siteId : Nat) (backupType : Bytes) (world : World) : BackupServiceResult × World :=
  createSiteBackupInternal calls siteId backupType world.backups.nextId { world with backups := world.backups.reserve }

/-! ## Restores -/

/-- `generic_confirmation`. -/
def genericConfirmation (value : Bytes) : Bool :=
  value = bytes "yes" || value = bytes "true" || value = bytes "restore" || value = bytes "confirm" || value = bytes "delete"

/-- `confirmation_valid`. -/
def confirmationValid (confirmation domain dbName : Bytes) (databaseMode : Bool) : Bool :=
  if confirmation = [] || genericConfirmation confirmation then false
  else confirmation = domain || (databaseMode && confirmation = dbName)

/-- How an import of a dump goes: it may do nothing, stop on the way with the tables of the
dump in any state, be through and yet fail to be verified, or succeed. -/
inductive ImportOutcome where
  | refused (message : Bytes)
  | stopped (left : Tables) (message : Bytes)
  | unverified (message : Bytes)
  | done

/-- The tables behind an import: the dump replaces its own ones. -/
def ImportOutcome.tables (dump before : Tables) : ImportOutcome → Tables
  | .refused _ => before
  | .stopped left _ => fun table => if (dump table).isSome then left table else before table
  | .unverified _ => overlay dump before
  | .done => overlay dump before

/-- The message of an import that fails. -/
def ImportOutcome.failure : ImportOutcome → Option Bytes
  | .refused message => some message
  | .stopped _ message => some message
  | .unverified message => some message
  | .done => none

/-- How the steps of one restore go. `pathRead` is what the record of the backup says when
its path is read the second time. -/
structure RestoreCalls where
  manifestRead : Bool
  stagingReady : Bool
  pathRead : Bytes → Bytes
  extracted : Bool
  payloadValid : Bool
  copy : CopyCalls
  imported : ImportOutcome

/-- What a restore has found out before it starts to write. -/
structure RestorePlan where
  backup : Backup
  site : Site
  database : Option Database
  deriving DecidableEq

def filesMode (mode : Bytes) : Bool := mode = bytes "full" || mode = bytes "files_only"

def databaseMode (mode : Bytes) : Bool := mode = bytes "full" || mode = bytes "database_only"

/-- `read_manifest`: there is none where the archive cannot be read, or is not of the
service. -/
def readManifest (world : World) (calls : RestoreCalls) (backup : Backup) : Option BackupManifest :=
  if calls.manifestRead then (world.archives backup.filePath).bind Archive.manifest else none

/-- `manifest_for_legacy`. -/
def manifestForLegacy (sites : Registry Site Site.id) (backup : Backup) : BackupManifest where
  schemaVersion := bytes "legacy_unknown"
  backupId := backup.id
  siteId := backup.siteId
  siteDomain := ((sites.find fun site => site.id = backup.siteId).map Site.domain).getD []
  createdAt := backup.createdAt
  backupType := backup.type
  filesStatus := bytes "unknown"
  databaseStatus := bytes "legacy_unknown"
  databaseEngine := []
  sqlDumpPath := []
  restoreCapability := bytes "files_only"
  backupCompleteness := bytes "legacy_unknown"
  warnings := [bytes "legacy_backup_database_unknown"]
  compatibility := bytes "legacy"

/-- The checks of a restore. -/
def restorePlan (calls : RestoreCalls) (backupId targetSiteId : Nat) (mode confirmation : Bytes) (world : World) :
    Except BackupServiceResult RestorePlan :=
  match world.backups.find fun backup => backup.id = backupId with
  | none =>
      .error (resultFailure (bytes "Validating backup") (bytes "backup_not_found") (bytes "Backup was not found") targetSiteId
        backupId)
  | some backup =>
      match world.sites.find fun site => site.id = if targetSiteId = 0 then backup.siteId else targetSiteId with
      | none =>
          .error (resultFailure (bytes "Validating target Site") (bytes "site_not_found") (bytes "Target Site was not found")
            targetSiteId backupId)
      | some site =>
          let manifest := (readManifest world calls backup).getD (manifestForLegacy world.sites backup)
          let legacyBackup := manifest.schemaVersion = bytes "legacy_unknown"
          let database := managedDatabaseForSite world.databases site.id
          if legacyBackup ∧ mode ≠ bytes "files_only" then
            .error (resultFailure (bytes "Validating manifest and checksums") (bytes "database_payload_unavailable")
              (bytes "Legacy backup does not contain a validated database payload") site.id backupId)
          else if mode ≠ bytes "full" && mode ≠ bytes "files_only" && mode ≠ bytes "database_only" then
            .error (resultFailure (bytes "Validating manifest and checksums") (bytes "restore_mode_invalid")
              (bytes "Unsupported restore mode") site.id backupId)
          else if databaseMode mode && database.isNone then
            .error (resultFailure (bytes "Validating target Site") (bytes "managed_database_unavailable")
              (bytes "Target Site does not have exactly one managed MariaDB database") site.id backupId)
          else if databaseMode mode &&
              !confirmationValid confirmation site.domain ((database.map Database.dbName).getD []) (mode = bytes "database_only") then
            .error (resultFailure (bytes "Validating target Site") (bytes "confirmation_mismatch")
              (bytes "Confirmation must match the target Site domain or database name") site.id backupId)
          else .ok ⟨backup, site, database⟩

/-- `database_dump_.importManagedDatabaseFile`, where there is a database. -/
def importDump (outcome : ImportOutcome) (dump : Tables) (database : Option Database) (world : World) : World :=
  match database with
  | none => world
  | some database =>
      { world with tables := Function.update world.tables database.id (outcome.tables dump (world.tables database.id)) }

/-- The part of a restore that writes. The recovery takes the mode in which it restores. -/
def applyRestore (calls : RestoreCalls) (plan : RestorePlan) (mode : Bytes) (backupId recoveryId : Nat) (payload : Archive)
    (recover : Bytes → World → Bool × World) (world : World) : BackupServiceResult × World :=
  let (overlaid, tree) :=
    if filesMode mode then copySiteTree calls.copy (world.dirs plan.site.domain) else (true, world.dirs plan.site.domain)
  let filesWorld := { world with dirs := Function.update world.dirs plan.site.domain tree }
  if !overlaid then
    (resultFailure (bytes "Restoring Site files") (bytes "file_restore_failed") (bytes "Site file restore failed") plan.site.id
      backupId recoveryId true, (recover (bytes "files_only") filesWorld).2)
  else
    let importWorld := if databaseMode mode then importDump calls.imported payload.dump plan.database filesWorld else filesWorld
    match if databaseMode mode then calls.imported.failure else none with
    | none => (resultSuccess (bytes "restore_completed") (bytes "Backup restore completed") plan.site.id backupId recoveryId,
        importWorld)
    | some message =>
        let (recovered, recoveredWorld) := recover (bytes "full") importWorld
        ({ resultFailure (bytes "Restoring managed database")
              (if recovered then bytes "restore_failed_recovery_succeeded" else bytes "restore_failed_target_may_be_partial")
              message plan.site.id backupId recoveryId (!recovered) with
            compensationStarted := true
            compensationResult := if recovered then bytes "completed" else bytes "failed" },
          recoveredWorld)

/-- The part of a restore between the recovery backup and the first write: it extracts the
archive and checks the dump. -/
def extractPayload (calls : RestoreCalls) (plan : RestorePlan) (mode path : Bytes) (backupId recoveryId : Nat) (world : World) :
    Except BackupServiceResult Archive :=
  if !calls.stagingReady then
    .error (resultFailure (bytes "Validating backup") (bytes "staging_unavailable") (bytes "Restore staging is unavailable")
      plan.site.id backupId recoveryId)
  else
    match if calls.extracted then world.archives path else none with
    | none =>
        .error (resultFailure (bytes "Validating backup") (bytes "archive_extract_failed")
          (bytes "Backup archive extraction failed") plan.site.id backupId recoveryId)
    | some payload =>
        if databaseMode mode && !calls.payloadValid then
          .error (resultFailure (bytes "Validating manifest and checksums") (bytes "database_payload_invalid")
            (bytes "Backup database payload failed checksum validation") plan.site.id backupId recoveryId)
        else .ok payload

/-- `restore_backup_internal` without a recovery backup. -/
def restoreRecovery (calls : RestoreCalls) (backupId targetSiteId : Nat) (mode confirmation : Bytes) (world : World) :
    BackupServiceResult × World :=
  match restorePlan calls backupId targetSiteId mode confirmation world with
  | .error failed => (failed, world)
  | .ok plan =>
      match extractPayload calls plan mode plan.backup.filePath backupId 0 world with
      | .error failed => (failed, world)
      | .ok payload => applyRestore calls plan mode backupId 0 payload (fun _ world => (false, world)) world

/-- What a restore has in hand when it starts to write. -/
structure Prepared where
  plan : RestorePlan
  recoveryId : Nat
  payload : Archive
  world : World

/-- `restore_backup_internal` with a recovery backup, up to its first write. The new backup
grows the list of the backups, into which the pointer to the record still points. -/
def prepareRestore (calls : RestoreCalls) (create : CreateCalls) (backupId targetSiteId : Nat) (mode confirmation : Bytes)
    (world : World) : Except (BackupServiceResult × World) Prepared :=
  match restorePlan calls backupId targetSiteId mode confirmation world with
  | .error failed => .error (failed, world)
  | .ok plan =>
      let recoveryId := world.backups.nextId
      let (made, world) :=
        createSiteBackupInternal create plan.site.id preRestoreRecovery recoveryId { world with backups := world.backups.reserve }
      if !made.success then
        .error (resultFailure (bytes "Creating pre-restore recovery backup") made.code
          (bytes "Pre-restore recovery backup failed; restore was not started") plan.site.id backupId, world)
      else
        match extractPayload calls plan mode (calls.pathRead plan.backup.filePath) backupId recoveryId world with
        | .error failed => .error (failed, world)
        | .ok payload => .ok ⟨plan, recoveryId, payload, world⟩

/-- `restore_backup`. -/
def restoreBackup (calls : RestoreCalls) (create : CreateCalls) (recovery : RestoreCalls) (backupId targetSiteId : Nat)
    (mode confirmation : Bytes) (world : World) : BackupServiceResult × World :=
  match prepareRestore calls create backupId targetSiteId mode confirmation world with
  | .error ended => ended
  | .ok prepared =>
      applyRestore calls prepared.plan mode backupId prepared.recoveryId prepared.payload
        (fun mode world =>
          let (result, world) :=
            restoreRecovery recovery prepared.recoveryId prepared.plan.site.id mode prepared.plan.site.domain world
          (result.success, world)) prepared.world

/-! ## Removals -/

/-- `remove_backup`: the archive goes first, where the file system lets it go. -/
def removeBackup (removed : Except Bytes Unit) (backupId : Nat) (world : World) : BackupServiceResult × World :=
  match world.backups.find fun backup => backup.id = backupId with
  | none => (resultFailure [] (bytes "backup_not_found") (bytes "Backup was not found") 0 backupId, world)
  | some backup =>
      let gone := { world with backups := world.backups.remove backupId }
      if backup.filePath = [] then (resultSuccess (bytes "backup_removed") (bytes "Backup removed") 0 backupId, gone)
      else
        match removed with
        | .error message => (resultFailure [] (bytes "backup_remove_failed") message 0 backupId, world)
        | .ok () =>
            (resultSuccess (bytes "backup_removed") (bytes "Backup removed") 0 backupId,
              { gone with archives := Function.update world.archives backup.filePath none })

end ContainerCP.Backups
