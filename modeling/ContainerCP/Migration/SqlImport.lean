import ContainerCP.Data.Store
import ContainerCP.Migration.Inspection

/-! `import_sql`: the database of a site replaced by the dump of a backup, with the safety
dump, the rollback and the new credentials in `wp-config.php`. -/
namespace ContainerCP.Migration

open Wordpress (containsText)

/-- The tables of a database with their contents. -/
abbrev Tables := Store Bytes Bytes

/-- What the import works on: the database, and the `wp-config.php` of the site with the copy
that an import makes of it. -/
structure SqlSite where
  database : Tables
  config : Option Bytes
  configBackup : Option Bytes := none

/-- The disk in the course of an import: also the safety dump in the staging directory, the
copy of it in the database container, and which dump was given to the database. -/
structure SqlDisk extends SqlSite where
  marker : Option Bytes
  safetyDump : Option Tables := none
  containerDump : Option Tables := none
  fed : Option Bytes := none

/-- How the commands end, and what they print where that is read. `runtimeError` is the error
of the resolution of the containers, and `env` the `.env` file of the site. -/
structure SqlCalls where
  runtimeError : Option Bytes := none
  env : Option Bytes
  staging : Bool := true
  extracts : Bytes → Bool
  gunzip : Bool := true
  copySql : Bool := true
  mysqli : Bool := true
  pdoMysql : Bool := true
  safetyDump : Bool := true
  tableList : CommandResult
  dropTables : Bool := true
  importDump : Bool := true
  tableVerify : CommandResult
  connection : CommandResult
  configInside : Bool := true
  configBackup : Bool := true
  configUpdate : Bool := true
  health : Nat → CommandResult × CommandResult
  http : CommandResult
  markerFile : Bool := true
  markerRename : Bool := true
  rollbackCopy : Bool := true
  rollbackList : Bool := true
  rollbackDrop : Bool := true
  rollbackRestore : Bool := true
  configRestore : Bool := true
  configRestoreAgain : Bool := true
  cleanup : Bool := true

/-- What the commands leave where their ends do not say it: the tables that a failed command
took or brought, what the dump makes of the database, what is written into `wp-config.php`,
and whether a failed removal of the staging directory spares the safety dump. -/
structure SqlLeftovers where
  dropped : Bytes → Bool
  imported : Tables
  backup : Option Bytes
  config : Bytes
  rollbackDropped : Bytes → Bool
  restored : Bytes → Bool
  restoredConfig : Bytes
  restoredConfigAgain : Bytes
  stagingSpared : Bool

structure ImportSqlResult where
  success : Bool := false
  dbName : Bytes := []
  safetyBackupCreated : Bool := false
  wpConfigUpdated : Bool := false
  errors : List Bytes := []
  deriving DecidableEq

/-! ## Up to the first change -/

/-- The dash of the texts, in UTF-8. -/
def dash : Bytes := [0xE2, 0x80, 0x94]

/-- `find_in_env`. -/
def findInEnv (env key : Bytes) : Bytes :=
  match cutAtText (key ++ bytes "=") env with
  | none => []
  | some (_, value) => (value.takeWhile (· ≠ newline)).rdropWhile fun c => c = ascii '\r' || c = newline

structure DatabaseCredentials where
  dbName : Bytes
  dbUser : Bytes
  dbPassword : Bytes
  deriving DecidableEq

def readCredentials : Option Bytes → Except Bytes DatabaseCredentials
  | none => .error (bytes "Site .env not found " ++ dash ++ bytes " cannot determine DB credentials")
  | some env =>
      let found : DatabaseCredentials :=
        ⟨findInEnv env (bytes "DB_NAME"), findInEnv env (bytes "DB_USER"), findInEnv env (bytes "DB_PASSWORD")⟩
      if found.dbName = [] || found.dbUser = [] || found.dbPassword = [] then
        .error (bytes "Cannot determine database credentials from .env")
      else .ok found

/-- The paths that are tried for a dump, in their order. -/
def extractionPaths (dump : Bytes × Bytes) (sourceDbName : Bytes) : List Bytes :=
  let named := bytes "db/" ++ sourceDbName ++ bytes "/" ++ sourceDbName ++ bytes "." ++ dump.2 ++ bytes ".sql.gz"
  [dump.1, bytes "./" ++ dump.1, named, bytes "./" ++ named]

/-- The names in a listing of tables. -/
def listedTables (out : Bytes) : List Bytes :=
  ((getlines newline out).map fun line => line.rdropWhile fun c => c = newline || c = ascii '\r' || c = ascii ' ').filter (· ≠ [])

/-- A failure before the first change, with what the result says already. -/
structure SqlFailure where
  result : ImportSqlResult
  staged : Bool
  deriving DecidableEq

/-- What the import goes on with: the dump, and the tables that it finds. -/
structure SqlPrepared where
  dumpPath : Bytes
  credentials : DatabaseCredentials
  tables : List Bytes
  siteId : UInt64
  deriving DecidableEq

/-- The dump in the staging directory and in the container, the checks and the safety dump. -/
def prepareStaging (calls : SqlCalls) (dump : Bytes × Bytes) (sourceDbName : Bytes) (credentials : DatabaseCredentials)
    (siteId : UInt64) : Except SqlFailure SqlPrepared :=
  let failure := fun error : Bytes => SqlFailure.mk { dbName := credentials.dbName, errors := [error] } true
  match (extractionPaths dump sourceDbName).find? calls.extracts with
  | none => .error (failure (bytes "Cannot extract SQL dump from backup"))
  | some dumpPath =>
      if !calls.gunzip then .error (failure (bytes "SQL dump decompression failed"))
      else if !calls.copySql then .error (failure (bytes "Cannot copy SQL dump into database container"))
      else if !calls.mysqli || !calls.pdoMysql then
        .error (failure (bytes "Target PHP runtime missing required MySQL extensions: " ++
          (if calls.mysqli then [] else bytes "mysqli ") ++ (if calls.pdoMysql then [] else bytes "pdo_mysql")))
      else if !calls.safetyDump then .error (failure (bytes "Database safety backup failed " ++ dash ++ bytes " aborting"))
      else if calls.tableList.exitCode ≠ 0 then
        .error ⟨{ dbName := credentials.dbName, safetyBackupCreated := true, errors := [bytes "Cannot list database tables"] }, true⟩
      else .ok ⟨dumpPath, credentials, listedTables calls.tableList.out, siteId⟩

def prepareSql (reads : Reads) (opts : Options) (calls : SqlCalls) : Except SqlFailure SqlPrepared :=
  let failure := fun errors : List Bytes => SqlFailure.mk { errors := errors } false
  let manifest := inspect reads opts
  if manifest.errors ≠ [] then .error (failure manifest.errors)
  else if !manifest.canImportSql then
    .error (failure [if manifest.markerError ≠ [] then manifest.markerError
      else bytes "SQL import not available at current stage (" ++ decimal manifest.migrationStage.toNat ++ bytes ")"])
  else
    match calls.runtimeError with
    | some error => .error (failure [error])
    | none =>
        match tarSafeList reads.listing with
        | .error error => .error (failure [bytes "Cannot read backup: " ++ error])
        | .ok entries =>
            if manifest.wpDbName = [] then .error (failure [bytes "DB_NAME not determined " ++ dash ++ bytes " cannot find SQL dump"])
            else
              match findDbInArchive entries manifest.wpDbName with
              | none => .error (failure [bytes "SQL dump not found for database '" ++ manifest.wpDbName ++ bytes "'"])
              | some dump =>
                  match readCredentials calls.env with
                  | .error error => .error (failure [error])
                  | .ok credentials =>
                      if !calls.staging then
                        .error ⟨{ dbName := credentials.dbName, errors := [bytes "Cannot create staging"] }, false⟩
                      else prepareStaging calls dump manifest.wpDbName credentials manifest.migrationSiteId

/-! ## The changes -/

section Changes

variable (opts : Options) (calls : SqlCalls) (left : SqlLeftovers)

/-- `cleanup_stg`. -/
def cleanupSql (disk : SqlDisk) : SqlDisk :=
  if opts.keepStaging then disk
  else { disk with safetyDump := if calls.cleanup || !left.stagingSpared then none else disk.safetyDump }

/-- `cp` of the copy of `wp-config.php` back to its place. -/
def copyConfigBack (works : Bool) (junk : Bytes) (disk : SqlDisk) : SqlDisk :=
  match disk.configBackup with
  | none => disk
  | some content => { disk with config := some (if works then content else junk) }

/-- What a rollback leaves of the tables before it restores any. Where there is no table to
name, nothing is dropped. -/
def clearTables (tables : Tables) : Tables :=
  if !calls.rollbackList then tables
  else if calls.rollbackDrop then ∅
  else tables.keep fun name _ => !left.rollbackDropped name

/-- `do_rollback`; `copied` is whether `wp-config.php` was copied before. -/
def doRollback (copied : Bool) (disk : SqlDisk) : SqlDisk :=
  match disk.safetyDump with
  | none => disk
  | some safety =>
      if !calls.rollbackCopy then disk
      else
        let disk := { disk with containerDump := some safety }
        let cleared := clearTables calls left disk.database
        if !calls.rollbackRestore then
          { disk with database := (safety.keep fun name _ => left.restored name).above cleared }
        else
          let disk := { disk with database := safety.above cleared }
          if copied then copyConfigBack calls.configRestore left.restoredConfig disk else disk

/-- The way out behind the import: the rollback, and once more the copy of `wp-config.php`
where that was updated. -/
def undoSql (result : ImportSqlResult) (copied again : Bool) (error : Bytes) (disk : SqlDisk) : ImportSqlResult × SqlDisk :=
  let disk := doRollback calls left copied disk
  let disk := if again then copyConfigBack calls.configRestoreAgain left.restoredConfigAgain disk else disk
  ({ result with errors := [error] }, cleanupSql opts calls left disk)

def answersHealthy (status : CommandResult) : Bool := status.exitCode = 0 && containsText (bytes "running|healthy") status.out

namespace SqlCalls

/-- Tables are there, as far as they can be counted. -/
def tablesFound : Bool :=
  !(calls.tableVerify.exitCode = 0 &&
    calls.tableVerify.out.rdropWhile (fun c => c = newline || c = ascii '\r') = bytes "0")

def connects : Bool := calls.connection.exitCode = 0 && containsText (bytes "1") calls.connection.out

def healthy : Bool := (List.range 30).any fun i => answersHealthy (calls.health i).1 && answersHealthy (calls.health i).2

/-- The site does not answer with the code 500. -/
def httpAccepted : Bool := !(calls.http.exitCode = 0 && calls.http.out ≠ [] && (stoi calls.http.out).getD 0 = 500)

def markerWritten : Bool := calls.markerFile && calls.markerRename

end SqlCalls

/-- The marker behind an import of the database. -/
def sqlMarker (siteId : UInt64) : MigrationMarker where
  version := 1
  domain := opts.domain
  owner := opts.owner
  siteId := siteId
  stage := 3
  filesPending := false
  filesImported := true
  sqlPending := false

/-- The health of the site, and the marker. -/
def finishSql (prepared : SqlPrepared) (result : ImportSqlResult) (copied : Bool) (disk : SqlDisk) : ImportSqlResult × SqlDisk :=
  if !calls.healthy then
    undoSql opts calls left result copied copied (bytes "Health check timeout after 60s " ++ dash ++ bytes " rolling back") disk
  else if !calls.httpAccepted then
    undoSql opts calls left result copied copied (bytes "HTTP 500 during WordPress health check; diagnostics redacted") disk
  else if !calls.markerWritten then
    undoSql opts calls left result copied copied (bytes "CRITICAL: SQL imported but failed to finalize migration marker") disk
  else
    ({ result with success := true },
      cleanupSql opts calls left { disk with marker := some (sqlMarker opts prepared.siteId).toJson })

/-- The new credentials in `wp-config.php`, where there is one. -/
def updateConfig (prepared : SqlPrepared) (result : ImportSqlResult) (disk : SqlDisk) : ImportSqlResult × SqlDisk :=
  match disk.config with
  | none => finishSql opts calls left prepared result false disk
  | some content =>
      if !calls.configInside then
        undoSql opts calls left result false false (bytes "WordPress config path is outside the managed document root") disk
      else
        let disk := { disk with configBackup := if calls.configBackup then some content else left.backup, config := some left.config }
        if !calls.configUpdate then undoSql opts calls left result true true (bytes "wp-config.php update failed") disk
        else finishSql opts calls left prepared { result with wpConfigUpdated := true } true disk

/-- The tables dropped, and the dump imported into what is left of the database. -/
def replaceDatabase (prepared : SqlPrepared) (disk : SqlDisk) : ImportSqlResult × SqlDisk :=
  let result : ImportSqlResult := { dbName := prepared.credentials.dbName, safetyBackupCreated := true }
  if prepared.tables ≠ [] && !calls.dropTables then
    ({ result with errors := [bytes "Cannot clean database"] },
      cleanupSql opts calls left
        { disk with database := disk.database.keep fun name _ => !(prepared.tables.contains name && left.dropped name) })
  else
    let disk := { disk with database := left.imported, fed := some prepared.dumpPath }
    if !calls.importDump then undoSql opts calls left result false false (bytes "SQL import failed") disk
    else if !calls.tablesFound then undoSql opts calls left result false false (bytes "Zero tables after import") disk
    else if !calls.connects then
      undoSql opts calls left result false false (bytes "DB connection check failed after import") disk
    else updateConfig opts calls left prepared result disk

end Changes

/-- `import_sql`. -/
def importSql (reads : Reads) (opts : Options) (calls : SqlCalls) (left : SqlLeftovers) (site : SqlSite) :
    ImportSqlResult × SqlDisk :=
  let disk : SqlDisk := { site with marker := reads.marker }
  match prepareSql reads opts calls with
  | .error failure => (failure.result, if failure.staged then cleanupSql opts calls left disk else disk)
  | .ok prepared => replaceDatabase opts calls left prepared { disk with safetyDump := some site.database }

end ContainerCP.Migration
