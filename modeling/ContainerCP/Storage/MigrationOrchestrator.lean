import ContainerCP.Posix.LexicalPath
import ContainerCP.Storage.ActivationState

/-! `MigrationOrchestrator`: the stages of a migration to SQLite, and the activation state
that the last one writes. -/
namespace ContainerCP.Storage

/-! ## The clock -/

/-- A time as `gmtime` breaks it down, in the years that are written with four digits. -/
structure UtcTime where
  year : Nat
  month : Nat
  day : Nat
  hour : Nat
  minute : Nat
  second : Nat
  year_four : 1000 ≤ year ∧ year ≤ 9999
  month_range : 1 ≤ month ∧ month ≤ 12
  day_range : 1 ≤ day ∧ day ≤ 31
  hour_range : hour ≤ 23
  minute_range : minute ≤ 59
  second_range : second ≤ 59

def digit (n : Nat) : UInt8 := UInt8.ofNat (48 + n % 10)

def twoDigits (n : Nat) : Bytes := [digit (n / 10), digit n]

/-- `timestamp_utc`, that is `%Y%m%dT%H%M%SZ`. -/
def timestampUtc (time : UtcTime) : Bytes :=
  twoDigits (time.year / 100) ++ twoDigits time.year ++ twoDigits time.month ++ twoDigits time.day ++ [ascii 'T'] ++
    twoDigits time.hour ++ twoDigits time.minute ++ twoDigits time.second ++ [ascii 'Z']

/-! ## The archive -/

/-- `normalize_archive_identity_path`. A path with a parent in it is refused, so that the
lexical normal form only leaves out dots and double slashes. -/
def normalizeArchiveIdentityPath (path : Bytes) : Bytes :=
  if path = [] || (path.splitOn Posix.slash).contains Posix.parent then []
  else
    let root := if path.head? = some Posix.slash then [Posix.slash] else []
    let normal := root ++ [Posix.slash].intercalate (Posix.pathNames path)
    (if normal = [] then Posix.here else normal).rdropWhile fun c => c = Posix.slash || c = Json.backslash

/-- The path of a new archive, in the directory that the constructor took. -/
def archivePathOf (archiveRoot sourceVersion migrationId : Bytes) (time : UtcTime) : Bytes :=
  normalizeArchiveIdentityPath archiveRoot ++ [Posix.slash] ++ bytes "legacy-" ++ sourceVersion ++ bytes "-" ++
    timestampUtc time ++ bytes "-" ++ migrationId ++ [Posix.slash]

/-! ## The activation state -/

def numberLine (key value : String) : Bytes := bytes "    \"" ++ bytes key ++ bytes "\": " ++ bytes value

/-- A line with a text as it is. -/
def textLine (key : String) (text : Bytes) : Bytes :=
  bytes "    \"" ++ bytes key ++ bytes "\": \"" ++ text ++ bytes "\""

/-- The content of the activation state file. -/
def activationStateJson (migrationId databasePath archivePath sourceVersion targetVersion timestamp : Bytes) : Bytes :=
  bytes "\x7b\n" ++ numberLine "state_version" "1" ++ bytes ",\n" ++ textLine "active_backend" (bytes "sqlite") ++
    bytes ",\n" ++ textLine "migration_id" (jsonEscape migrationId) ++
    bytes ",\n" ++ textLine "database_path" (jsonEscape databasePath) ++
    bytes ",\n" ++ textLine "archive_path" (jsonEscape archivePath) ++
    bytes ",\n" ++ textLine "source_version" (jsonEscape sourceVersion) ++
    bytes ",\n" ++ textLine "target_version" (jsonEscape targetVersion) ++
    bytes ",\n" ++ textLine "activation_timestamp" timestamp ++ bytes ",\n" ++ numberLine "schema_version" "7" ++
    bytes ",\n" ++ textLine "verification_result" (bytes "success") ++ bytes "\n\x7d\n"

/-! ## The stages -/

structure MigrationOrchestrator where
  sourceDir : Bytes
  databasePath : Bytes
  archiveRoot : Bytes
  sourceVersion : Bytes
  targetVersion : Bytes
  deriving DecidableEq

/-- How the stages go, and what the clock and the random numbers give. -/
structure Stages where
  sourceIsDirectory : Bool
  databaseParentExists : Bool
  archiveRootReady : Bool
  migrationId : Bytes
  stagingCreated : Bool
  poolInitialized : Bool
  databaseOpened : Bool
  schemaError : Option Bytes
  importError : Option (Bytes × Bytes)
  verificationError : Option Bytes
  bothVerified : Bool
  archiveError : Option Bytes
  archivedAt : UtcTime
  archiveVerified : Bool
  publishError : Option Bytes
  activatedAt : UtcTime
  stateWritten : Bool

structure MigrationResult where
  migrationId : Bytes
  archivePath : Bytes
  /-- The content of the activation state file. -/
  state : Bytes
  deriving DecidableEq

/-- `create_archive`: no archive goes into a directory that was refused. -/
def createArchive (orchestrator : MigrationOrchestrator) (stages : Stages) : Except Bytes Bytes :=
  if normalizeArchiveIdentityPath orchestrator.archiveRoot = [] then .error (bytes "invalid_archive_root")
  else
    match stages.archiveError with
    | some error => .error error
    | none =>
        .ok (archivePathOf orchestrator.archiveRoot orchestrator.sourceVersion stages.migrationId stages.archivedAt)

/-- The rename of the staged database, which an empty path refuses. -/
def publishDatabase (orchestrator : MigrationOrchestrator) (stages : Stages) : Option Bytes :=
  if orchestrator.databasePath = [] then some (bytes "No such file or directory") else stages.publishError

/-- A stage that ends the migration where its condition does not hold. -/
def require (condition : Bool) (error : Bytes) : Except Bytes Unit := if condition then .ok () else .error error

/-- A stage that ends the migration with its failure, if there is one. -/
def refuse (failure : Option Bytes) (label : String) : Except Bytes Unit :=
  match failure with
  | none => .ok ()
  | some error => .error (bytes label ++ error)

/-- `migrate_to_sqlite`. -/
def migrateToSqlite (orchestrator : MigrationOrchestrator) (stages : Stages) : Except Bytes MigrationResult := do
  require stages.sourceIsDirectory (bytes "Source directory not found: " ++ orchestrator.sourceDir)
  require stages.databaseParentExists (bytes "Database parent directory not found")
  require stages.archiveRootReady (bytes "Cannot create archive root: " ++ orchestrator.archiveRoot)
  require (safeVersion orchestrator.sourceVersion) (bytes "Invalid source version: " ++ orchestrator.sourceVersion)
  require (safeVersion orchestrator.targetVersion) (bytes "Invalid target version: " ++ orchestrator.targetVersion)
  require (validMigrationId stages.migrationId) (bytes "Generated invalid migration ID")
  require stages.stagingCreated (bytes "Failed to create staging directory")
  require stages.poolInitialized (bytes "Failed to initialize staged SQLite database")
  require stages.databaseOpened (bytes "Failed to open staging database for migration")
  refuse stages.schemaError "Schema migration failed: "
  refuse (stages.importError.map fun (resource, error) => bytes "'" ++ resource ++ bytes "': " ++ error)
    "Import failed at resource "
  refuse stages.verificationError "Verification failed: "
  require stages.bothVerified (bytes "Verification checks failed")
  match createArchive orchestrator stages with
  | .error error => .error (bytes "Archive creation failed: " ++ error)
  | .ok archivePath =>
      require stages.archiveVerified (bytes "Archive verification failed for " ++ archivePath)
      refuse (publishDatabase orchestrator stages) "Failed to publish database: "
      require stages.stateWritten (bytes "Failed to write activation state file")
      return ⟨stages.migrationId, archivePath, activationStateJson stages.migrationId orchestrator.databasePath
        archivePath orchestrator.sourceVersion orchestrator.targetVersion (timestampUtc stages.activatedAt)⟩

theorem require_bind {condition : Bool} {error : Bytes} {next : Unit → Except Bytes MigrationResult}
    {migration : MigrationResult} :
    (require condition error >>= next) = .ok migration ↔ condition = true ∧ next () = .ok migration := by
  cases condition with
  | false => simp [require, bind, Except.bind]
  | true => simp [require, bind, Except.bind]

theorem refuse_bind {failure : Option Bytes} {label : String} {next : Unit → Except Bytes MigrationResult}
    {migration : MigrationResult} :
    (refuse failure label >>= next) = .ok migration ↔ failure = none ∧ next () = .ok migration := by
  cases failure with
  | none => simp [refuse, bind, Except.bind]
  | some error => simp [refuse, bind, Except.bind]

end ContainerCP.Storage
