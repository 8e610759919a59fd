import ContainerCP.Sql.Server
import ContainerCP.Storage.Records
import ContainerCP.Text.Lines

/-! `DatabaseLifecycleService::createManagedDatabase` with `MariaDBProvider`: make a database,
its user and the grants, and take them back when a later step fails. -/
namespace ContainerCP.DatabaseLifecycle

open Sql

/-! ## The provider -/

/-- How the run of a client goes: where the connection breaks, if it does, and what the
provider reports if the run fails. -/
structure Call where
  limit : Option Nat := none
  code : Bytes := []
  message : Bytes := []
  deriving DecidableEq

structure ProviderResult where
  success : Bool
  code : Bytes
  message : Bytes
  deriving DecidableEq

def Call.report (call : Call) (success : Bool) : ProviderResult :=
  if success then ⟨true, [], []⟩ else ⟨false, call.code, call.message⟩

/-- `execute_sql`. -/
def executeSql (call : Call) (script : List Statement) (server : Server) : ProviderResult × Server :=
  (call.report (execute call.limit script server).1, (execute call.limit script server).2)

/-- `database_exists`. A query that fails counts nothing. -/
def databaseExists (call : Call) (server : Server) (database : Bytes) : Bool :=
  call.limit.isNone && (server.databases database).isSome

/-- `user_exists`. -/
def userExists (call : Call) (server : Server) (user : Bytes) : Bool := call.limit.isNone && (server.users user).isSome

/-- `create_database`. -/
def createDatabase (call : Call) (database : Bytes) (server : Server) : ProviderResult × Server :=
  executeSql call [.createDatabase database] server

/-- The bytes that a password may have. -/
def passwordByte (c : UInt8) : Bool := !(c = 0x7f || (c < 0x20 && c ≠ 9 && c ≠ 10 && c ≠ 13 && c ≠ 8))

/-- `password_supported`. -/
def passwordSupported (value : Bytes) : Bool := value ≠ [] && value.length ≤ 256 && value.all passwordByte

/-- `create_or_update_user`. -/
def createOrUpdateUser (call : Call) (user password : Bytes) (server : Server) : ProviderResult × Server :=
  if passwordSupported password then
    executeSql call [.createUserIfNotExists user password, .alterUser user password] server
  else (⟨false, bytes "password_invalid", bytes "Generated database password is unsupported"⟩, server)

def managedDatabasePrivileges : Bytes :=
  bytes "SELECT, INSERT, UPDATE, DELETE, CREATE, DROP, INDEX, ALTER, CREATE TEMPORARY TABLES, LOCK TABLES"

/-- `grant_database_privileges`. -/
def grantDatabasePrivileges (call : Call) (database user : Bytes) (server : Server) : ProviderResult × Server :=
  executeSql call [.grant managedDatabasePrivileges database user] server

/-- `revoke_database_privileges`. -/
def revokeDatabasePrivileges (call : Call) (database user : Bytes) (server : Server) : ProviderResult × Server :=
  executeSql call [.revokeAll database user] server

/-- `drop_database`. -/
def dropDatabase (call : Call) (database : Bytes) (server : Server) : ProviderResult × Server :=
  executeSql call [.dropDatabaseIfExists database] server

/-- `drop_user`. -/
def dropUser (call : Call) (user : Bytes) (server : Server) : ProviderResult × Server :=
  executeSql call [.dropUserIfExists user] server

/-! ## The target -/

def identifierByte (c : UInt8) : Bool := isAlnum c || c = ascii '_'

/-- `validate_identifier`. -/
def validateIdentifier (maxLength : Nat) (value : Bytes) : Bool :=
  match value with
  | [] => false
  | first :: _ => value.length ≤ maxLength && isAlpha first && value.all identifierByte

def validateDatabaseName (value : Bytes) : Bool := validateIdentifier 64 value

def validateUserName (value : Bytes) : Bool := validateIdentifier 32 value

/-- `env_value`: what stands behind the key in the first line that has it. -/
def envValue (file key : Bytes) : Bytes :=
  (((getlines newline file).find? ((key ++ bytes "=").isPrefixOf ·)).map (·.drop (key ++ bytes "=").length)).getD []

structure Result where
  success : Bool
  code : Bytes
  message : Bytes
  step : String
  manualRecoveryRequired : Bool := false
  deriving DecidableEq

/-- `lifecycle_failure`. -/
def lifecycleFailure (step : String) (code message : Bytes) (manualRecovery : Bool) : Result :=
  ⟨false, code, message, step, manualRecovery⟩

/-- The records of the panel, and the server. -/
structure World where
  sites : List Storage.Site
  databases : List Storage.Database
  server : Server

/-- Every answer that one creation can get. -/
structure Environment where
  envFile : Bytes
  runtime : Bytes
  serviceAccount : Call := {}
  databaseProbe : Call := {}
  userProbe : Call := {}
  createDatabase : Call := {}
  createUser : Call := {}
  grant : Call := {}
  login : ProviderResult := ⟨true, [], []⟩
  persist : Bool := true
  revoke : Call := {}
  dropUser : Call := {}
  dropDatabase : Call := {}
  persistRollback : Bool := true

/-- `site_has_exactly_one_database`. -/
def siteHasExactlyOneDatabase (databases : List Storage.Database) (siteId : UInt64) : Bool :=
  databases.countP (fun database => database.siteId = siteId && database.enabled) = 1

/-- `resolve_target`: the record of a database that ContainerCP manages. -/
def resolveTarget (env : Environment) (siteId databaseId : UInt64) (world : World) : Except Result Storage.Database :=
  match world.sites.find? (·.id = siteId), world.databases.find? (·.id = databaseId) with
  | none, _ => .error (lifecycleFailure "Validating ownership" (bytes "site_not_found") (bytes "Site was not found") false)
  | some _, none =>
      .error (lifecycleFailure "Validating ownership" (bytes "database_not_found") (bytes "Database was not found for this site") false)
  | some _, some database =>
      if database.siteId ≠ siteId then
        .error (lifecycleFailure "Validating ownership" (bytes "database_not_found") (bytes "Database was not found for this site") false)
      else if !siteHasExactlyOneDatabase world.databases siteId then
        .error (lifecycleFailure "Validating ownership" (bytes "database_cardinality_invalid")
          (bytes "Site must have exactly one managed application database") false)
      else if database.dbPassword = [] then
        .error (lifecycleFailure "Validating ownership" (bytes "ownership_not_managed")
          (bytes "Imported or ownership-uncertain databases cannot be mutated") false)
      else if !validateDatabaseName database.dbName || !validateUserName database.dbUser then
        .error (lifecycleFailure "Validating ownership" (bytes "identifier_invalid")
          (bytes "Database metadata contains unsupported identifiers") false)
      else if envValue env.envFile (bytes "CONTAINERCP_DB_SERVICE_USER") = [] ∨
          envValue env.envFile (bytes "CONTAINERCP_DB_SERVICE_PASSWORD") = [] then
        .error (lifecycleFailure "Preparing secure credentials" (bytes "service_account_unavailable")
          (bytes "ContainerCP MariaDB service account is unavailable for this site") false)
      else .ok database

/-! ## Compensation -/

/-- What has been made so far, as the service believes. -/
structure Progress where
  createdDatabase : Bool := false
  createdUser : Bool := false
  granted : Bool := false
  deriving DecidableEq

/-- The first failure that the compensation meets. -/
abbrev Compensation := Option (Bytes × Bytes)

/-- A call of the compensation, if it has something to take back. -/
def takeBack (needed : Bool) (message : String) (call : Server → ProviderResult × Server) (before : Compensation × Server) :
    Compensation × Server :=
  if needed then
    let answer := call before.2
    if !answer.1.success && before.1.isNone then (some (answer.1.code, bytes message ++ answer.1.message), answer.2)
    else (before.1, answer.2)
  else before

/-- The calls of `compensate` that go to the server. -/
def compensateServer (env : Environment) (database : Storage.Database) (progress : Progress) (server : Server) :
    Compensation × Server :=
  takeBack progress.createdDatabase "Database rollback failed: " (dropDatabase env.dropDatabase database.dbName)
    (takeBack progress.createdUser "User rollback failed: " (dropUser env.dropUser database.dbUser)
      (takeBack progress.granted "Grant rollback failed: "
        (revokeDatabasePrivileges env.revoke database.dbName database.dbUser) (none, server)))

/-- `compensate`. -/
def compensate (env : Environment) (database : Storage.Database) (progress : Progress) (world : World) :
    Compensation × World :=
  let undone := compensateServer env database progress world.server
  let result :=
    if !env.persistRollback && undone.1.isNone then some (bytes "metadata_persist_failed", bytes "Metadata rollback failed")
    else undone.1
  (result, { world with databases := world.databases.eraseP (·.id = database.id), server := undone.2 })

/-- A step has failed: take back what was made, and report the step or the compensation. -/
def fail (env : Environment) (database : Storage.Database) (progress : Progress) (step : String) (code message : Bytes)
    (world : World) : Result × World :=
  let undone := compensate env database progress world
  match undone.1 with
  | some (rollbackCode, rollbackMessage) =>
      (lifecycleFailure "Compensating changes" rollbackCode rollbackMessage true, undone.2)
  | none => (lifecycleFailure step code message false, undone.2)

/-! ## The steps -/

def persisting (env : Environment) (database : Storage.Database) (world : World) : Result × World :=
  if env.persist then (⟨true, bytes "created", bytes "Managed database created", "Completed", false⟩, world)
  else
    fail env database ⟨true, true, true⟩ "Persisting metadata" (bytes "metadata_persist_failed")
      (bytes "Database metadata persistence failed") world

def verifying (env : Environment) (database : Storage.Database) (world : World) : Result × World :=
  if env.login.success then persisting env database world
  else
    fail env database ⟨true, true, true⟩ "Verifying connection" env.login.code
      (bytes "Managed database login verification failed: " ++ env.login.message) world

def granting (env : Environment) (database : Storage.Database) (world : World) : Result × World :=
  let answer := grantDatabasePrivileges env.grant database.dbName database.dbUser world.server
  let world := { world with server := answer.2 }
  if answer.1.success then verifying env database world
  else
    fail env database ⟨true, true, false⟩ "Applying grants" answer.1.code
      (bytes "Database privilege grant failed: " ++ answer.1.message) world

def creatingUser (env : Environment) (database : Storage.Database) (world : World) : Result × World :=
  let answer := createOrUpdateUser env.createUser database.dbUser database.dbPassword world.server
  let world := { world with server := answer.2 }
  if answer.1.success then granting env database world
  else
    fail env database ⟨true, false, false⟩ "Creating managed user" answer.1.code
      (bytes "Managed user creation failed: " ++ answer.1.message) world

def creatingDatabase (env : Environment) (database : Storage.Database) (world : World) : Result × World :=
  let answer := createDatabase env.createDatabase database.dbName world.server
  let world := { world with server := answer.2 }
  if answer.1.success then creatingUser env database world
  else
    fail env database {} "Creating database" answer.1.code
      (bytes "Physical database creation failed: " ++ answer.1.message) world

/-- `createManagedDatabase`. -/
def createManagedDatabase (env : Environment) (siteId databaseId : UInt64) (world : World) : Result × World :=
  match resolveTarget env siteId databaseId world with
  | .error result => (result, world)
  | .ok database =>
      if env.runtime ≠ bytes "Running" then
        (lifecycleFailure "Checking MariaDB runtime" (bytes "runtime_unavailable") (bytes "MariaDB runtime is not running") false, world)
      else if env.serviceAccount.limit.isSome then
        (lifecycleFailure "Preparing secure credentials" env.serviceAccount.code
          (bytes "MariaDB service account verification failed") false, world)
      else if databaseExists env.databaseProbe world.server database.dbName ||
          userExists env.userProbe world.server database.dbUser then
        (lifecycleFailure "Checking physical state" (bytes "physical_conflict") (bytes "Target database or user already exists") false, world)
      else creatingDatabase env database world

end ContainerCP.DatabaseLifecycle
