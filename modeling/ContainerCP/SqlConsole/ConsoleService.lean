import ContainerCP.SqlConsole.SessionStore

/-! `DatabaseSqlConsoleService`: launch sessions with a temporary user in the
database of a site. The service keeps its sessions in memory, writes them to the
store, and finds in the store what an earlier process left behind. -/
namespace ContainerCP.SqlConsole

structure DatabaseProviderResult where
  success : Bool
  code : String
  message : String
  deriving DecidableEq

/-- How a save ends. The stream into the temporary file is not checked, so the file
that replaces the store may end early. -/
inductive SaveVerdict where
  | replaced
  | refused
  | truncated (size : Nat)
  deriving DecidableEq

def SaveVerdict.write (save : SaveVerdict) (text : Bytes) (file : Option Bytes) : Option Bytes :=
  match save with
  | replaced => some text
  | refused => file
  | truncated size => some (text.take size)

/-- What a service was constructed with. -/
structure Service where
  hasProvider : Bool
  hasStore : Bool
  deriving DecidableEq

/-- The sessions of the running process, the file of its store, and the temporary
users at the database server that were created and whose drop has not succeeded. -/
structure Console where
  manager : SqlConsoleSessionManager
  file : Option Bytes := none
  users : List Bytes := []
  deriving DecidableEq

/-- What one call of the service finds around it: the surroundings of each call of
the session manager in their order, the password, how each statement at the
database server ends, and how the save ends. -/
structure Environment where
  around : Nat → Surroundings
  password : Option Bytes
  createUser : DatabaseProviderResult
  grant : DatabaseProviderResult
  dropAgain : DatabaseProviderResult
  drop : DatabaseProviderResult
  save : SaveVerdict

/-! ## The provider -/

def dropUser (userName : Bytes) (result : DatabaseProviderResult) (users : List Bytes) : List Bytes :=
  if result.success then users.filter (· ≠ userName) else users

/-- `create_temporary_sql_console_user`: a user without its grants is dropped again,
and nobody asks whether that worked. -/
def createTemporarySqlConsoleUser (env : Environment) (userName : Bytes) (users : List Bytes) :
    DatabaseProviderResult × List Bytes :=
  if env.createUser.success then
    if env.grant.success then
      (⟨true, "temporary_sql_console_user_ready", "Temporary SQL Console user created"⟩, userName :: users)
    else (env.grant, dropUser userName env.dropAgain (userName :: users))
  else (env.createUser, users)

/-! ## The service -/

structure SqlConsoleTemporaryCredential where
  databaseName : Bytes
  userName : Bytes
  password : Bytes
  deriving DecidableEq

structure SqlConsoleProvisionResult extends SqlConsoleCreateResult where
  temporaryCredential : Option SqlConsoleTemporaryCredential := none
  deriving DecidableEq

structure SqlConsoleInternalRedeemResult extends SqlConsoleOperationResult where
  temporaryCredential : Option SqlConsoleTemporaryCredential := none
  deriving DecidableEq

structure SqlConsoleRecoveryResult where
  success : Bool := true
  code : String := "recovered"
  message : String := "SQL Console persisted sessions recovered"
  inspected : Nat := 0
  cleaned : Nat := 0
  failed : Nat := 0
  deriving DecidableEq

def temporaryUserName (launchId : Bytes) : Bytes :=
  if launchId.length < 24 then [] else bytes "ccp_sql_" ++ launchId.take 24

/-- A value of the site's `.env` file. -/
def sqlConsoleEnvValue (file : Option Bytes) (key : Bytes) : Bytes :=
  match (getlines newline (file.getD [])).find? ((key ++ bytes "=").isPrefixOf ·) with
  | some line => line.drop (key.length + 1)
  | none => []

/-- The site has a service account: a user and a password in its `.env` file. -/
def serviceAccountAvailable (siteEnv : Option Bytes) : Bool :=
  !(sqlConsoleEnvValue siteEnv (bytes "CONTAINERCP_DB_SERVICE_USER")).isEmpty &&
    !(sqlConsoleEnvValue siteEnv (bytes "CONTAINERCP_DB_SERVICE_PASSWORD")).isEmpty

namespace Console

variable (console : Console) (service : Service) (env : Environment)

/-- `persist_sessions`; what the save reports is not looked at. -/
def persistSessions : Console :=
  if service.hasStore then
    { console with file := env.save.write (storeText console.manager.listInternal) console.file }
  else console

/-- An operation of the session manager, then a save. -/
def thenPersist {α : Type} (done : α × SqlConsoleSessionManager) : α × Console :=
  (done.1, { console with manager := done.2 }.persistSessions service env)

def createLaunchSession (request : SqlConsoleCreateRequest) : SqlConsoleCreateResult × Console :=
  console.thenPersist service env (console.manager.create (env.around 0) request)

/-- The end of a launch that failed behind its session: the session is revoked. -/
def abandonLaunch (index : Nat) (created : SqlConsoleCreateResult) (code message : String) :
    SqlConsoleProvisionResult × Console :=
  ({ created with success := false, code := code, message := message, launchSecret := [] },
    { console with manager := (console.manager.revoke (env.around index) created.launchId).2 }.persistSessions service env)

/-- The part of a launch behind its session: create the user, and attach it to the
session that is there. -/
def provisionLaunch (created : SqlConsoleCreateResult) (databaseName userName password : Bytes) :
    SqlConsoleProvisionResult × Console :=
  let provisioned := createTemporarySqlConsoleUser env userName console.users
  let provided := { console with users := provisioned.2 }
  if !provisioned.1.success then
    provided.abandonLaunch service env 1 created provisioned.1.code provisioned.1.message
  else
    let attached := provided.manager.attachTemporaryDatabaseUser (env.around 1) created.launchId databaseName
      userName password
    if !attached.1.success then
      { provided with manager := attached.2, users := dropUser userName env.drop provided.users }.abandonLaunch service env 2
        created attached.1.code attached.1.message
    else
      ({ created with
          session := attached.1.session
          temporaryCredential := some ⟨databaseName, userName, password⟩ },
        { provided with manager := attached.2 }.persistSessions service env)

def createTemporaryLaunchSession (request : SqlConsoleCreateRequest) (databaseName : Bytes) :
    SqlConsoleProvisionResult × Console :=
  if !service.hasProvider then
    ({ code := "provider_unavailable", message := "SQL Console database provider is unavailable" }, console)
  else if databaseName = [] then
    ({ code := "database_name_required", message := "SQL Console database name is required" }, console)
  else
    let created := console.manager.create (env.around 0) request
    let launched := { console with manager := created.2 }
    if !created.1.success then ({ created.1 with }, launched)
    else
      match temporaryUserName created.1.launchId, env.password with
      | c :: userName, some password => launched.provisionLaunch service env created.1 databaseName (c :: userName) password
      | _, _ =>
          launched.abandonLaunch service env 1 created.1 "temporary_credential_failed"
            "SQL Console temporary database credential could not be generated"

def createSiteTemporaryLaunchSession (siteEnv : Option Bytes) (request : SqlConsoleCreateRequest)
    (databaseName : Bytes) : SqlConsoleProvisionResult × Console :=
  if serviceAccountAvailable siteEnv then console.createTemporaryLaunchSession service env request databaseName
  else
    ({ code := "service_account_unavailable"
       message := "ContainerCP MariaDB service account is unavailable for this site" }, console)

def redeemLaunchSession (launchId launchSecret : Bytes) : SqlConsoleOperationResult × Console :=
  console.thenPersist service env (console.manager.redeem (env.around 0) launchId launchSecret)

def authorizeLaunchSession (launchId launchSecret : Bytes) : SqlConsoleOperationResult × Console :=
  console.thenPersist service env (console.manager.authorize (env.around 0) launchId launchSecret)

def touchLaunchSession (launchId launchSecret : Bytes) : SqlConsoleOperationResult × Console :=
  console.thenPersist service env (console.manager.touch (env.around 0) launchId launchSecret)

/-- Redeem, save, and look the temporary user up. The look may find the session
expired; that is not saved. `index` is the call of the manager that redeems. -/
def redeemInternal (index : Nat) (launchId launchSecret : Bytes) : SqlConsoleInternalRedeemResult × Console :=
  let redeemed := console.thenPersist service env (console.manager.redeem (env.around index) launchId launchSecret)
  if !redeemed.1.success then ({ redeemed.1 with }, redeemed.2)
  else
    let found := redeemed.2.manager.find (env.around (index + 1)) launchId
    let looked := { redeemed.2 with manager := found.2 }
    match found.1 with
    | some session =>
        if session.temporaryUserName = [] ∨ session.temporaryUserPassword = [] then
          ({ redeemed.1 with
              success := false
              code := "temporary_credential_unavailable"
              message := "SQL Console temporary database credential is unavailable" }, looked)
        else
          let credential : SqlConsoleTemporaryCredential :=
            ⟨session.databaseName, session.temporaryUserName, session.temporaryUserPassword⟩
          ({ redeemed.1 with temporaryCredential := some credential }, looked)
    | none =>
        ({ redeemed.1 with
            success := false
            code := "temporary_credential_unavailable"
            message := "SQL Console temporary database credential is unavailable" }, looked)

def redeemInternalLaunchSession (launchId launchSecret : Bytes) : SqlConsoleInternalRedeemResult × Console :=
  console.redeemInternal service env 0 launchId launchSecret

/-- The redemption that also checks the database of the route. -/
def redeemInternalLaunchSessionFor (launchId launchSecret : Bytes) (databaseId : UInt64) :
    SqlConsoleInternalRedeemResult × Console :=
  let found := console.manager.find (env.around 0) launchId
  let looked := { console with manager := found.2 }
  match found.1 with
  | none =>
      ({ success := false
         code := "session_not_found"
         message := "SQL Console launch session was not found" }, looked)
  | some session =>
      if databaseId = 0 ∨ session.databaseId ≠ databaseId then
        ({ success := false
           code := "database_mismatch"
           message := "SQL Console launch session database does not match route context"
           session := some (sqlConsolePublicSession session) }, looked)
      else looked.redeemInternal service env 1 launchId launchSecret

/-- Revoke without a look at the temporary user. -/
def revokeLaunchSession (launchId : Bytes) : SqlConsoleOperationResult × Console :=
  console.thenPersist service env (console.manager.revoke (env.around 0) launchId)

def revokeTemporaryLaunchSession (launchId : Bytes) : SqlConsoleOperationResult × Console :=
  let found := console.manager.find (env.around 0) launchId
  let looked := { console with manager := found.2 }
  match found.1 with
  | none =>
      let revoked := looked.manager.revoke (env.around 1) launchId
      (revoked.1, { looked with manager := revoked.2 })
  | some session =>
      if service.hasProvider = true ∧ session.temporaryUserName ≠ [] ∧ session.databaseName ≠ [] then
        if !env.drop.success then
          -- the session stays as the look at its expiry left it, and nothing is saved
          (⟨false, env.drop.code, env.drop.message, some (sqlConsolePublicSession session)⟩, looked)
        else
          let cleared := (looked.manager.clearTemporaryDatabaseUser launchId).2
          { looked with users := dropUser session.temporaryUserName env.drop looked.users }.thenPersist service env
            (cleared.revoke (env.around 1) launchId)
      else looked.thenPersist service env (looked.manager.revoke (env.around 1) launchId)

def revokeSiteTemporaryLaunchSession (siteEnv : Option Bytes) (launchId : Bytes) :
    SqlConsoleOperationResult × Console :=
  if serviceAccountAvailable siteEnv then console.revokeTemporaryLaunchSession service env launchId
  else
    (⟨false, "service_account_unavailable", "ContainerCP MariaDB service account is unavailable for this site",
      none⟩, console)

def sweepExpiredSessions : Nat × Console := console.thenPersist service env (console.manager.sweepExpired (env.around 0))

def listSessions (databaseId : UInt64) : List SqlConsolePublicSession × Console :=
  let listed := console.manager.listPublic (env.around 0) databaseId
  (listed.1, { console with manager := listed.2 })

end Console

/-! ## Recovery -/

/-- The records that recovery tries to clean. -/
def recoverable (session : SqlConsoleSession) : Bool :=
  !session.temporaryUserName.isEmpty && !session.databaseName.isEmpty &&
    !(session.status = .revoked || session.status = .expired)

/-- What the loop of the recovery finds for each record in its order: whether the
resolver knows a target, how the drop ends, and the clock. -/
structure RecoveryEnvironment where
  resolves : SqlConsoleSession → Bool
  drops : Nat → DatabaseProviderResult
  now : Nat → Time
  save : SaveVerdict

/-- A record behind its drop. -/
def recoveredSession (session : SqlConsoleSession) (now : Time) : SqlConsoleSession :=
  { session with
    status := .revoked
    revokedAt := some now
    databaseName := []
    temporaryUserName := []
    temporaryUserPassword := []
    secretDigest := [] }

/-- The state of the loop: the records behind it, the counters and the users. -/
structure Recovery where
  records : List SqlConsoleSession := []
  cleaned : Nat := 0
  failed : Nat := 0
  users : List Bytes
  deriving DecidableEq

def recoverLoop (env : RecoveryEnvironment) : Nat → List SqlConsoleSession → Recovery → Recovery
  | _, [], state => state
  | index, session :: rest, state =>
      recoverLoop env (index + 1) rest
        (if !recoverable session then { state with records := state.records ++ [session] }
        else if !env.resolves session || !(env.drops index).success then
          { state with records := state.records ++ [session], failed := state.failed + 1 }
        else
          { records := state.records ++ [recoveredSession session (env.now index)]
            cleaned := state.cleaned + 1
            failed := state.failed
            users := dropUser session.temporaryUserName (env.drops index) state.users })

def Console.recoverPersistedSessions (console : Console) (service : Service) (env : RecoveryEnvironment) :
    SqlConsoleRecoveryResult × Console :=
  if !service.hasStore then ({}, console)
  else if !service.hasProvider then
    ({ success := false
       code := "provider_unavailable"
       message := "SQL Console database provider is unavailable for recovery" }, console)
  else
    let records := loadStore console.file
    let done := recoverLoop env 0 records { users := console.users }
    let counted : SqlConsoleRecoveryResult :=
      { inspected := records.length, cleaned := done.cleaned, failed := done.failed }
    (if done.failed > 0 then
        { counted with
          success := false
          code := "recovery_incomplete"
          message := "SQL Console recovery could not clean every persisted session" }
      else counted,
      { console with file := env.save.write (storeText done.records) console.file, users := done.users })

end ContainerCP.SqlConsole
