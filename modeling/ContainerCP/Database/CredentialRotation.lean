import ContainerCP.Control.Procedure
import ContainerCP.Storage.Records

/-! `DatabaseCredentialRotationService::rotate` over its adapter: change the
password of a database user at the server, in `wp-config.php` and in the stored
metadata, and take the changes back when a later step fails. -/
namespace ContainerCP.CredentialRotation

open Control

/-! ## What the calls answer -/

/-- What a call of a dependency reports. -/
structure Answer where
  success : Bool
  code : String
  deriving DecidableEq

/-- A call that changes something. One that reports success has its effect; one that
reports failure may have it, too. -/
structure ChangeAnswer extends Answer where
  applied : Bool
  deriving DecidableEq

def ChangeAnswer.effective (answer : ChangeAnswer) : Bool := answer.success || answer.applied

inductive SharedAssessment where
  | notShared
  | shared
  | unknown
  | identityMissing
  | multipleHostIdentities
  | metadataConflict
  deriving DecidableEq

def SharedAssessment.toText : SharedAssessment → String
  | notShared => "not_shared"
  | shared => "shared"
  | unknown => "unknown"
  | identityMissing => "identity_missing"
  | multipleHostIdentities => "multiple_host_identities"
  | metadataConflict => "metadata_conflict"

def rotationAllowed (assessment : SharedAssessment) : Bool := assessment = .notShared

structure TargetAnswer where
  available : Bool
  status : String
  message : String
  databaseId : UInt64
  deriving DecidableEq

/-- Every answer that a rotation can get, one for each place that asks. An answer
about a password says yes only where the password is the right one. -/
structure Environment where
  lockFree : Bool
  wired : Bool
  inspection : Answer
  target : TargetAnswer
  rootPassword : Bytes
  assessment : Answer
  assessed : SharedAssessment
  verifyCurrent : Answer
  generated : Bytes
  change : ChangeAnswer
  probeOld : Answer
  probeNew : Answer
  updateConfig : Answer
  hasRuntimeApply : Bool
  apply : Bool
  verifyNew : Answer
  verifyWordPress : Answer
  hasHealthVerifier : Bool
  health : List Bool
  hasPersist : Bool
  persist : ChangeAnswer
  hasReader : Bool
  readStored : Bool
  restore : ChangeAnswer
  rollback : ChangeAnswer
  reapply : Bool
  verifyRestored : Answer
  verifyRestoredWordPress : Answer
  restoredHealth : List Bool
  rereadStored : Bool

/-! ## The adapter -/

/-- What the adapter keeps for a running rotation: the passwords, and what the
configuration held before its update. -/
structure Context where
  oldPassword : Bytes
  newPassword : Bytes := []
  configRollback : Bytes := []
  dbUser : Bytes := []
  deriving DecidableEq

/-- The three places of the password, the records in memory, and the context of
this rotation. -/
structure Adapter where
  mariadb : Bytes
  config : Bytes
  stored : Option Bytes
  sites : List Storage.Site
  databases : List Storage.Database
  context : Option Context := none
  deriving DecidableEq

/-- The start of a rotation: the records in memory are those that were loaded from
the store. -/
def Adapter.start (mariadb config : Bytes) (sites : List Storage.Site) (databases : List Storage.Database)
    (databaseId : UInt64) : Adapter where
  mariadb := mariadb
  config := config
  stored := (databases.find? (·.id = databaseId)).map Storage.Database.dbPassword
  sites := sites
  databases := databases

structure StepResult where
  success : Bool
  code : String
  message : String
  generatedPassword : Bytes := []
  sharedAssessment : SharedAssessment := .unknown
  deriving DecidableEq

structure Request where
  siteId : UInt64
  databaseId : UInt64
  deriving DecidableEq

def ok (code message : String) : StepResult := { success := true, code, message }

def fail (code message : String) : StepResult := { success := false, code, message }

def orElse (code fallback : String) : String := if code.isEmpty then fallback else code

def contextMissing : StepResult := fail "rotation_context_missing" "Credential rotation context is missing"

/-- The record of the request: of the right site, by its id. -/
def findDatabase (databases : List Storage.Database) (request : Request) : Option Storage.Database :=
  (databases.find? (·.id = request.databaseId)).filter (·.siteId = request.siteId)

/-- Write a password into the first record with the id. -/
def setPassword (databaseId : UInt64) (password : Bytes) : List Storage.Database → List Storage.Database
  | [] => []
  | database :: rest =>
      if database.id = databaseId then { database with dbPassword := password } :: rest
      else database :: setPassword databaseId password rest

namespace Adapter

variable (adapter : Adapter) (request : Request)

def eraseContext : Adapter := { adapter with context := none }

def setMemory (password : Bytes) : Adapter :=
  { adapter with databases := setPassword request.databaseId password adapter.databases }

/-- The server's answer to a login. -/
def verifyPassword (answer : Answer) (password : Bytes) : Bool := answer.success && adapter.mariadb = password

/-- What the reader of the stored metadata gives, or nothing where it fails. -/
def readPassword (answers : Bool) : Option Bytes := if answers then adapter.stored else none

def loadMetadata : StepResult × Adapter :=
  if adapter.sites.all (·.id ≠ request.siteId) then (fail "site_not_found" "Site was not found", adapter)
  else
    match findDatabase adapter.databases request with
    | none => (fail "database_not_found" "Database was not found for this site", adapter)
    | some database =>
        if database.dbPassword = [] then
          (fail "credential_source_unavailable" "Database credential source is unavailable", adapter)
        else
          (ok "metadata_loaded" "Credential metadata loaded",
            { adapter with context := some { oldPassword := database.dbPassword } })

def inspectWordPress (answer : Answer) : StepResult × Adapter :=
  match adapter.context with
  | none => (contextMissing, adapter)
  | some _ =>
      if answer.success then (ok "wordpress_inspected" "WordPress credential source inspected", adapter)
      else
        (fail (orElse answer.code "wordpress_unsupported") "WordPress credential source is not supported",
          adapter.eraseContext)

def resolveDatabaseTarget (target : TargetAnswer) : StepResult × Adapter :=
  match adapter.context with
  | none => (contextMissing, adapter)
  | some context =>
      match findDatabase adapter.databases request with
      | none => (fail "database_not_found" "Database was not found for this site", adapter.eraseContext)
      | some database =>
          if !target.available then
            (fail (orElse target.status "database_target_unavailable")
              (orElse target.message "WordPress database target could not be resolved"), adapter.eraseContext)
          else if target.databaseId ≠ request.databaseId ∨ database.id ≠ target.databaseId then
            (fail "metadata_conflict" "WordPress credential metadata does not match the database record",
              adapter.eraseContext)
          else
            (ok "database_target_resolved" "WordPress database credential target resolved",
              { adapter with context := some { context with dbUser := database.dbUser } })

def loadMariaDBAdminCredentials (rootPassword : Bytes) : StepResult × Adapter :=
  match adapter.context with
  | none => (contextMissing, adapter)
  | some _ =>
      if rootPassword = [] then
        (fail "credential_source_unavailable" "Database credential source is unavailable", adapter.eraseContext)
      else (ok "mariadb_admin_credentials_loaded" "MariaDB admin credentials loaded", adapter)

def verifyOldCredential (answer : Answer) : StepResult × Adapter :=
  match adapter.context with
  | none => (contextMissing, adapter)
  | some context =>
      if adapter.verifyPassword answer context.oldPassword then
        (ok "old_credential_verified" "Existing database credential verified", adapter)
      else
        (fail (orElse answer.code "old_credential_verification_failed")
          "Existing database credential verification failed", adapter.eraseContext)

/-- The records of the same site with the same user. -/
def metadataReferences (context : Context) : List Storage.Database :=
  adapter.databases.filter fun database => database.siteId = request.siteId && database.dbUser = context.dbUser

def assessSharedUser (answer : Answer) (assessed : SharedAssessment) : StepResult × Adapter :=
  match adapter.context with
  | none => (contextMissing, adapter)
  | some context =>
      let references := adapter.metadataReferences request context
      if references.length ≠ 1 ∨ references.all (·.id ≠ request.databaseId) then
        ({ ok "shared_user_assessed" "Shared credential risk assessed" with sharedAssessment := .metadataConflict },
          adapter.eraseContext)
      else
        let result : StepResult :=
          if answer.success then
            { ok "shared_user_assessed" "Shared credential risk assessed" with sharedAssessment := assessed }
          else { fail answer.code "Shared credential assessment failed" with sharedAssessment := assessed }
        (result, if answer.success && rotationAllowed assessed then adapter else adapter.eraseContext)

def generatePassword (generated : Bytes) : StepResult × Adapter :=
  if generated = [] then
    (fail "password_generation_failed" "Replacement database credential generation failed", adapter.eraseContext)
  else
    ({ ok "password_generated" "Replacement database credential generated" with generatedPassword := generated },
      { adapter with context := adapter.context.map fun context => { context with newPassword := generated } })

def changeMariaDBPassword (answer : ChangeAnswer) (newPassword : Bytes) : StepResult × Adapter :=
  match adapter.context with
  | none => (contextMissing, adapter)
  | some _ =>
      (if answer.success then ok "mariadb_password_changed" "MariaDB password changed"
        else fail (orElse answer.code "mariadb_password_change_failed") "MariaDB password change failed",
        if answer.effective then { adapter with mariadb := newPassword } else adapter)

def probeOldCredential (answer : Answer) : StepResult :=
  match adapter.context with
  | none => contextMissing
  | some context =>
      if adapter.verifyPassword answer context.oldPassword then
        ok "old_credential_probe_valid" "Existing database credential probe succeeded"
      else fail (orElse answer.code "old_credential_probe_invalid") "Existing database credential probe failed"

def probeNewCredential (answer : Answer) (newPassword : Bytes) : StepResult :=
  match adapter.context with
  | none => contextMissing
  | some _ =>
      if adapter.verifyPassword answer newPassword then
        ok "new_credential_probe_valid" "New database credential probe succeeded"
      else fail (orElse answer.code "new_credential_probe_invalid") "New database credential probe failed"

/-- The update of `wp-config.php`, which keeps the old content where it fails. -/
def updateWordPressConfig (answer : Answer) (newPassword : Bytes) : StepResult × Adapter :=
  match adapter.context with
  | none => (contextMissing, adapter)
  | some context =>
      if answer.success then
        (ok "wordpress_config_updated" "WordPress config updated",
          { adapter with
            config := newPassword
            context := some { context with configRollback := adapter.config } })
      else (fail (orElse answer.code "wordpress_config_update_failed") "WordPress config update failed", adapter)

/-- `apply_runtime` and `restore_runtime`, which differ in their texts. -/
def runtime (has applied : Bool) (failed : StepResult) (done : StepResult) : StepResult :=
  if adapter.sites.all (·.id ≠ request.siteId) then fail "site_not_found" "Site was not found"
  else if has && !applied then failed
  else done

def applyRuntime (has applied : Bool) : StepResult :=
  adapter.runtime request has applied (fail "runtime_apply_failed" "Runtime apply failed")
    (ok "runtime_applied" "Runtime changes applied")

def restoreRuntime (has applied : Bool) : StepResult :=
  adapter.runtime request has applied (fail "runtime_restore_failed" "Runtime restore failed")
    (ok "runtime_restored" "Runtime restored")

def verifyNewCredential (answer : Answer) (newPassword : Bytes) : StepResult :=
  match adapter.context with
  | none => contextMissing
  | some _ =>
      if adapter.verifyPassword answer newPassword then
        ok "new_credential_verified" "New database credential verified"
      else
        fail (orElse answer.code "new_credential_verification_failed") "New database credential verification failed"

def verifyWordPress (answer : Answer) : StepResult :=
  match adapter.context with
  | none => contextMissing
  | some _ =>
      if answer.success then ok "wordpress_verified" "WordPress database access verified"
      else fail (orElse answer.code "wordpress_verification_failed") "WordPress verification failed"

/-- The verifier is asked until it says yes or the time is over. -/
def verifySiteHealth (has : Bool) (polls : List Bool) : StepResult :=
  if adapter.sites.all (·.id ≠ request.siteId) then fail "site_not_found" "Site was not found"
  else if has && !polls.any id then
    fail "runtime_availability_verification_failed" "Runtime container availability verification failed"
  else ok "runtime_availability_verified" "Runtime container availability verified"

/-- The record in memory takes the new password, is saved and read back; where one
of these fails the record in memory takes the old password again. -/
def persistMetadata (env : Environment) (newPassword : Bytes) : StepResult × Adapter :=
  match adapter.context with
  | none => (contextMissing, adapter)
  | some context =>
      match findDatabase adapter.databases request with
      | none => (fail "database_not_found" "Database was not found for this site", adapter)
      | some _ =>
          let changed := adapter.setMemory request newPassword
          let saved :=
            if env.hasPersist && env.persist.effective then { changed with stored := some newPassword } else changed
          if env.hasPersist && !env.persist.success then
            (fail "metadata_persist_failed" "Credential metadata persistence failed",
              saved.setMemory request context.oldPassword)
          else if !env.hasReader || saved.readPassword env.readStored != some newPassword then
            (fail "metadata_persist_unverified" "Credential metadata persistence could not be verified",
              saved.setMemory request context.oldPassword)
          else (ok "metadata_persisted" "Credential metadata persisted", saved.eraseContext)

def restoreMariaDBPassword (answer : ChangeAnswer) : StepResult × Adapter :=
  match adapter.context with
  | none => (contextMissing, adapter)
  | some context =>
      (if answer.success then ok "mariadb_password_restored" "MariaDB password restored"
        else fail (orElse answer.code "mariadb_password_restore_failed") "MariaDB password restore failed",
        if answer.effective then { adapter with mariadb := context.oldPassword } else adapter)

def restoreWordPressConfig (answer : ChangeAnswer) : StepResult × Adapter :=
  match adapter.context with
  | none => (contextMissing, adapter)
  | some context =>
      (if answer.success then ok "wordpress_config_restored" "WordPress config restored"
        else fail (orElse answer.code "wordpress_config_restore_failed") "WordPress config restore failed",
        if answer.effective then { adapter with config := context.configRollback } else adapter)

def verifyRestoredMetadata (env : Environment) : StepResult × Adapter :=
  match adapter.context with
  | none => (contextMissing, adapter)
  | some context =>
      match findDatabase adapter.databases request with
      | none => (fail "database_not_found" "Database was not found for this site", adapter)
      | some database =>
          if database.dbPassword ≠ context.oldPassword then
            (fail "metadata_restore_mismatch"
              "Credential metadata does not match restored database credential", adapter)
          else if !env.hasReader then
            (fail "metadata_restore_unverified" "Credential metadata restore could not be verified", adapter)
          else if adapter.readPassword env.rereadStored ≠ some context.oldPassword then
            (fail "metadata_restore_mismatch"
              "Credential metadata does not match restored database credential", adapter)
          else (ok "metadata_restored" "Credential metadata restored", adapter.eraseContext)

end Adapter

/-! ## The service -/

inductive RotationState where
  | notStarted
  | lockAcquired
  | inspectingWordPress
  | verifyingOldCredential
  | assessingSharedUser
  | generatingPassword
  | changingMariaDBPassword
  | updatingWordPressConfig
  | applyingRuntime
  | verifyingMariaDBPassword
  | verifyingWordPress
  | verifyingSiteHealth
  | persistingMetadata
  | completed
  | compensating
  | compensated
  | manualRecoveryRequired
  | failed
  deriving DecidableEq

structure RotationEvent where
  state : RotationState
  code : String
  message : String
  deriving DecidableEq

structure RotationResult where
  success : Bool
  finalState : RotationState
  code : String
  message : String
  events : List RotationEvent
  deriving DecidableEq

/-- The adapter, and the events so far. -/
structure Running where
  adapter : Adapter
  events : List RotationEvent := []
  deriving DecidableEq

abbrev Rotation := EStateM RotationResult Running

def note (state : RotationState) (code message : String) : Rotation Unit :=
  act fun s => ((), { s with events := s.events ++ [⟨state, code, message⟩] })

/-- A call of the adapter. -/
def call {α : Type} (step : Adapter → α × Adapter) : Rotation α :=
  act fun s => ((step s.adapter).1, { s with adapter := (step s.adapter).2 })

/-- A call that leaves the adapter as it is. -/
def ask {α : Type} (step : Adapter → α) : Rotation α := act fun s => (step s.adapter, s)

/-- `fail_with`, and the return behind it. -/
def failWith {α : Type} (state : RotationState) (code message : String) : Rotation α := do
  note state code message
  leave fun s => ⟨false, state, code, message, s.events⟩

def manualRecovery {α : Type} : Rotation α :=
  failWith .manualRecoveryRequired "manual_recovery_required" "Credential rotation requires manual recovery"

/-- The announcement of a step and its call. -/
def runStep (state : RotationState) (code message : String) (step : Adapter → StepResult × Adapter) :
    Rotation StepResult := do
  note state code message
  call step

/-- A step in front of the first change: where it fails, the rotation has failed. -/
def prepare (state : RotationState) (code message : String) (step : Adapter → StepResult × Adapter)
    (fallback failure : String) : Rotation StepResult := do
  let result ← runStep state code message step
  when (!result.success) (failWith .failed (orElse result.code fallback) failure)
  return result

/-- One step of the compensation: where it fails, somebody has to look. -/
def compensateStep (code message : String) (step : Adapter → StepResult × Adapter) : Rotation Unit := do
  note .compensating code message
  let result ← call step
  when (!result.success) manualRecovery

def keep (step : Adapter → StepResult) (adapter : Adapter) : StepResult × Adapter := (step adapter, adapter)

section Rotate

variable (env : Environment) (request : Request)

/-- `compensate_after_failure`, and the return behind it. -/
def compensateAfterFailure {α : Type} (configUpdated runtimeApplyAttempted : Bool) : Rotation α := do
  note .compensating "compensating" "Compensating failed credential rotation"
  compensateStep "restoring_mariadb_password" "Restoring MariaDB password"
    (·.restoreMariaDBPassword env.restore)
  when configUpdated
    (compensateStep "restoring_wordpress_config" "Restoring WordPress config" (·.restoreWordPressConfig env.rollback))
  when (configUpdated || runtimeApplyAttempted)
    (compensateStep "restoring_runtime" "Restoring runtime state"
      (keep (·.restoreRuntime request env.hasRuntimeApply env.reapply)))
  compensateStep "verifying_restored_credential" "Verifying restored database credential"
    (·.verifyOldCredential env.verifyRestored)
  compensateStep "verifying_restored_wordpress" "Verifying restored WordPress database access"
    (keep (·.verifyWordPress env.verifyRestoredWordPress))
  compensateStep "verifying_restored_runtime_availability" "Verifying restored runtime container availability"
    (keep (·.verifySiteHealth request env.hasHealthVerifier env.restoredHealth))
  compensateStep "verifying_restored_metadata" "Verifying restored credential metadata"
    (·.verifyRestoredMetadata request env)
  failWith .compensated "rotation_compensated" "Credential rotation failed and was safely rolled back"

/-- A step behind the first change: where it fails, the changes are taken back. -/
def proceed (state : RotationState) (code message : String) (step : Adapter → StepResult × Adapter)
    (fallback failure : String) (configUpdated runtimeApplyAttempted : Bool) : Rotation Unit := do
  let result ← runStep state code message step
  when (!result.success) do
    note .failed (orElse result.code fallback) failure
    compensateAfterFailure env request configUpdated runtimeApplyAttempted

/-- The change at the server. Where the command fails, two logins tell whether it
had its effect. -/
def changePassword (newPassword : Bytes) : Rotation Unit := do
  let result ← runStep .changingMariaDBPassword "changing_mariadb_password" "Changing MariaDB password"
    (·.changeMariaDBPassword env.change newPassword)
  when (!result.success) do
    note .verifyingMariaDBPassword "determining_mariadb_password_state"
      "Determining MariaDB password state after failed change command"
    let old ← ask (·.probeOldCredential env.probeOld)
    let new ← ask (·.probeNewCredential env.probeNew newPassword)
    if new.success && !old.success then
      note .changingMariaDBPassword "mariadb_password_change_confirmed"
        "MariaDB password change confirmed after command failure"
    else if old.success && !new.success then
      failWith .failed (orElse result.code "mariadb_password_change_failed") "MariaDB password change failed"
    else
      note .manualRecoveryRequired
        (if old.success && new.success then "mariadb_password_state_ambiguous" else "mariadb_password_state_unknown")
        "MariaDB password state could not be proven after change command failure"
      manualRecovery

/-- The steps in front of the first change; they give the new password. -/
def prepareRotation : Rotation Bytes := do
  let _ ← prepare .inspectingWordPress "loading_metadata" "Loading credential metadata" (·.loadMetadata request)
    "metadata_load_failed" "Credential metadata loading failed"
  let _ ← prepare .inspectingWordPress "inspecting_wordpress" "Inspecting WordPress credential source"
    (·.inspectWordPress env.inspection) "wordpress_inspection_failed" "WordPress credential inspection failed"
  let _ ← prepare .inspectingWordPress "resolving_database_target" "Resolving WordPress database target"
    (·.resolveDatabaseTarget request env.target) "database_target_resolution_failed"
    "WordPress database target resolution failed"
  let _ ← prepare .verifyingOldCredential "loading_mariadb_admin_credentials" "Loading MariaDB admin credentials"
    (·.loadMariaDBAdminCredentials env.rootPassword) "mariadb_admin_credentials_unavailable"
    "MariaDB admin credentials are unavailable"
  let shared ← prepare .assessingSharedUser "assessing_shared_user" "Assessing shared database credential risk"
    (·.assessSharedUser request env.assessment env.assessed) "shared_user_assessment_failed"
    "Shared credential assessment failed"
  when (!rotationAllowed shared.sharedAssessment)
    (failWith .failed ("shared_user_assessment_" ++ shared.sharedAssessment.toText)
      "Shared credential assessment blocks rotation")
  let _ ← prepare .verifyingOldCredential "verifying_old_credential" "Verifying existing database credential"
    (·.verifyOldCredential env.verifyCurrent) "old_credential_verification_failed"
    "Existing database credential verification failed"
  let generated ← runStep .generatingPassword "generating_password" "Generating replacement database credential"
    (·.generatePassword env.generated)
  when (!generated.success || generated.generatedPassword.isEmpty)
    (failWith .failed (orElse generated.code "password_generation_failed")
      "Replacement database credential generation failed")
  return generated.generatedPassword

/-- `rotate`. -/
def rotate : Rotation RotationResult := do
  when (request.databaseId = 0) (failWith .failed "database_required" "Database id is required")
  when (!env.lockFree)
    (failWith .failed "rotation_already_running" "A credential rotation is already running for this site database")
  note .lockAcquired "lock_acquired" "Rotation lock acquired"
  when (!env.wired) do
    note .inspectingWordPress "pending" "WordPress inspection dependency is not wired yet"
    failWith .failed "rotation_dependencies_missing" "Credential rotation dependencies are not wired yet"
  let newPassword ← prepareRotation env request
  changePassword env newPassword
  proceed env request .updatingWordPressConfig "updating_wordpress_config" "Updating WordPress config"
    (·.updateWordPressConfig env.updateConfig newPassword) "wordpress_config_update_failed"
    "WordPress config update failed" false false
  proceed env request .applyingRuntime "applying_runtime" "Applying runtime changes"
    (keep (·.applyRuntime request env.hasRuntimeApply env.apply)) "runtime_apply_failed" "Runtime apply failed" true true
  proceed env request .verifyingMariaDBPassword "verifying_mariadb_password" "Verifying new MariaDB credential"
    (keep (·.verifyNewCredential env.verifyNew newPassword)) "new_credential_verification_failed"
    "New database credential verification failed" true true
  proceed env request .verifyingWordPress "verifying_wordpress" "Verifying WordPress database access"
    (keep (·.verifyWordPress env.verifyWordPress)) "wordpress_verification_failed" "WordPress verification failed"
    true true
  proceed env request .verifyingSiteHealth "verifying_runtime_availability" "Verifying runtime container availability"
    (keep (·.verifySiteHealth request env.hasHealthVerifier env.health)) "runtime_availability_verification_failed"
    "Runtime container availability verification failed" true true
  proceed env request .persistingMetadata "persisting_metadata" "Persisting credential metadata"
    (·.persistMetadata request env newPassword) "metadata_persist_failed" "Credential metadata persistence failed"
    true true
  note .completed "completed" "Database credential rotation completed"
  act fun s => (⟨true, .completed, "completed", "Database credential rotation completed", s.events⟩, s)

end Rotate

end ContainerCP.CredentialRotation
