import ContainerCP.Data.Table
import ContainerCP.Text.Bytes

/-! `SqlConsoleSessionManager`: launch sessions of the SQL console. Each operation
reads the clock for itself; nothing says that the readings grow. -/
namespace ContainerCP.SqlConsole

/-- A point of the system clock, in nanoseconds. -/
abbrev Time := Int64

/-- A duration in seconds as the clock counts it. -/
def seconds (n : Int64) : Time := n * 1000000000

def minTime (a b : Time) : Time := if a < b then a else b

theorem minTime_le (a b : Time) : minTime a b ≤ b := by
  rw [minTime]
  split
  · next h => exact Int64.le_of_lt h
  · exact Int64.le_refl b

inductive SqlConsoleSessionStatus where
  | created
  | redeemed
  | expired
  | revoked
  deriving DecidableEq

/-- The states that a session does not leave. -/
def SqlConsoleSessionStatus.Terminal (status : SqlConsoleSessionStatus) : Prop :=
  status = .expired ∨ status = .revoked

instance (status : SqlConsoleSessionStatus) : Decidable status.Terminal :=
  inferInstanceAs (Decidable (_ ∨ _))

structure SqlConsoleSession where
  launchId : Bytes := []
  secretDigest : Bytes := []
  databaseId : UInt64 := 0
  siteId : UInt64 := 0
  adminUsername : Bytes := []
  adminRole : Bytes := []
  provider : Bytes := bytes "adminer"
  databaseName : Bytes := []
  temporaryUserName : Bytes := []
  temporaryUserPassword : Bytes := []
  status : SqlConsoleSessionStatus := .created
  createdAt : Time := 0
  expiresAt : Time := 0
  idleExpiresAt : Time := 0
  lastSeenAt : Time := 0
  redeemedAt : Option Time := none
  revokedAt : Option Time := none
  deriving DecidableEq

/-- What a caller gets to see of a session: neither the digest nor the temporary
user. The points in time stand for their ISO texts. -/
structure SqlConsolePublicSession where
  launchId : Bytes
  databaseId : UInt64
  siteId : UInt64
  adminUsername : Bytes
  adminRole : Bytes
  provider : Bytes
  status : SqlConsoleSessionStatus
  createdAt : Time
  redeemedAt : Option Time
  expiresAt : Time
  idleExpiresAt : Time
  revokedAt : Option Time
  deriving DecidableEq

def sqlConsolePublicSession (session : SqlConsoleSession) : SqlConsolePublicSession where
  launchId := session.launchId
  databaseId := session.databaseId
  siteId := session.siteId
  adminUsername := session.adminUsername
  adminRole := session.adminRole
  provider := session.provider
  status := session.status
  createdAt := session.createdAt
  redeemedAt := session.redeemedAt
  expiresAt := session.expiresAt
  idleExpiresAt := session.idleExpiresAt
  revokedAt := session.revokedAt

/-- The lifetimes, in seconds. -/
structure SqlConsoleSessionPolicy where
  absoluteTtl : Int64 := 1800
  idleTtl : Int64 := 600
  singleUseRedemption : Bool := true
  deriving DecidableEq

/-- What the constructor makes of a policy. -/
def SqlConsoleSessionPolicy.normalize (policy : SqlConsoleSessionPolicy) : SqlConsoleSessionPolicy :=
  let absoluteTtl := if policy.absoluteTtl ≤ 0 then 1800 else policy.absoluteTtl
  { policy with
    absoluteTtl := absoluteTtl
    idleTtl := if policy.idleTtl ≤ 0 ∨ policy.idleTtl > absoluteTtl then absoluteTtl else policy.idleTtl }

structure SqlConsoleCreateRequest where
  databaseId : UInt64 := 0
  siteId : UInt64 := 0
  adminUsername : Bytes := []
  adminRole : Bytes := []
  provider : Bytes := bytes "adminer"
  deriving DecidableEq

structure SqlConsoleOperationResult where
  success : Bool
  code : String
  message : String
  session : Option SqlConsolePublicSession := none
  deriving DecidableEq

structure SqlConsoleCreateResult where
  success : Bool := false
  code : String
  message : String
  launchId : Bytes := []
  launchSecret : Bytes := []
  session : Option SqlConsolePublicSession := none
  deriving DecidableEq

structure SqlConsoleSessionManager where
  policy : SqlConsoleSessionPolicy
  sessions : Table Bytes SqlConsoleSession := ∅
  deriving DecidableEq

def SqlConsoleSessionManager.new (policy : SqlConsoleSessionPolicy) : SqlConsoleSessionManager :=
  { policy := policy.normalize }

/-- What one call finds around it: the readings of the clock in their order, the
random texts that it is given, and the digest, which is empty where it could not
be computed. -/
structure Surroundings where
  clock : Nat → Time
  hex16 : Nat → Option Bytes
  hex32 : Option Bytes
  secretDigest : Bytes → Bytes

def failure (code message : String) (session : SqlConsoleSession) : SqlConsoleOperationResult :=
  ⟨false, code, message, some (sqlConsolePublicSession session)⟩

def success (code message : String) (session : SqlConsoleSession) : SqlConsoleOperationResult :=
  ⟨true, code, message, some (sqlConsolePublicSession session)⟩

def sessionNotFound : SqlConsoleOperationResult :=
  ⟨false, "session_not_found", "SQL Console launch session was not found", none⟩

def requestValid (request : SqlConsoleCreateRequest) : Bool :=
  decide (0 < request.databaseId) && decide (0 < request.siteId) && !request.adminUsername.isEmpty &&
    !request.provider.isEmpty

/-- The loop over the candidates for a launch id: it ends with the first one that
is not in use, or when no random text is given. -/
def pickLaunchId (sessions : Table Bytes SqlConsoleSession) (hex16 : Nat → Option Bytes) :
    Nat → Nat → Option Bytes
  | 0, _ => none
  | attempts + 1, attempt =>
      match hex16 attempt with
      | none => none
      | some candidate =>
          if candidate ∈ sessions then pickLaunchId sessions hex16 attempts (attempt + 1) else some candidate

/-- The session that `create` puts into the table. -/
def newSession (policy : SqlConsoleSessionPolicy) (request : SqlConsoleCreateRequest) (launchId digest : Bytes)
    (now : Time) : SqlConsoleSession where
  launchId := launchId
  secretDigest := digest
  databaseId := request.databaseId
  siteId := request.siteId
  adminUsername := request.adminUsername
  adminRole := request.adminRole
  provider := request.provider
  status := .created
  createdAt := now
  expiresAt := now + seconds policy.absoluteTtl
  idleExpiresAt := minTime (now + seconds policy.idleTtl) (now + seconds policy.absoluteTtl)
  lastSeenAt := now

def expired (session : SqlConsoleSession) (now : Time) : Bool :=
  if session.status = .expired ∨ session.status = .revoked then false
  else if session.expiresAt ≤ now then true
  else session.status = .redeemed && session.idleExpiresAt ≤ now

def expireIfNeeded (session : SqlConsoleSession) (now : Time) : SqlConsoleSession :=
  if expired session now then { session with status := .expired } else session

/-- The activity of a redeemed session at `now`. -/
def noteActivity (policy : SqlConsoleSessionPolicy) (session : SqlConsoleSession) (now : Time) : SqlConsoleSession :=
  { session with
    lastSeenAt := now
    idleExpiresAt := minTime (now + seconds policy.idleTtl) session.expiresAt }

/-! ## Operations on the session that is found

Each takes the session as it is in the table and gives back the result and the
session that is left there. -/

section OnSession

variable (policy : SqlConsoleSessionPolicy) (around : Surroundings)

def authorizeSession (launchSecret : Bytes) (found : SqlConsoleSession) :
    SqlConsoleOperationResult × SqlConsoleSession :=
  let now := around.clock 0
  let session := expireIfNeeded found now
  if session.status = .expired then
    (failure "session_expired" "SQL Console launch session is expired" session, session)
  else if session.status = .revoked then
    (failure "session_revoked" "SQL Console launch session is revoked" session, session)
  else if around.secretDigest launchSecret ≠ session.secretDigest then
    (failure "invalid_secret" "SQL Console launch secret is invalid" session, session)
  else if session.status = .redeemed then
    let touched := noteActivity policy session now
    (success "touched" "SQL Console launch session activity recorded" touched, touched)
  else (success "authorized" "SQL Console launch session authorized" session, session)

def redeemSession (launchSecret : Bytes) (found : SqlConsoleSession) :
    SqlConsoleOperationResult × SqlConsoleSession :=
  let now := around.clock 0
  let session := expireIfNeeded found now
  if session.status = .expired then
    (failure "session_expired" "SQL Console launch session is expired" session, session)
  else if session.status = .revoked then
    (failure "session_revoked" "SQL Console launch session is revoked" session, session)
  else if policy.singleUseRedemption = true ∧ session.status = .redeemed then
    (failure "session_already_redeemed" "SQL Console launch session was already redeemed" session, session)
  else if around.secretDigest launchSecret ≠ session.secretDigest then
    (failure "invalid_secret" "SQL Console launch secret is invalid" session, session)
  else
    let redeemed := noteActivity policy { session with status := .redeemed, redeemedAt := some now } now
    (success "redeemed" "SQL Console launch session redeemed" redeemed, redeemed)

def touchSession (launchSecret : Bytes) (found : SqlConsoleSession) :
    SqlConsoleOperationResult × SqlConsoleSession :=
  let now := around.clock 0
  let session := expireIfNeeded found now
  if session.status = .expired then
    (failure "session_expired" "SQL Console launch session is expired" session, session)
  else if session.status = .revoked then
    (failure "session_revoked" "SQL Console launch session is revoked" session, session)
  else if session.status ≠ .redeemed then
    (failure "session_not_redeemed" "SQL Console launch session is not redeemed" session, session)
  else if around.secretDigest launchSecret ≠ session.secretDigest then
    (failure "invalid_secret" "SQL Console launch secret is invalid" session, session)
  else
    let touched := noteActivity policy session now
    (success "touched" "SQL Console launch session activity recorded" touched, touched)

/-- Revoking reads the clock twice. -/
def revokeSession (found : SqlConsoleSession) : SqlConsoleOperationResult × SqlConsoleSession :=
  let session := expireIfNeeded found (around.clock 0)
  if session.status = .revoked then
    (failure "session_revoked" "SQL Console launch session is already revoked" session, session)
  else if session.status = .expired then
    (failure "session_expired" "SQL Console launch session is already expired" session, session)
  else
    let revoked := { session with status := .revoked, revokedAt := some (around.clock 1) }
    (success "revoked" "SQL Console launch session revoked" revoked, revoked)

def attachTemporaryDatabaseUserSession (databaseName userName password : Bytes) (found : SqlConsoleSession) :
    SqlConsoleOperationResult × SqlConsoleSession :=
  let session := expireIfNeeded found (around.clock 0)
  if session.status ≠ .created then
    (failure "session_not_attachable" "SQL Console launch session cannot accept database credentials" session,
      session)
  else if databaseName = [] ∨ userName = [] ∨ password = [] then
    (failure "temporary_user_invalid" "SQL Console temporary database credential is incomplete" session, session)
  else
    let attached := { session with
      databaseName := databaseName, temporaryUserName := userName, temporaryUserPassword := password }
    (success "temporary_user_attached" "SQL Console temporary database credential attached" attached, attached)

def clearTemporaryDatabaseUserSession (session : SqlConsoleSession) :
    SqlConsoleOperationResult × SqlConsoleSession :=
  let cleared := { session with databaseName := [], temporaryUserName := [], temporaryUserPassword := [] }
  (success "temporary_user_cleared" "SQL Console temporary database credential cleared" cleared, cleared)

end OnSession

/-! ## Operations of the manager -/

namespace SqlConsoleSessionManager

variable (manager : SqlConsoleSessionManager) (around : Surroundings)

/-- Find a session and leave in the table what the operation makes of it. -/
def onSession (launchId : Bytes)
    (operation : SqlConsoleSession → SqlConsoleOperationResult × SqlConsoleSession) :
    SqlConsoleOperationResult × SqlConsoleSessionManager :=
  match manager.sessions.lookup launchId with
  | none => (sessionNotFound, manager)
  | some session =>
      ((operation session).1, { manager with sessions := manager.sessions.insert launchId (operation session).2 })

def create (request : SqlConsoleCreateRequest) : SqlConsoleCreateResult × SqlConsoleSessionManager :=
  if requestValid request then
    match pickLaunchId manager.sessions around.hex16 8 0, around.hex32 with
    | some launchId, some launchSecret =>
        let digest := around.secretDigest launchSecret
        if digest = [] then
          ({ code := "secret_digest_failed", message := "SQL Console launch secret could not be protected" }, manager)
        else
          let session := newSession manager.policy request launchId digest (around.clock 0)
          ({ success := true, code := "created", message := "SQL Console launch session created",
             launchId := launchId, launchSecret := launchSecret,
             session := some (sqlConsolePublicSession session) },
            { manager with sessions := manager.sessions.insert launchId session })
    | _, _ =>
        ({ code := "secure_random_failed", message := "SQL Console launch secret could not be generated" }, manager)
  else ({ code := "invalid_request", message := "SQL Console launch request is incomplete" }, manager)

/-- The session that is found, after its expiry was looked at. -/
def find (launchId : Bytes) : Option SqlConsoleSession × SqlConsoleSessionManager :=
  match manager.sessions.lookup launchId with
  | none => (none, manager)
  | some session =>
      let seen := expireIfNeeded session (around.clock 0)
      (some seen, { manager with sessions := manager.sessions.insert launchId seen })

def authorize (launchId launchSecret : Bytes) : SqlConsoleOperationResult × SqlConsoleSessionManager :=
  manager.onSession launchId (authorizeSession manager.policy around launchSecret)

def redeem (launchId launchSecret : Bytes) : SqlConsoleOperationResult × SqlConsoleSessionManager :=
  manager.onSession launchId (redeemSession manager.policy around launchSecret)

def touch (launchId launchSecret : Bytes) : SqlConsoleOperationResult × SqlConsoleSessionManager :=
  manager.onSession launchId (touchSession manager.policy around launchSecret)

def revoke (launchId : Bytes) : SqlConsoleOperationResult × SqlConsoleSessionManager :=
  manager.onSession launchId (revokeSession around)

def attachTemporaryDatabaseUser (launchId databaseName userName password : Bytes) :
    SqlConsoleOperationResult × SqlConsoleSessionManager :=
  manager.onSession launchId (attachTemporaryDatabaseUserSession around databaseName userName password)

def clearTemporaryDatabaseUser (launchId : Bytes) : SqlConsoleOperationResult × SqlConsoleSessionManager :=
  manager.onSession launchId clearTemporaryDatabaseUserSession

/-- One reading of the clock for all sessions. -/
def sweepExpired : Nat × SqlConsoleSessionManager :=
  let now := around.clock 0
  (manager.sessions.values.countP (expired · now),
    { manager with sessions := manager.sessions.mapValues (expireIfNeeded · now) })

def listPublic (databaseId : UInt64) : List SqlConsolePublicSession × SqlConsoleSessionManager :=
  let swept := (manager.sweepExpired around).2
  ((swept.sessions.values.filter fun session => databaseId = 0 || session.databaseId = databaseId).map
    sqlConsolePublicSession, swept)

def listInternal : List SqlConsoleSession := manager.sessions.values

end SqlConsoleSessionManager

end ContainerCP.SqlConsole
