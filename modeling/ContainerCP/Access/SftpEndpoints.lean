import ContainerCP.Access.SftpServices
import ContainerCP.Api.JsonFormatter
import ContainerCP.Api.JsonText
import ContainerCP.Api.Routes
import ContainerCP.Control.Procedure
import Mathlib.Algebra.Group.Int.Defs

/-! The endpoints of the SFTP administration. Each handler splits the path of its request
by hand. -/
namespace ContainerCP.SftpApi

open Api (Request Response jsonExtract jsonHasKey escape Endpoint)
open LocalSftp (Permission OperationResult permissionText)
open Access (AccessKey AccessKeyManager SftpError SftpKeyOperationResult SshKeyValidation)

/-! ## Answers -/

/-- `api_error`. -/
def apiError (code : String) (details : Bytes) : Bytes :=
  bytes "\x7b\"success\":false,\"error\":\"" ++ bytes code ++ bytes "\",\"details\":\"" ++ escape details ++
    bytes "\"\x7d"

/-- `api_success`. -/
def apiSuccess (data : Bytes) : Bytes := bytes "\x7b\"success\":true,\"data\":" ++ data ++ bytes "\x7d"

def failure (status : Nat) (code : String) (details : Bytes) : Response :=
  { statusCode := status, body := apiError code details }

def success (data : Bytes) : Response := { body := apiSuccess data }

def userNotFound : Response := failure 404 "sftp_user_not_found" []

def keyNotFound : Response := failure 404 "sftp_key_not_found" []

def grantNotFound : Response := failure 404 "sftp_grant_not_found" []

/-- The answer of `check_provider`. -/
def unavailable : Response := failure 503 "sftp_backend_unavailable" (bytes "SFTP provider not available")

def boolText (value : Bool) : Bytes := if value then bytes "true" else bytes "false"

/-- The elements of an array, which commas part. -/
def jsonArray (elements : List Bytes) : Bytes := bytes "[" ++ (bytes ",").intercalate elements ++ bytes "]"

def idJson (id : UInt64) : Bytes := bytes "\x7b\"id\":" ++ decimal id.toNat

def enabledJson (id : UInt64) (enabled : Bool) : Bytes :=
  idJson id ++ bytes ",\"enabled\":" ++ boolText enabled ++ bytes "\x7d"

/-- What the answers about a key begin with. -/
def keyJson (id : UInt64) (keyType fingerprint comment : Bytes) (enabled : Bool) : Bytes :=
  idJson id ++ bytes ",\"keyType\":\"" ++ escape keyType ++
    bytes "\",\"fingerprint\":\"" ++ escape fingerprint ++ bytes "\",\"comment\":\"" ++ escape comment ++
    bytes "\",\"enabled\":" ++ boolText enabled

def storedKeyJson (key : AccessKey) : Bytes :=
  keyJson key.id key.keyType key.fingerprint key.keyComment key.enabled ++ bytes "\x7d"

def pairJson (user site : UInt64) : Bytes :=
  bytes "\x7b\"userId\":" ++ decimal user.toNat ++ bytes ",\"siteId\":" ++ decimal site.toNat

def permissionJson (user site : UInt64) (permission : Bytes) : Bytes :=
  pairJson user site ++ bytes ",\"permission\":\"" ++ escape permission ++ bytes "\"\x7d"

def grantJson (sites : List Site) (grant : AccessGrant) : Bytes :=
  let domain := ((sites.find? fun site => site.id = grant.siteId).map Site.domain).getD []
  pairJson grant.accessUserId grant.siteId ++ bytes ",\"domain\":\"" ++ escape domain ++
    bytes "\",\"permission\":\"" ++ escape (permissionText grant.permission) ++ bytes "\"\x7d"

/-- A user with the account, the keys and the grants that belong to it. -/
def userJson (memory : Memory) (accounts : List AccountView) (user : AccessUser) : Bytes :=
  let account : AccountView :=
    (accounts.find? fun account => account.user = user.id).getD ⟨user.id, [], bytes "none", [], []⟩
  idJson user.id ++ bytes ",\"username\":\"" ++ escape user.username ++
    bytes "\",\"linuxUsername\":\"" ++ escape account.username ++
    bytes "\",\"lifecycleState\":\"" ++ escape account.state ++ bytes "\",\"home\":\"" ++ escape account.home ++
    bytes "\",\"enabled\":" ++ boolText user.enabled ++
    bytes ",\"keyCount\":" ++ decimal (memory.keys.listByUser user.id).length ++
    bytes ",\"grantCount\":" ++ decimal (memory.grants.findByUser user.id).length ++
    bytes ",\"lastError\":\"" ++ escape account.lastError ++ bytes "\"\x7d"

/-! ## Paths and bodies -/

/-- `parse_uid`. A number that is too large counts as the largest one. -/
def parseUid (segment : Bytes) : Option UInt64 :=
  if segment = [] then none
  else
    match scanNumeral segment with
    | none => none
    | some numeral =>
        let value := if numeral.magnitude < 2 ^ 64 then numeral.toUInt64 else UInt64.ofNat (2 ^ 64 - 1)
        if numeral.rest ≠ [] || value = 0 then none else some value

def usersPath : Bytes := bytes "/api/access/sftp/users/"

/-- The path behind `/api/access/sftp/users/`. -/
def restOf (request : Request) : Bytes := request.path.drop 23

/-- `find_grant`. -/
def findGrant (memory : Memory) (user site : UInt64) : Option AccessGrant :=
  (memory.grants.findByUser user).find? fun grant => grant.siteId = site

/-- `permission_from_string`. -/
def permissionFromString (text : Bytes) : Permission :=
  if text = bytes "read_write" then .readWrite else if text = bytes "deploy" then .deploy else .readOnly

/-- The permission of a body, with its short names written out, if it is one. -/
def requestedPermission (body : Bytes) : Option Bytes :=
  let text := jsonExtract body (bytes "permission")
  let long :=
    if text = bytes "ro" then bytes "read_only" else if text = bytes "rw" then bytes "read_write" else text
  if long = bytes "read_only" || long = bytes "read_write" || long = bytes "deploy" then some long else none

/-- `strtol` with base 10, which stops at the ends of its range. -/
def strtol (text : Bytes) : Option Int :=
  (scanNumeral text).map fun numeral => max (-(2 ^ 63)) (min (2 ^ 63 - 1) numeral.value)

/-- The site of a body: a positive `int`, to which a longer number is cut. -/
def requestedSite (body : Bytes) : Option UInt64 :=
  match cutAtText (bytes "\"siteId\":") body with
  | none => none
  | some (_, behind) =>
      match strtol (behind.dropWhile isSpace) with
      | none => none
      | some value =>
          if 0 < value && 0 < (Int32.ofInt value).toInt then some (UInt64.ofNat (Int32.ofInt value).toInt.toNat)
          else none

structure SftpGenerateKeyRequest where
  type : Bytes
  comment : Bytes
  enabled : Bool
  deriving DecidableEq

def isControl (c : UInt8) : Bool := c < 32 || c = 127

/-- `parse_generate_key_body`. -/
def parseGenerateKeyBody (body : Bytes) : Except SftpError SftpGenerateKeyRequest :=
  let type := Access.extractString body "type"
  let comment := Access.extractString body "comment"
  if 65536 < body.length then .error ⟨"sftp_json_invalid", bytes "body too large"⟩
  else if body.head? ≠ some (ascii '\x7b') then .error ⟨"sftp_json_invalid", bytes "not valid JSON"⟩
  else if type = [] then .error ⟨"sftp_key_invalid", bytes "type required"⟩
  else if type ≠ bytes "ed25519" && type ≠ bytes "rsa" then
    .error ⟨"sftp_key_invalid", bytes "unsupported key type: " ++ type⟩
  else if 256 < comment.length then .error ⟨"sftp_key_invalid", bytes "key comment too long (max 256 chars)"⟩
  else if comment.any isControl then .error ⟨"sftp_key_invalid", bytes "control characters in comment"⟩
  else
    match Access.extractBool body "enabled" with
    | none => .error ⟨"sftp_json_invalid", bytes "enabled must be boolean"⟩
    | some (enabled, _) =>
        if (cutAtText (bytes "\"publicKey\":") body).isSome || (cutAtText (bytes "\"public_key\":") body).isSome then
          .error ⟨"sftp_json_invalid", bytes "unknown field: publicKey"⟩
        else .ok ⟨type, comment, enabled⟩

section Handlers

variable {Host : Type} (env : Env Host) (request : Request)

def writeKeys (user : UInt64) : Api Host OperationResult :=
  ask fun memory => env.provider.writeAuthorizedKeys memory user

/-! ## Keys -/

/-- The key that a path names, of the user that it names. -/
def namedKey (memory : Memory) : Except Response (UInt64 × AccessKey) :=
  match cutAtText (bytes "/keys/") request.path with
  | none => .error keyNotFound
  | some (before, after) =>
      if before.length ≤ 22 then .error userNotFound
      else
        match parseUid (before.drop 23), parseUid after with
        | some user, some id =>
            match findKey memory.keys id with
            | none => .error keyNotFound
            | some key => if key.accessUserId ≠ user then .error keyNotFound else .ok (user, key)
        | _, _ => .error keyNotFound

/-- `patch_sftp_key`. -/
def patchSftpKey : Api Host Response := do
  let memory := (← get).memory
  if !env.available then return unavailable
  else
    match namedKey request memory with
    | .error response => return response
    | .ok (user, key) =>
        let enabled : Bool :=
          if jsonHasKey request.body (bytes "enabled") then jsonExtract request.body (bytes "enabled") ≠ bytes "false" else key.enabled
        Control.when (enabled ≠ key.enabled)
          (alter fun memory => { memory with keys := setKeyEnabled memory.keys key.id enabled })
        saveKeys env .keys
        match ← writeKeys env user with
        | .error message =>
            Control.when (enabled ≠ key.enabled)
              (alter fun memory => { memory with keys := setKeyEnabled memory.keys key.id key.enabled })
            saveKeys env .keysBack
            return failure 500 "sftp_key_sync_failed" message
        | .ok _ => return success (enabledJson key.id enabled)

/-- `delete_sftp_key`. -/
def deleteSftpKey : Api Host Response := do
  let memory := (← get).memory
  if !env.available then return unavailable
  else
    match namedKey request memory with
    | .error response => return response
    | .ok (user, key) =>
        alter fun memory => { memory with keys := removeKey memory.keys key.id }
        saveKeys env .keys
        match ← writeKeys env user with
        | .error message =>
            alter fun memory => { memory with keys := (memory.keys.create key).2 }
            saveKeys env .keysBack
            return failure 500 "sftp_key_sync_failed" message
        | .ok _ => return success (idJson key.id ++ bytes "\x7d")

/-- A save whose exception is caught. -/
def trySaveKeys (call : SaveCall) : Api Host Bool := fun services =>
  match saveKeys env call services with
  | .ok _ services' => .ok true services'
  | .error _ services' => .ok false services'

/-- The `rollback` of `add_validated_key`. -/
def rollbackKeys (previous : List AccessKey) : Api Host Unit := do
  alter fun memory => { memory with keys := AccessKeyManager.setKeys previous }
  let _ ← trySaveKeys env .keysBack

/-- `SftpKeyService::add_validated_key`. -/
def addValidatedKey (user : UInt64) (validation : SshKeyValidation) (comment : Bytes) (enabled : Bool)
    (publicKey : Bytes) : Api Host (Except SftpError SftpKeyOperationResult) := do
  let keys := (← get).memory.keys
  if keys.keys.any fun existing =>
      existing.accessUserId = user && existing.fingerprint = validation.fingerprint then
    return .error ⟨"sftp_key_duplicate", []⟩
  else
    let key := Access.keyOf user validation comment enabled
    let created := keys.create key
    alter fun memory => { memory with keys := created.2 }
    if created.1 = 0 then return .error ⟨"sftp_backend_failure", bytes "key create failed"⟩
    else if !(← trySaveKeys env .keys) then
      rollbackKeys env keys.keys
      return .error ⟨"sftp_backend_failure", bytes "key persistence failed"⟩
    else
      match ← writeKeys env user with
      | .error message =>
          rollbackKeys env keys.keys
          return .error ⟨"sftp_key_sync_failed", message⟩
      | .ok _ => return .ok ⟨created.1, key.keyType, key.fingerprint, key.keyComment, key.enabled, publicKey⟩

/-- The status of a failed key operation. -/
def keyFailure (error : SftpError) : Response :=
  failure (if error.code = "sftp_key_duplicate" then 409 else if error.code = "sftp_key_invalid" then 422 else 500)
    error.code error.details

/-- `POST …/keys/gen`. -/
def generateKey (user : UInt64) : Api Host Response := do
  match parseGenerateKeyBody request.body with
  | .error error => return failure 422 error.code error.details
  | .ok parsed =>
      match env.generate parsed.type parsed.comment with
      | .error error => return keyFailure ⟨"sftp_key_invalid", error⟩
      | .ok (publicKey, privateKey) =>
          match Access.validate env.sha256 publicKey with
          | .error error => return keyFailure ⟨"sftp_key_invalid", error⟩
          | .ok validation =>
              match ← addValidatedKey env user validation parsed.comment parsed.enabled publicKey with
              | .error error => return keyFailure error
              | .ok result =>
                  return success (keyJson result.id result.keyType result.fingerprint result.comment result.enabled ++
                    bytes ",\"publicKey\":\"" ++ escape publicKey ++
                    bytes "\",\"privateKey\":\"" ++ escape privateKey ++ bytes "\"\x7d")

/-- `POST …/keys`. -/
def importKey (user : UInt64) : Api Host Response := do
  match Access.parseCreateKeyBody request.body with
  | .error error => return failure 422 error.code error.details
  | .ok parsed =>
      match Access.validate env.sha256 parsed.publicKey with
      | .error error => return keyFailure ⟨"sftp_key_invalid", error⟩
      | .ok validation =>
          match ← addValidatedKey env user validation parsed.comment parsed.enabled parsed.publicKey with
          | .error error => return keyFailure error
          | .ok result =>
              return success
                (keyJson result.id result.keyType result.fingerprint result.comment result.enabled ++ bytes "\x7d")

/-- `POST …/keys/rebuild`. -/
def rebuildKeys (user : UInt64) : Api Host Response := do
  match ← writeKeys env user with
  | .error message => return failure 500 "sftp_key_sync_failed" message
  | .ok _ => return success (bytes "\x7b\"message\":\"authorized_keys rebuilt\"\x7d")

/-! ## Users -/

/-- `GET /api/access/sftp/users`. -/
def getUsers : Api Host Response := do
  let services ← get
  let accounts := env.provider.accounts services.host
  return success (jsonArray (services.memory.users.users.map (userJson services.memory accounts)))

/-- `POST /api/access/sftp/users`. -/
def postUser : Api Host Response := do
  let memory := (← get).memory
  let username := jsonExtract request.body (bytes "username")
  let enabled : Bool := jsonExtract request.body (bytes "enabled") ≠ bytes "false"
  let id := memory.users.nextId
  if !env.available then return unavailable
  else if username = [] || 64 < username.length then
    return failure 422 "sftp_user_invalid" (bytes "username required (max 64 chars)")
  else if (memory.users.findName username).isSome then return failure 409 "sftp_user_duplicate" []
  else
    alter fun memory => { memory with users := (memory.users.create username).2 }
    if id = 0 then return failure 500 "sftp_backend_failure" (bytes "user create failed")
    else
      alter fun memory => { memory with users := memory.users.setEnabled id enabled }
      let created := idJson id ++ bytes ",\"username\":\"" ++ escape username ++
        bytes "\",\"enabled\":" ++ boolText enabled ++ bytes "\x7d"
      if !enabled then
        save env
        return success created
      else
        match ← ask fun memory => env.provider.createUser memory { id, username } with
        | .error message =>
            if env.provider.hasMapping id (← get).host then
              alter fun memory => { memory with users := memory.users.setEnabled id false }
            else alter fun memory => { memory with users := memory.users.remove id }
            save env
            return failure 500 "sftp_user_provision_failed" message
        | .ok _ =>
            if (← get).memory.keys.keys.any fun key => key.accessUserId = id && key.enabled then
              match ← writeKeys env id with
              | .error message =>
                  save env
                  return failure 500 "sftp_key_sync_failed" message
              | .ok _ =>
                  save env
                  return success created
            else
              save env
              return success created

/-- `PATCH /api/access/sftp/users/<id>`, which serves the keys as well. -/
def patchUser : Api Host Response := do
  let memory := (← get).memory
  let rest := restOf request
  if !env.available then return unavailable
  else if (cutAtText (bytes "/keys/") rest).isSome then patchSftpKey env request
  else if rest.contains (ascii '/') then return userNotFound
  else
    match (parseUid rest).bind memory.users.find with
    | none => return userNotFound
    | some user =>
        let enabled : Bool := jsonExtract request.body (bytes "enabled") ≠ bytes "false"
        if !jsonHasKey request.body (bytes "enabled") then
          return failure 422 "sftp_user_invalid" (bytes "enabled field required")
        else if enabled = user.enabled then
          save env
          return success (enabledJson user.id user.enabled)
        else if enabled then
          match ← ask fun memory => env.provider.createUser memory { id := user.id, username := user.username } with
          | .error message =>
              alter fun memory => { memory with users := memory.users.setEnabled user.id false }
              save env
              return failure 500 "sftp_user_provision_failed" message
          | .ok _ =>
              alter fun memory => { memory with users := memory.users.setEnabled user.id true }
              save env
              return success (enabledJson user.id true)
        else
          match ← ask fun memory =>
              env.provider.disableUser memory { id := user.id, username := user.username, enabled := false } with
          | .error message => return failure 500 "sftp_backend_failure" message
          | .ok _ =>
              alter fun memory => { memory with users := memory.users.setEnabled user.id false }
              save env
              return success (enabledJson user.id false)

/-- `DELETE /api/access/sftp/users/<id>`, which serves the keys as well. -/
def deleteUser : Api Host Response := do
  let memory := (← get).memory
  let rest := restOf request
  if !env.available then return unavailable
  else if (cutAtText (bytes "/keys/") rest).isSome then deleteSftpKey env request
  else if rest.contains (ascii '/') then return userNotFound
  else
    match (parseUid rest).bind memory.users.find with
    | none => return userNotFound
    | some user =>
        match ← ask fun memory => env.provider.removeUser memory user.id with
        | .error message => return failure 500 "sftp_backend_failure" message
        | .ok _ =>
            alter fun memory => { memory with users := memory.users.remove user.id }
            return success (idJson user.id ++ bytes "\x7d")

end Handlers

end ContainerCP.SftpApi
