import ContainerCP.Access.SftpEndpoints

/-! The endpoints of the grants, and which handler a request gets. -/
namespace ContainerCP.SftpApi

open Api (Request Response jsonExtract Endpoint Route apiRouter)
open LocalSftp (permissionText)

section Handlers

variable {Host : Type} (env : Env Host) (request : Request)

/-! ## Reading -/

/-- The keys of a user, or the one that the path behind `/keys` names. -/
def showKeys (memory : Memory) (user : UInt64) (behind : Bytes) : Response :=
  if 1 < behind.length then
    match parseUid (behind.drop 1) with
    | none => keyNotFound
    | some id =>
        match findKey memory.keys id with
        | none => keyNotFound
        | some key => if key.accessUserId ≠ user then keyNotFound else success (storedKeyJson key)
  else success (jsonArray ((memory.keys.listByUser user).map storedKeyJson))

/-- The grants of a user, or the one that the path behind `/grants` names. -/
def showGrants (sites : List Site) (memory : Memory) (user : UInt64) (behind : Bytes) : Response :=
  if 1 < behind.length then
    match parseUid (behind.drop 1) with
    | none => grantNotFound
    | some site =>
        match findGrant memory user site with
        | none => grantNotFound
        | some grant => success (grantJson sites grant)
  else success (jsonArray ((memory.grants.findByUser user).map (grantJson sites)))

/-- `GET /api/access/sftp/users/<id>`, which serves the keys and the grants as well. What
it takes for the path behind `/grants` still has the last letter of that word. -/
def getUser : Api Host Response := do
  let services ← get
  let memory := services.memory
  let rest := restOf request
  let known (segment : Bytes) := (parseUid segment).bind memory.users.find
  match cutAtText (bytes "/keys") rest, cutAtText (bytes "/grants") rest with
  | some (before, _), _ =>
      match known before with
      | none => return userNotFound
      | some user => return showKeys memory user.id (rest.drop (before.length + 5))
  | none, some (before, _) =>
      match known before with
      | none => return userNotFound
      | some user => return showGrants env.sites memory user.id (rest.drop (before.length + 6))
  | none, none =>
      match known rest with
      | none => return userNotFound
      | some user => return success (userJson memory (env.provider.accounts services.host) user)

/-- The user that a path names in front of a word, and what is behind the word. -/
def userBefore (memory : Memory) (segment : String) (missing : Response) : Except Response (UInt64 × Bytes) :=
  match cutAtText (bytes segment) request.path with
  | none => .error missing
  | some (before, behind) =>
      if before.length ≤ 22 then .error userNotFound
      else
        match (parseUid (before.drop 23)).bind memory.users.find with
        | none => .error userNotFound
        | some user => .ok (user.id, behind)

/-- `GET /api/access/sftp/users/<uid>/keys`. -/
def getKeys : Api Host Response := do
  let memory := (← get).memory
  match userBefore request memory "/keys" userNotFound with
  | .error response => return response
  | .ok (user, behind) => return showKeys memory user behind

/-- `GET /api/access/sftp/users/<uid>/grants`. -/
def getGrants : Api Host Response := do
  let memory := (← get).memory
  match userBefore request memory "/grants" grantNotFound with
  | .error response => return response
  | .ok (user, behind) => return showGrants env.sites memory user behind

/-! ## Writing -/

def applyGrant (user site : UInt64) (permission : Bytes) : Api Host LocalSftp.OperationResult :=
  ask fun memory => env.provider.applyGrant memory user site permission

def revokeGrant (grant : AccessGrant) : Api Host LocalSftp.OperationResult :=
  ask fun memory =>
    env.provider.revokeGrant memory grant.accessUserId grant.siteId (permissionText grant.permission)

/-- The site of a path that asks to try a grant again. -/
def retriedSite (behind : Bytes) : Option UInt64 :=
  let segment := behind.drop 1
  if 6 < segment.length && segment.drop (segment.length - 6) = bytes "/retry" then
    parseUid (segment.take (segment.length - 6))
  else none

/-- `POST …/grants/<sid>/retry`. -/
def retryGrant (user : UInt64) (behind : Bytes) : Api Host Response := do
  let memory := (← get).memory
  match (retriedSite behind).bind (findGrant memory user) with
  | none => return grantNotFound
  | some grant =>
      match ← applyGrant env user grant.siteId (permissionText grant.permission) with
      | .error message => return failure 500 "sftp_grant_apply_failed" message
      | .ok _ => return success (bytes "\x7b\"message\":\"grant retry completed\"\x7d")

def invalidPermission : Response := failure 422 "sftp_grant_invalid" (bytes "permission must be ro or rw")

def removeGrant (id : UInt64) : Api Host Unit :=
  alter fun memory => { memory with grants := memory.grants.remove id }

def createGrant (user site : UInt64) (permission : Bytes) : Api Host Unit :=
  alter fun memory =>
    { memory with grants := (memory.grants.create user site (permissionFromString permission)).2 }

/-- `POST …/grants`. -/
def postGrant (user : UInt64) : Api Host Response := do
  let memory := (← get).memory
  let id := memory.grants.nextId
  match requestedPermission request.body with
  | none => return invalidPermission
  | some permission =>
      match requestedSite request.body with
      | none => return failure 422 "sftp_grant_invalid" (bytes "siteId required")
      | some site =>
          if !env.sites.any fun known => known.id = site then return failure 404 "sftp_site_not_found" []
          else if (findGrant memory user site).isSome then return failure 409 "sftp_grant_conflict" []
          else
            createGrant user site permission
            if id = 0 then return failure 500 "sftp_backend_failure" (bytes "grant create failed")
            else
              match ← applyGrant env user site permission with
              | .error message =>
                  removeGrant id
                  return failure 500 "sftp_grant_apply_failed" message
              | .ok _ =>
                  save env
                  return success (permissionJson user site permission)

/-- `POST /api/access/sftp/users/<uid>/keys` and `…/grants`, with what may follow. -/
def postKeysGrants : Api Host Response := do
  let memory := (← get).memory
  if !env.available then return unavailable
  else if (cutAtText (bytes "/keys") request.path).isSome then
    match userBefore request memory "/keys" userNotFound with
    | .error response => return response
    | .ok (user, behind) =>
        if behind = bytes "/rebuild" then rebuildKeys env user
        else if behind = bytes "/gen" then generateKey env request user
        else if behind ≠ [] then return keyNotFound
        else importKey env request user
  else
    match userBefore request memory "/grants" userNotFound with
    | .error response => return response
    | .ok (user, behind) => if behind ≠ [] then retryGrant env user behind else postGrant env request user

/-- The grant that a path names, of the user that it names. -/
def namedGrant (memory : Memory) : Except Response AccessGrant :=
  match cutAtText (bytes "/grants/") request.path with
  | none => .error grantNotFound
  | some (before, after) =>
      if before.length ≤ 22 then .error userNotFound
      else
        match parseUid (before.drop 23), parseUid after with
        | some user, some site =>
            match findGrant memory user site with
            | none => .error grantNotFound
            | some grant => .ok grant
        | _, _ => .error grantNotFound

/-- `PATCH /api/access/sftp/users/<uid>/grants/<site_id>`. -/
def patchGrant : Api Host Response := do
  let memory := (← get).memory
  if !env.available then return unavailable
  else
    match namedGrant request memory with
    | .error response => return response
    | .ok grant =>
        match requestedPermission request.body with
        | none => return invalidPermission
        | some permission =>
            match ← revokeGrant env grant with
            | .error message => return failure 500 "sftp_grant_revoke_failed" message
            | .ok _ =>
                let id := (← get).memory.grants.nextId
                removeGrant grant.id
                createGrant grant.accessUserId grant.siteId permission
                if id = 0 then return failure 500 "sftp_backend_failure" (bytes "grant create failed")
                else
                  match ← applyGrant env grant.accessUserId grant.siteId permission with
                  | .error message =>
                      removeGrant id
                      createGrant grant.accessUserId grant.siteId (permissionText grant.permission)
                      return failure 500 "sftp_grant_apply_failed" message
                  | .ok _ => return success (permissionJson grant.accessUserId grant.siteId permission)

/-- `DELETE /api/access/sftp/users/<uid>/grants/<site_id>`. -/
def deleteGrant : Api Host Response := do
  let memory := (← get).memory
  if !env.available then return unavailable
  else
    match namedGrant request memory with
    | .error response => return response
    | .ok grant =>
        match ← revokeGrant env grant with
        | .error message => return failure 500 "sftp_grant_revoke_failed" message
        | .ok _ =>
            removeGrant grant.id
            return success (pairJson grant.accessUserId grant.siteId ++ bytes "\x7d")

/-! ## Which handler a request gets -/

/-- The handlers of the SFTP administration. The ones of a single key, registered a
second time, are those that the endpoints of a user call. -/
def handler : Endpoint → Option (Api Host Response)
  | .sftpUsersGet => some (getUsers env)
  | .sftpUserGet => some (getUser env request)
  | .sftpUsersPost => some (postUser env request)
  | .sftpUserPatch => some (patchUser env request)
  | .sftpUserDelete => some (deleteUser env request)
  | .sftpKeysGrantsPost => some (postKeysGrants env request)
  | .sftpKeysGet => some (getKeys request)
  | .sftpKeyPatch => some (patchSftpKey env request)
  | .sftpKeyDelete => some (deleteSftpKey env request)
  | .sftpGrantsGet => some (getGrants env request)
  | .sftpGrantPatch => some (patchGrant env request)
  | .sftpGrantDelete => some (deleteGrant env request)
  | _ => none

/-- The endpoint that a request is dispatched to. -/
def endpointOf (method path : Bytes) : Option Endpoint := (apiRouter.select method path).map Route.handler

/-- What serves a request, if it is one of the SFTP administration. -/
def serve : Option (Api Host Response) := (endpointOf request.method request.path).bind (handler env request)

end Handlers

end ContainerCP.SftpApi
