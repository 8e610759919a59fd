import ContainerCP.Access.GrantEndpoints

/-! Which handler the requests for a grant get, and what it makes of their path. -/
namespace ContainerCP.SftpApi

open Api (Request Response Endpoint Route Router apiRouter exact under)

/-- The path of a grant. -/
def grantPath (user site : UInt64) : Bytes :=
  usersPath ++ (decimal user.toNat ++ (bytes "/grants/" ++ decimal site.toNat))

/-- The registrations whose resources go to a handler that was registered with the same
pattern before. -/
def shadowed : List Endpoint :=
  [.databaseGet, .mailDomainPatchTransactional, .sftpKeysGet, .sftpKeyPatch, .sftpKeyDelete, .sftpGrantsGet,
    .sftpGrantPatch, .sftpGrantDelete]

/-- A registration gets every request for a resource of its pattern. -/
def Serves (route : Route Endpoint) : Prop :=
  ∀ method path, route.Resource apiRouter method path → apiRouter.select method path = some route

/-! ## The paths -/

theorem usersPath_startsWith (user site : UInt64) : usersPath <+: grantPath user site := List.prefix_append _ _

theorem drop_grantPath (user site : UInt64) :
    (grantPath user site).drop 23 = decimal user.toNat ++ (bytes "/grants/" ++ decimal site.toNat) :=
  List.drop_left' (by decide)

theorem slash_notMem_decimal (n : Nat) : ascii '/' ∉ decimal n := not_mem_decimal (by decide)

theorem cut_keys (user site : UInt64) :
    cutAtText (bytes "/keys") (decimal user.toNat ++ (bytes "/grants/" ++ decimal site.toNat)) = none := by
  apply cutAtText_eq_none (c := ascii 'k') (by decide)
  have hDigits : ∀ n : Nat, ascii 'k' ∉ decimal n := fun n => not_mem_decimal (by decide)
  have hWord : ascii 'k' ∉ bytes "/grants/" := by decide
  simp [hDigits, hWord]

theorem cut_grants (user site : UInt64) :
    cutAtText (bytes "/grants") (decimal user.toNat ++ (bytes "/grants/" ++ decimal site.toNat)) =
      some (decimal user.toNat, ascii '/' :: decimal site.toNat) := by
  have hWord : bytes "/grants" = ascii '/' :: bytes "grants" := by decide
  have hText : bytes "/grants/" ++ decimal site.toNat = bytes "/grants" ++ (ascii '/' :: decimal site.toNat) := by
    rw [show bytes "/grants/" = bytes "/grants" ++ [ascii '/'] by decide, List.append_assoc]
    rfl
  rw [hText, hWord, cutAtText_append (slash_notMem_decimal _), ← hWord, cutAtText_self (by decide)]
  simp

theorem parseUid_slash (rest : Bytes) : parseUid (ascii '/' :: rest) = none := by
  rw [parseUid, if_neg (List.cons_ne_nil _ _),
    scanNumeral_eq_none (by decide) (by decide) (by decide) (by decide)]

/-! ## The dispatch -/

/-- A route with its texts as characters. -/
def routeOfChars (entry : List Char × List Char × Endpoint × Bool) : Route Endpoint :=
  ⟨entry.1.map ascii, entry.2.1.map ascii, entry.2.2.1, entry.2.2.2⟩

section Table

variable {rest : Router Endpoint} {table : List (List Char × List Char × Endpoint × Bool)}

theorem exact_cons (method path : List Char) (handler : Endpoint) (hRest : rest = table.map routeOfChars) :
    exact (String.ofList method) (String.ofList path) handler :: rest =
      ((method, path, handler, false) :: table).map routeOfChars := by
  rw [exact, bytes_ofList, bytes_ofList, hRest]
  rfl

theorem under_cons (method path : List Char) (handler : Endpoint) (hRest : rest = table.map routeOfChars) :
    under (String.ofList method) (String.ofList path) handler :: rest =
      ((method, path, handler, true) :: table).map routeOfChars := by
  rw [under, bytes_ofList, bytes_ofList, hRest]
  rfl

end Table

/-- The prefixes of the table are the paths that end in a slash, no pattern is about a part
of the users, and the shadowed routes are those whose pattern was registered before. The
table is checked with its texts taken apart. -/
theorem apiRouter_checked :
    ∃ table : List (List Char × List Char × Endpoint × Bool), apiRouter = table.map routeOfChars ∧
      (∀ route ∈ table.map routeOfChars, route.isPrefix = decide (route.path.getLast? = some (ascii '/')) ∧
        (usersPath.isPrefixOf route.path = true → route.path = usersPath)) ∧
      ∀ route ∈ table.map routeOfChars,
        (table.map routeOfChars).find? (fun other => decide (other.pattern = route.pattern)) = some route ↔
          route.handler ∉ shadowed := by
  apply Exists.intro
  apply And.intro
  · delta apiRouter
    dsimp only
    repeat first
      | exact List.map_nil.symm
      | apply exact_cons
      | apply under_cons
  · decide +kernel

theorem apiRouter_paths {route : Route Endpoint} (h : route ∈ apiRouter) :
    route.isPrefix = decide (route.path.getLast? = some (ascii '/')) ∧
      (usersPath.isPrefixOf route.path = true → route.path = usersPath) := by
  obtain ⟨table, hTable, hPaths, -⟩ := apiRouter_checked
  exact hPaths route (hTable ▸ h)

theorem apiRouter_first {route : Route Endpoint} (h : route ∈ apiRouter) :
    apiRouter.find? (fun other => decide (other.pattern = route.pattern)) = some route ↔ route.handler ∉ shadowed := by
  obtain ⟨table, hTable, -, hFirst⟩ := apiRouter_checked
  rw [hTable]
  exact hFirst route (hTable ▸ h)

/-- A path under the users is a resource of every pattern registered for it. -/
theorem resource_users {route : Route Endpoint} (hPath : route.path = usersPath) (hPrefix : route.isPrefix = true)
    {path : Bytes} (h : usersPath <+: path) : route.Resource apiRouter route.method path := by
  refine ⟨⟨rfl, by rwa [if_pos hPrefix, hPath]⟩, ?_⟩
  intro other hOther hMatch hRank
  obtain ⟨-, hCovered⟩ := hMatch
  cases hPrefix' : other.isPrefix with
  | false =>
      simp only [hPrefix', Bool.false_eq_true, if_false] at hCovered
      obtain ⟨hSlash, hUsers⟩ := apiRouter_paths hOther
      rw [hPrefix', hUsers (List.isPrefixOf_iff_prefix.mpr (hCovered ▸ h))] at hSlash
      exact absurd hSlash (by decide)
  | true =>
      simp only [hPrefix', if_true] at hCovered
      have hLength : usersPath.length < other.path.length := hPath ▸ hRank.2 hPrefix'
      have hFront := List.prefix_of_prefix_length_le h hCovered hLength.le
      rw [(apiRouter_paths hOther).2 (List.isPrefixOf_iff_prefix.mpr hFront)] at hLength
      exact Nat.lt_irrefl _ hLength

/-- A request for a path under the users gets the handler that was registered first. -/
theorem endpointOf_users (route : Route Endpoint) (hMem : route ∈ apiRouter) (hPath : route.path = usersPath)
    (hPrefix : route.isPrefix = true) (hFirst : route.handler ∉ shadowed) {path : Bytes} (h : usersPath <+: path) :
    endpointOf route.method path = some route.handler := by
  rw [endpointOf, Router.select_of_resource hMem (resource_users hPath hPrefix h), (apiRouter_first hMem).mpr hFirst]
  rfl

theorem mem_of_handler (handler : Endpoint) {route : Route Endpoint}
    (h : apiRouter.find? (fun other => decide (other.handler = handler)) = some route) : route ∈ apiRouter :=
  List.mem_of_find?_eq_some h

theorem endpointOf_get {path : Bytes} (h : usersPath <+: path) :
    endpointOf (bytes "GET") path = some .sftpUserGet :=
  endpointOf_users (under "GET" "/api/access/sftp/users/" .sftpUserGet) (mem_of_handler .sftpUserGet rfl) rfl rfl (by decide) h

theorem endpointOf_patch {path : Bytes} (h : usersPath <+: path) :
    endpointOf (bytes "PATCH") path = some .sftpUserPatch :=
  endpointOf_users (under "PATCH" "/api/access/sftp/users/" .sftpUserPatch) (mem_of_handler .sftpUserPatch rfl) rfl rfl (by decide) h

theorem endpointOf_delete {path : Bytes} (h : usersPath <+: path) :
    endpointOf (bytes "DELETE") path = some .sftpUserDelete :=
  endpointOf_users (under "DELETE" "/api/access/sftp/users/" .sftpUserDelete) (mem_of_handler .sftpUserDelete rfl) rfl rfl (by decide) h

/-! ## What becomes of the requests -/

section Requests

variable {Host : Type} (env : Env Host) {request : Request} {user site : UInt64}

theorem restOf_grantPath (h : request.path = grantPath user site) :
    restOf request = decimal user.toNat ++ (bytes "/grants/" ++ decimal site.toNat) := by
  rw [restOf, h, drop_grantPath]

theorem contains_slash (h : request.path = grantPath user site) : (restOf request).contains (ascii '/') = true := by
  have hWord : ascii '/' ∈ bytes "/grants/" := by decide
  rw [restOf_grantPath h, List.contains_iff_mem]
  exact List.mem_append_right _ (List.mem_append_left _ hWord)

theorem cut_keysSlash (h : request.path = grantPath user site) : (cutAtText (bytes "/keys/") (restOf request)) = none := by
  have hDigits : ∀ n : Nat, ascii 'k' ∉ decimal n := fun n => not_mem_decimal (by decide)
  have hWord : ascii 'k' ∉ bytes "/grants/" := by decide
  apply cutAtText_eq_none (c := ascii 'k') (by decide)
  rw [restOf_grantPath h]
  simp [hDigits, hWord]

/-- What the handlers of a user answer to a request for a grant. -/
def refusal : Response := if env.available then userNotFound else unavailable

theorem patchUser_grant (h : request.path = grantPath user site) (services : Services Host) :
    patchUser env request services = .ok (refusal env) services := by
  simp only [patchUser, refusal, cut_keysSlash h, contains_slash h]
  cases env.available with
  | false => rfl
  | true => rfl

theorem deleteUser_grant (h : request.path = grantPath user site) (services : Services Host) :
    deleteUser env request services = .ok (refusal env) services := by
  simp only [deleteUser, refusal, cut_keysSlash h, contains_slash h]
  cases env.available with
  | false => rfl
  | true => rfl

/-- A `GET` of a grant looks for the number of its site one byte too early, and finds none. -/
theorem getUser_grant (h : request.path = grantPath user site) (services : Services Host) :
    getUser env request services =
      .ok (if ((parseUid (decimal user.toNat)).bind services.memory.users.find).isSome then grantNotFound
        else userNotFound) services := by
  have hBehind : (decimal user.toNat ++ (bytes "/grants/" ++ decimal site.toNat)).drop ((decimal user.toNat).length + 6) =
      ascii 's' :: ascii '/' :: decimal site.toNat := by
    rw [List.drop_append, List.drop_of_length_le (Nat.le_add_right _ _), Nat.add_sub_cancel_left]
    rfl
  simp only [getUser, restOf_grantPath h, cut_keys, cut_grants, hBehind]
  rw [Control.get_bind]
  cases (parseUid (decimal user.toNat)).bind services.memory.users.find with
  | none => rfl
  | some found =>
      have hLength : 1 < (ascii 's' :: ascii '/' :: decimal site.toNat).length := by simp
      have hSite : parseUid ((ascii 's' :: ascii '/' :: decimal site.toNat).drop 1) = none := parseUid_slash _
      dsimp only
      rw [showGrants, if_pos hLength, hSite]
      rfl

theorem serve_get (hMethod : request.method = bytes "GET") (hPath : request.path = grantPath user site) :
    serve env request = some (getUser env request) := by
  rw [serve, hMethod, hPath, endpointOf_get (usersPath_startsWith user site)]
  rfl

/-- No `GET` of a grant's path shows a grant. -/
theorem get_ne_grant (hMethod : request.method = bytes "GET") (hPath : request.path = grantPath user site)
    (services : Services Host) (grant : AccessGrant) {response : Api Host Response}
    (hServe : serve env request = some response) :
    response services ≠ .ok (success (grantJson env.sites grant)) services := by
  obtain rfl := Option.some.inj ((serve_get env hMethod hPath).symm.trans hServe)
  rw [getUser_grant env hPath]
  intro hSame
  injection hSame with hResponse
  have hStatus : (404 : Nat) = 200 := by
    have hCodes := congrArg Response.statusCode hResponse
    split at hCodes
    · exact hCodes
    · exact hCodes
  exact absurd hStatus (by decide)

end Requests

/-! ## The registrations -/

/-- No path is registered both exactly and as a prefix. -/
theorem exists_resource {route : Route Endpoint} (hMem : route ∈ apiRouter) :
    ∃ method path, route.Resource apiRouter method path := by
  refine ⟨_, _, Router.exists_resource ?_⟩
  intro other hOther _ hPath
  rw [(apiRouter_paths hOther).1, (apiRouter_paths hMem).1, hPath]

theorem serves_iff {route : Route Endpoint} (hMem : route ∈ apiRouter) : Serves route ↔ route.handler ∉ shadowed := by
  exact (Router.serves_iff hMem (exists_resource hMem)).trans (apiRouter_first hMem)

/-- A request never gets a handler whose pattern was registered before. -/
theorem endpointOf_unshadowed {method path : Bytes} {endpoint : Endpoint} (h : endpointOf method path = some endpoint) :
    endpoint ∉ shadowed := by
  obtain ⟨route, hSelect, rfl⟩ := Option.map_eq_some_iff.mp h
  obtain ⟨hMem, hResource⟩ := Router.resource_of_select hSelect
  apply (serves_iff hMem).mp
  intro method' path' hResource'
  have hFirst := Router.select_of_resource hMem hResource
  rw [Router.select_of_resource hMem hResource', ← hFirst, hSelect]

/-- No grant can be reached under its path: the requests that change it get the handlers
of its user, and the one that reads it finds nothing. A registration gets the requests
for its pattern, unless the pattern was registered before. -/
theorem grants_unreachable {Host : Type} (env : Env Host) (services : Services Host) (user site : UInt64)
    (grant : AccessGrant) (_ : findGrant services.memory user site = some grant) :
    endpointOf (bytes "DELETE") (grantPath user site) ≠ some .sftpGrantDelete ∧
      endpointOf (bytes "PATCH") (grantPath user site) ≠ some .sftpGrantPatch ∧
      (∀ request : Request, request.method = bytes "GET" → request.path = grantPath user site →
        ∀ response, serve env request = some response →
          response services ≠ .ok (success (grantJson env.sites grant)) services) ∧
      ∀ route ∈ apiRouter, Serves route ↔ route.handler ∉ shadowed := by
  refine ⟨?_, ?_, ?_, fun route hMem => serves_iff hMem⟩
  · rw [endpointOf_delete (usersPath_startsWith user site)]
    decide
  · rw [endpointOf_patch (usersPath_startsWith user site)]
    decide
  · intro request hMethod hPath response hServe
    exact get_ne_grant env hMethod hPath services grant hServe

/-- A provider whose calls succeed. -/
def willingProvider : Provider Unit where
  createUser _ _ _ := (.ok [], ())
  disableUser _ _ _ := (.ok [], ())
  removeUser _ _ _ := (.ok [], ())
  writeAuthorizedKeys _ _ _ := (.ok [], ())
  applyGrant _ _ _ _ _ := (.ok [], ())
  revokeGrant _ _ _ _ _ := (.ok [], ())
  hasMapping _ _ := true
  accounts _ := []

def sampleEnv : Env Unit where
  sha256 _ := []
  sites := [⟨1, bytes "example.org"⟩]
  available := true
  provider := willingProvider
  generate _ _ := .error []
  throws _ := false

def sampleGrant : AccessGrant := ⟨1, 1, 1, .readWrite⟩

/-- A user with a grant. -/
def sampleServices : Services Unit where
  memory := { users := ⟨[{ id := 1, username := bytes "alice" }], 2⟩, grants := ⟨[sampleGrant], 2⟩ }
  saved := { users := [{ id := 1, username := bytes "alice" }], grants := [sampleGrant] }
  host := ()

/-- The handlers of the user get the requests about the grant, and the user is said to
be missing. A `GET` says that of the grant. -/
theorem grant_intercepted :
    findGrant sampleServices.memory 1 1 = some sampleGrant ∧
      endpointOf (bytes "DELETE") (grantPath 1 1) = some .sftpUserDelete ∧
      endpointOf (bytes "PATCH") (grantPath 1 1) = some .sftpUserPatch ∧
      deleteUser sampleEnv { method := bytes "DELETE", path := grantPath 1 1 } sampleServices =
        .ok userNotFound sampleServices ∧
      patchUser sampleEnv { method := bytes "PATCH", path := grantPath 1 1 } sampleServices =
        .ok userNotFound sampleServices ∧
      serve sampleEnv { method := bytes "GET", path := grantPath 1 1 } =
        some (getUser sampleEnv { method := bytes "GET", path := grantPath 1 1 }) ∧
      getUser sampleEnv { method := bytes "GET", path := grantPath 1 1 } sampleServices =
        .ok grantNotFound sampleServices := by
  refine ⟨by decide, endpointOf_delete (usersPath_startsWith 1 1), endpointOf_patch (usersPath_startsWith 1 1),
    deleteUser_grant sampleEnv rfl sampleServices, patchUser_grant sampleEnv rfl sampleServices,
    serve_get sampleEnv rfl rfl, ?_⟩
  rw [getUser_grant sampleEnv rfl, if_pos (by decide)]

/-- The sample grant cannot be reached. -/
theorem grants_unreachable_sample :
    findGrant sampleServices.memory 1 1 = some sampleGrant ∧
      endpointOf (bytes "DELETE") (grantPath 1 1) ≠ some .sftpGrantDelete :=
  have hGrant : findGrant sampleServices.memory 1 1 = some sampleGrant := by decide
  ⟨hGrant, (grants_unreachable sampleEnv sampleServices 1 1 sampleGrant hGrant).1⟩

end ContainerCP.SftpApi
