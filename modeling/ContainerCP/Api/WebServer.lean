import ContainerCP.Api.Request
import ContainerCP.Auth.AuthService

/-! `WebServer::handle_client`: which requests the panel's web server answers itself,
and which it passes on to the API. -/
namespace ContainerCP.Api.WebServer

open Auth

/-! ## Headers of the raw request -/

/-- `extract_header`: the value of the first line with some name. -/
def extractHeader (raw name : Bytes) : Bytes :=
  ((((headerLines raw).filterMap splitHeader).find? (·.1 = name)).map Prod.snd).getD []

/-- `extract_session_token`. -/
def extractSessionToken (raw : Bytes) : Bytes := extractHeader raw (bytes "X-Session-Token")

/-- The names and the values of one `Cookie` header. Each has an equals sign. -/
def cookies : Nat → Bytes → List (Bytes × Bytes)
  | 0, _ => []
  | fuel + 1, value =>
      match cutAt (ascii '=') (value.dropWhile fun c => c = ascii ' ' || c = ascii ';') with
      | none => []
      | some (name, rest) =>
          match cutAt (ascii ';') rest with
          | none => [(name, rest)]
          | some (value, behind) => (name, value) :: cookies fuel behind

/-- The values of all `Cookie` lines. -/
def cookieHeaders (raw : Bytes) : List Bytes :=
  ((headerLines raw).filterMap (cutAt (ascii ':'))).filterMap fun header =>
    if header.1 = bytes "Cookie" then some header.2 else none

/-- `extract_cookie`. -/
def extractCookie (raw name : Bytes) : Bytes :=
  ((((cookieHeaders raw).flatMap fun value => cookies value.length value).find? (·.1 = name)).map Prod.snd).getD []

/-- `parse_request`. -/
def parseRequest (raw : Bytes) : Request :=
  match getline newline raw with
  | none => {}
  | some (line, stream) =>
      let first := RequestLine.parse line
      { method := first.method
        path := pathOf first.target
        query := queryOf id first.target
        headers := collect ((headerLines stream).filterMap splitHeader) }

/-! ## The dispatch -/

/-- What `handle_client` does with a request: the handler that it calls, the file that
it looks for, or the proxy. -/
inductive Action where
  | login
  | logout
  | challenge (token : Bytes)
  | changePassword
  | me
  | sqlConsoleAuth
  | sqlConsoleRedeem
  | sqlConsoleLogout
  | unauthorized
  | proxyToApi
  | serveStatic (path : Bytes)
  deriving DecidableEq

/-- `require_session`. -/
def requireSession (manager : SessionManager) (now : Int) (raw : Bytes) : Bool × SessionManager :=
  let token := extractSessionToken raw
  if token = [] then (false, manager)
  else
    let validated := manager.validate now token
    (validated.1.isSome, validated.2)

/-- The paths that are passed on without a session. -/
def publicHealthPaths : List Bytes := [bytes "/ui-api/health", bytes "/api/health", bytes "/ui-api/api/health"]

def challengePrefix : Bytes := bytes "/.well-known/acme-challenge/"

/-- A request for the API that needs a session. -/
def guarded (manager : SessionManager) (now : Int) (raw : Bytes) : Action × SessionManager :=
  let session := requireSession manager now raw
  (if session.1 then .proxyToApi else .unauthorized, session.2)

/-- The branches of `handle_client` on the path, in their order. -/
def dispatch (manager : SessionManager) (now : Int) (raw method path : Bytes) : Action × SessionManager :=
  if path = bytes "/ui-api/auth/login" then (.login, manager)
  else if path = bytes "/ui-api/auth/logout" then (.logout, manager)
  else if path ∈ publicHealthPaths then (.proxyToApi, manager)
  else if challengePrefix.isPrefixOf path ∧ method = bytes "GET" then
    (.challenge (path.drop challengePrefix.length), manager)
  else if path = bytes "/ui-api/auth/change-password" then (.changePassword, manager)
  else if path = bytes "/ui-api/auth/me" then (.me, manager)
  else if (bytes "/sql-console/internal/auth/").isPrefixOf path then (.sqlConsoleAuth, manager)
  else if path = bytes "/sql-console/internal/redeem" then (.sqlConsoleRedeem, manager)
  else if path = bytes "/sql-console/internal/logout" then (.sqlConsoleLogout, manager)
  else if (bytes "/ui-api/").isPrefixOf path then guarded manager now raw
  else if (bytes "/api/").isPrefixOf path then guarded manager now raw
  else (.serveStatic path, manager)

/-- The part of `handle_client` behind the reads. -/
def handleRequest (manager : SessionManager) (now : Int) (raw : Bytes) : Action × SessionManager :=
  dispatch manager now raw (parseRequest raw).method (parseRequest raw).path

/-! ## The proxy -/

/-- The path without `/ui-api`. -/
def stripUiApi (path : Bytes) : Bytes := if (bytes "/ui-api").isPrefixOf path then path.drop 7 else path

/-- The request with its path rewritten, where the path is what stands between the first
two spaces. -/
def rewrite (raw : Bytes) : Option Bytes :=
  match cutAt (ascii ' ') raw with
  | none => none
  | some (method, rest) =>
      match cutAt (ascii ' ') rest with
      | none => none
      | some (path, behind) => some (method ++ ascii ' ' :: (stripUiApi path ++ ascii ' ' :: behind))

/-- What the server writes to the API, if it gets that far. -/
def forwarded (manager : SessionManager) (now : Int) (connects : Bool) (raw : Bytes) : Option Bytes :=
  if (handleRequest manager now raw).1 = .proxyToApi ∧ connects then rewrite raw else none

def bufferSize : Nat := 65536

/-- `handle_client`, as far as the API sees it. -/
def handleClient (manager : SessionManager) (now : Int) (connects : Bool) (client : Socket) : Option Bytes :=
  (receive bufferSize client).1.bind (forwarded manager now connects)

end ContainerCP.Api.WebServer
