import ContainerCP.Text.Decimal
import ContainerCP.Text.LineSearch

/-! `ProxyConfigBuilder`: the texts of the nginx server blocks, and of the routes of the
SQL console. -/
namespace ContainerCP.Proxy

structure Params where
  domain : Bytes
  upstream : Bytes
  https : Bool := false
  redirect : Bool := false
  certPath : Bytes := []
  keyPath : Bytes := []
  webmailUpstream : Bytes := []
  sqlConsoleLocations : Bytes := []
  deriving DecidableEq

/-! ## Server blocks -/

def proxyHeaders : List Bytes :=
  [bytes "        proxy_set_header Host $host;", bytes "        proxy_set_header X-Real-IP $remote_addr;",
    bytes "        proxy_set_header X-Forwarded-For $proxy_add_x_forwarded_for;"]

def schemeHeader : Bytes := bytes "        proxy_set_header X-Forwarded-Proto $scheme;"

/-- The start of a server block, up to its first empty line. -/
def serverHead (listen : String) (domain : Bytes) (more : List Bytes) : List Bytes :=
  [bytes "server \x7b", bytes "    listen " ++ bytes listen ++ bytes ";",
    bytes "    server_name " ++ domain ++ bytes ";", bytes "    resolver 127.0.0.11 valid=30s;"] ++ more ++ [[]]

/-- The location that a server block passes on. -/
def rootLocation (upstream : Bytes) (headers : List Bytes) : List Bytes :=
  [bytes "    location / \x7b", bytes "        set $backend \"http://" ++ upstream ++ bytes "\";",
    bytes "        proxy_pass $backend;"] ++ proxyHeaders ++ headers ++ [bytes "    \x7d"]

/-- The locations of the web mail. -/
def webmailLocations (webmailUpstream : Bytes) : List Bytes :=
  if webmailUpstream = [] then []
  else
    [bytes "    location /webmail/ \x7b", bytes "        proxy_pass http://" ++ webmailUpstream ++ bytes "/;"] ++
      proxyHeaders ++ [schemeHeader, bytes "    \x7d"] ++
      [bytes "    location /snappymail/ \x7b", bytes "        proxy_pass http://" ++ webmailUpstream ++ bytes ";"] ++
      proxyHeaders ++ [schemeHeader, bytes "    \x7d"]

/-- The lines of an HTTP server block before the locations that are added and its end. -/
def httpLines (domain upstream : Bytes) : List Bytes :=
  serverHead "80" domain [] ++ rootLocation upstream [schemeHeader]

/-- The end of a server block. -/
def serverEnd : Bytes := bytes "\x7d\n"

/-- `build_http_block`. -/
def buildHttpBlock (domain upstream : Bytes) : Bytes := unlines (httpLines domain upstream) ++ serverEnd

/-- `build_redirect_block`. -/
def buildRedirectBlock (domain : Bytes) : Bytes :=
  unlines [bytes "server \x7b", bytes "    listen 80;", bytes "    server_name " ++ domain ++ bytes ";",
    bytes "    return 301 https://$host$request_uri;"] ++ serverEnd

def httpsLines (domain upstream certPath keyPath : Bytes) : List Bytes :=
  serverHead "443 ssl" domain
      [bytes "    ssl_certificate " ++ certPath ++ bytes ";", bytes "    ssl_certificate_key " ++ keyPath ++ bytes ";"] ++
    rootLocation upstream
      [bytes "        proxy_set_header X-Forwarded-Proto https;", bytes "        proxy_set_header X-Forwarded-Port 443;",
        bytes "        proxy_set_header X-Forwarded-Ssl on;"]

/-- The server block in front of the last one. -/
def firstBlock (params : Params) : Bytes :=
  if params.https && params.redirect then buildRedirectBlock params.domain
  else if params.https then buildHttpBlock params.domain params.upstream
  else []

/-- The last server block up to its end: the block of HTTPS, or the only one of HTTP. -/
def lastBlock (params : Params) : Bytes :=
  unlines
      (if params.https then httpsLines params.domain params.upstream params.certPath params.keyPath
        else httpLines params.domain params.upstream) ++
    (unlines (webmailLocations params.webmailUpstream) ++ params.sqlConsoleLocations)

/-- `build`. -/
def build (params : Params) : Bytes := firstBlock params ++ (lastBlock params ++ serverEnd)

/-! ## Routes of the SQL console -/

/-- `normalize_upstream`. -/
def normalizeUpstream (raw : Bytes) : Bytes :=
  let result := ((cutAtText (bytes "://") raw).map Prod.snd).getD raw
  (result.dropWhile (· = ascii '/')).rdropWhile fun c => c = ascii ' ' || c = ascii '\t' || c = ascii ';'

/-- `std::isxdigit`. -/
def isXdigit (c : UInt8) : Bool := isDigit c || (97 ≤ c && c ≤ 102) || (65 ≤ c && c ≤ 70)

def validLaunchId (launchId : Bytes) : Bool := launchId.length = 32 && launchId.all isXdigit

def routeBegin (launchId : Bytes) : Bytes := bytes "    # containercp-sql-console-route " ++ launchId ++ bytes " begin"

def routeEnd (launchId : Bytes) : Bytes := bytes "    # containercp-sql-console-route " ++ launchId ++ bytes " end"

/-- The lines between the markers of a route. -/
def routeLines (launchId : Bytes) (databaseId : UInt64) (adminer auth : Bytes) : List Bytes :=
  [bytes "    location = /sql-console/internal/redeem \x7b", bytes "        return 404;", bytes "    \x7d",
    bytes "    location = /sql-console/internal/logout \x7b", bytes "        return 404;", bytes "    \x7d",
    bytes "    location = /sql-console/internal/auth/" ++ launchId ++ bytes " \x7b",
    bytes "        internal;",
    bytes "        proxy_pass http://" ++ auth ++ bytes "/sql-console/internal/auth/" ++ launchId ++ bytes ";",
    bytes "        proxy_pass_request_body off;",
    bytes "        proxy_set_header Content-Length \"\";",
    bytes "        proxy_set_header Cookie $http_cookie;",
    bytes "        proxy_set_header X-Real-IP $remote_addr;",
    bytes "        proxy_set_header X-Forwarded-For $proxy_add_x_forwarded_for;",
    schemeHeader,
    bytes "    \x7d",
    bytes "    location ^~ /sql-console/" ++ launchId ++ bytes "/ \x7b",
    bytes "        auth_request /sql-console/internal/auth/" ++ launchId ++ bytes ";",
    bytes "        set $sql_console_backend \"http://" ++ adminer ++ bytes "\";",
    bytes "        rewrite ^/sql-console/" ++ launchId ++ bytes "/?(.*)$ /$1 break;",
    bytes "        proxy_pass $sql_console_backend;",
    bytes "        proxy_set_header Host $host;",
    bytes "        proxy_set_header X-ContainerCP-SqlConsole-Launch-Id " ++ launchId ++ bytes ";",
    bytes "        proxy_set_header X-ContainerCP-SqlConsole-Database-Id " ++ decimal databaseId.toNat ++ bytes ";",
    bytes "        proxy_set_header X-Real-IP $remote_addr;",
    bytes "        proxy_set_header X-Forwarded-For $proxy_add_x_forwarded_for;",
    schemeHeader,
    bytes "    \x7d"]

/-- `sql_console_route_locations`; the empty text stands for a route that is refused. -/
def sqlConsoleRouteLocations (launchId : Bytes) (databaseId : UInt64) (adminerUpstream authUpstream : Bytes) : Bytes :=
  let adminer := normalizeUpstream adminerUpstream
  let auth := normalizeUpstream authUpstream
  if !validLaunchId launchId || databaseId = 0 then []
  else if adminer = [] || auth = [] then []
  else unlines (routeBegin launchId :: (routeLines launchId databaseId adminer auth ++ [routeEnd launchId]))

end ContainerCP.Proxy
